import Mathlib.Tactic.SplitIfs
import ExpressLinks.FileTree

/-!
# What writing a file changes

A path is followed from directory to directory, so where it leads depends on which names
are those of directories. Writing a file makes no directory and removes none: the file
stands in a directory and where no directory is. So after a write every path leads where it
led before, the same paths can be written to, and the file holds what was written.
-/

namespace ExpressLinks.FileTree

/-- There is a directory at the end of the names. -/
def IsDirectory (tree : FileTree) (names : List String) : Prop :=
  ∃ entries, tree.node? names = some (.directory entries)

/-- A file can be written at a path, whatever it is to hold. -/
def CanWrite (tree : FileTree) (workingDirectory : List String) (path : String) : Prop :=
  ∀ content, ∃ written, tree.write workingDirectory path content = .ok written

theorem lookup_setEntry (name other : String) (new : FileTree)
    (entries : List (String × FileTree)) :
    (setEntry name new entries).lookup other =
      if other = name then some new else entries.lookup other := by
  induction entries with
  | nil =>
      by_cases equal : other = name
      · simp [setEntry, equal]
      · have different : (other == name) = false := beq_false_of_ne equal
        simp [setEntry, List.lookup_cons, different, equal]
  | cons entry rest ih =>
      obtain ⟨old, tree⟩ := entry
      rw [setEntry]
      by_cases replaced : old = name
      · subst replaced
        rw [if_pos rfl]
        by_cases equal : other = old
        · simp [equal]
        · have different : (other == old) = false := beq_false_of_ne equal
          simp [List.lookup_cons, different, equal]
      · rw [if_neg replaced, List.lookup_cons, List.lookup_cons, ih]
        by_cases equal : other = old
        · simp [equal, replaced]
        · have different : (other == old) = false := beq_false_of_ne equal
          simp only [different]

/-- What is put at the end of the names is found there. -/
theorem node?_put_self (tree new : FileTree) (names : List String) :
    (tree.put names new).node? names = some new := by
  induction names generalizing tree with
  | nil => rfl
  | cons name names ih => simp [put, node?, child?, lookup_setEntry, ih]

section IsDirectory

variable {tree below : FileTree} {entries : List (String × FileTree)} {name : String}
  {names more before : List String} {content : List UInt8}

theorem isDirectory_nil : tree.IsDirectory [] ↔ ∃ entries, tree = .directory entries := by
  simp [IsDirectory, node?]

theorem isDirectory_cons :
    tree.IsDirectory (name :: names) ↔
      ∃ below, tree.child? name = some below ∧ below.IsDirectory names := by
  simp only [IsDirectory, node?, Option.bind_eq_some_iff]
  constructor
  · rintro ⟨entries, below, found, directory⟩
    exact ⟨below, found, entries, directory⟩
  · rintro ⟨below, found, entries, directory⟩
    exact ⟨entries, below, found, directory⟩

theorem not_isDirectory_file : ¬ (file content).IsDirectory names := by
  cases names with
  | nil => simp [isDirectory_nil]
  | cons name names => simp [isDirectory_cons, child?]

/-- The way to a directory goes through directories. -/
theorem IsDirectory.of_append (h : tree.IsDirectory (names ++ more)) : tree.IsDirectory names := by
  induction names generalizing tree with
  | nil =>
      cases tree with
      | file content => exact absurd h not_isDirectory_file
      | directory entries => exact isDirectory_nil.mpr ⟨entries, rfl⟩
  | cons name names ih =>
      obtain ⟨below, found, inside⟩ := isDirectory_cons.mp h
      exact isDirectory_cons.mpr ⟨below, found, ih inside⟩

/-- A file put into a directory, where there is no directory yet, leaves all directories
    where they are. -/
theorem isDirectory_put_iff {last : String} (parent : tree.IsDirectory before)
    (free : ¬ tree.IsDirectory (before ++ [last])) :
    (tree.put (before ++ [last]) (.file content)).IsDirectory names ↔ tree.IsDirectory names := by
  induction before generalizing tree names with
  | nil =>
      obtain ⟨entries, rfl⟩ := isDirectory_nil.mp parent
      cases names with
      | nil => simp [isDirectory_nil, put]
      | cons name names =>
          simp only [List.nil_append, put, isDirectory_cons, child?, lookup_setEntry]
          by_cases equal : name = last
          · subst equal
            have nothing : ¬ ∃ below, entries.lookup name = some below ∧
                below.IsDirectory names := by
              rintro ⟨below, found, inside⟩
              apply free
              exact isDirectory_cons.mpr ⟨below, found, IsDirectory.of_append inside⟩
            simp [nothing, not_isDirectory_file]
          · simp only [if_neg equal]
  | cons first before ih =>
      obtain ⟨below, found, inside⟩ := isDirectory_cons.mp parent
      cases tree with
      | file content => simp [child?] at found
      | directory entries =>
          have deeper : ¬ below.IsDirectory (before ++ [last]) := by
            intro directory
            exact free (isDirectory_cons.mpr ⟨below, found, directory⟩)
          have listed : entries.lookup first = some below := found
          cases names with
          | nil => simp [isDirectory_nil, put]
          | cons name names =>
              simp only [List.cons_append, put, isDirectory_cons, child?, lookup_setEntry, listed,
                Option.getD_some]
              by_cases equal : name = first
              · subst equal
                simp [listed, ih inside deeper]
              · simp only [if_neg equal]

end IsDirectory

section Following

variable {tree before after : FileTree} {position place : List String} {component : String}
  {components names workingDirectory : List String} {path : String}

/-- Where one component leads from a directory, its names standing last first. -/
def step (position : List String) (component : String) : List String :=
  if component = "" ∨ component = "." then position
  else if component = ".." then position.tail
  else component :: position

theorem follow_cons_eq_ok_iff :
    tree.follow position (component :: components) = .ok place ↔
      tree.IsDirectory position.reverse ∧
        tree.follow (step position component) components = .ok place := by
  unfold IsDirectory step
  rw [follow]
  cases found : tree.node? position.reverse with
  | none => simp
  | some node =>
      cases node with
      | file content => simp
      | directory entries => split_ifs <;> simp

/-- The names lead to a directory, or to a place in one. -/
def IsPlace (tree : FileTree) (names : List String) : Prop :=
  tree.IsDirectory names ∨ ∃ before last, names = before ++ [last] ∧ tree.IsDirectory before

theorem isPlace_step (directory : tree.IsDirectory position.reverse) :
    tree.IsPlace (step position component).reverse := by
  unfold step
  split_ifs with stays up
  · exact .inl directory
  · cases position with
    | nil => exact .inl directory
    | cons last position =>
        rw [List.reverse_cons] at directory
        exact .inl directory.of_append
  · rw [List.reverse_cons]
    exact .inr ⟨_, _, rfl, directory⟩

/-- A path that can be followed from a place leads to a place. -/
theorem isPlace_of_follow (start : tree.IsPlace position.reverse)
    (leads : tree.follow position components = .ok place) : tree.IsPlace place.reverse := by
  induction components generalizing position with
  | nil =>
      obtain rfl : position = place := by simpa [follow] using leads
      exact start
  | cons component components ih =>
      obtain ⟨directory, onward⟩ := follow_cons_eq_ok_iff.mp leads
      exact ih (isPlace_step directory) onward

/-- Where a path leads depends only on which names are those of directories. -/
theorem follow_eq_ok_congr (same : ∀ names, after.IsDirectory names ↔ before.IsDirectory names) :
    after.follow position components = .ok place ↔
      before.follow position components = .ok place := by
  induction components generalizing position with
  | nil => simp [follow]
  | cons component components ih => rw [follow_cons_eq_ok_iff, follow_cons_eq_ok_iff, same, ih]

theorem locate_eq_ok_iff :
    tree.locate workingDirectory path = .ok names ↔
      path ≠ "" ∧
        tree.follow (if FilePath.isAbsolute path then [] else workingDirectory.reverse)
          (Text.splitString '/' path) = .ok names.reverse := by
  by_cases empty : path = ""
  · simp [locate, empty]
  · simp only [locate, if_neg empty]
    cases tree.follow (if FilePath.isAbsolute path then [] else workingDirectory.reverse)
        (Text.splitString '/' path) with
    | error error => simp [Except.map]
    | ok place => simp [Except.map, empty, List.reverse_eq_iff]

theorem isPlace_of_locate (leads : tree.locate workingDirectory path = .ok names) :
    tree.IsPlace names := by
  obtain ⟨-, followed⟩ := locate_eq_ok_iff.mp leads
  have some : Text.splitString '/' path ≠ [] := by
    simp [Text.splitString, Text.splitAt_ne_nil]
  obtain ⟨component, components, cut⟩ := List.exists_cons_of_ne_nil some
  rw [cut] at followed
  obtain ⟨directory, onward⟩ := follow_cons_eq_ok_iff.mp followed
  have found := isPlace_of_follow (isPlace_step directory) onward
  rwa [List.reverse_reverse] at found

theorem locate_eq_ok_congr (same : ∀ names, after.IsDirectory names ↔ before.IsDirectory names) :
    after.locate workingDirectory path = .ok names ↔
      before.locate workingDirectory path = .ok names := by
  rw [locate_eq_ok_iff, locate_eq_ok_iff, follow_eq_ok_congr same]

end Following

section Write

variable {tree before after written : FileTree} {workingDirectory names : List String}
  {path : String} {content : List UInt8}

/-- A file is written to where a path leads, provided that the path has no slash at its end
    and that no directory is there. -/
theorem write_eq_ok_iff :
    tree.write workingDirectory path content = .ok written ↔
      FilePath.withoutSlashes path = path ∧
        ∃ names, tree.locate workingDirectory path = .ok names ∧ ¬ tree.IsDirectory names ∧
          tree.put names (.file content) = written := by
  unfold write
  by_cases bare : FilePath.withoutSlashes path = path
  · rw [if_neg (by simp [bare]), bare]
    cases leads : tree.locate workingDirectory path with
    | error error => simp
    | ok names =>
        unfold IsDirectory
        cases found : tree.node? names with
        | none => simp [found]
        | some node => cases node <;> simp [found]
  · simp only [bare, if_false, false_and, iff_false]
    split_ifs with slashes
    · simp
    · cases tree.locate workingDirectory (FilePath.withoutSlashes path) with
      | error error => simp
      | ok names =>
          -- Something or nothing may be there: a path that ends in a slash is no file's.
          cases found : tree.node? names with
          | none => simp [found]
          | some node => cases node <;> simp [found]

theorem canWrite_iff :
    tree.CanWrite workingDirectory path ↔
      FilePath.withoutSlashes path = path ∧
        ∃ names, tree.locate workingDirectory path = .ok names ∧ ¬ tree.IsDirectory names := by
  simp only [CanWrite, write_eq_ok_iff]
  constructor
  · intro writable
    obtain ⟨-, bare, names, leads, free, -⟩ := writable []
    exact ⟨bare, names, leads, free⟩
  · rintro ⟨bare, names, leads, free⟩ content
    exact ⟨_, bare, names, leads, free, rfl⟩

/-- What can be written does not depend on the content. -/
theorem canWrite_of_write_eq_ok (success : tree.write workingDirectory path content = .ok written) :
    tree.CanWrite workingDirectory path := by
  obtain ⟨bare, names, leads, free, -⟩ := write_eq_ok_iff.mp success
  exact canWrite_iff.mpr ⟨bare, names, leads, free⟩

/-- Writing a file makes no directory and removes none. -/
theorem isDirectory_write_iff (success : tree.write workingDirectory path content = .ok written) :
    written.IsDirectory names ↔ tree.IsDirectory names := by
  obtain ⟨-, place, leads, free, rfl⟩ := write_eq_ok_iff.mp success
  rcases isPlace_of_locate leads with directory | ⟨parent, last, rfl, directory⟩
  · exact absurd directory free
  · exact isDirectory_put_iff directory free

/-- After a file is written, the same paths can be written to as before. -/
theorem canWrite_write_iff {other : String}
    (success : tree.write workingDirectory path content = .ok written) :
    written.CanWrite workingDirectory other ↔ tree.CanWrite workingDirectory other := by
  have same : ∀ names, written.IsDirectory names ↔ tree.IsDirectory names :=
    fun _ => isDirectory_write_iff success
  simp only [canWrite_iff, same, locate_eq_ok_congr same]

/-- A file that is written holds its content. -/
theorem read_write (success : tree.write workingDirectory path content = .ok written) :
    written.read workingDirectory path = .ok content := by
  have same : ∀ names, written.IsDirectory names ↔ tree.IsDirectory names :=
    fun _ => isDirectory_write_iff success
  obtain ⟨-, names, leads, -, rfl⟩ := write_eq_ok_iff.mp success
  rw [read, (locate_eq_ok_congr same).mpr leads]
  simp only [node?_put_self]

end Write

end ExpressLinks.FileTree
