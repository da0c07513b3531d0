import Mathlib.Data.List.Basic
import ExpressLinks.Proofs.FilePath.Components
import ExpressLinks.Proofs.FileTree.Writing

/-!
# Well-named trees

In a file tree that can stand on a disk every entry has a name, and no directory holds a name
twice. The empty tree is of this form and writing files keeps it so. Then what a name stands
for is what is listed under it, and the names on the way to a file, joined to the path of the
directory they start from, are a path that leads to the file.
-/

namespace ExpressLinks.FileTree

open FilePath (IsName descend join)

/-- All entries have names, and no two entries of a directory have the same. -/
inductive WellNamed : FileTree → Prop where
  | file (content : List UInt8) : WellNamed (.file content)
  | directory {entries : List (String × FileTree)} (distinct : (entries.map Prod.fst).Nodup)
      (named : ∀ entry ∈ entries, IsName entry.1) (inside : ∀ entry ∈ entries, WellNamed entry.2) :
      WellNamed (.directory entries)

section WellNamed

variable {tree new node written : FileTree} {entries : List (String × FileTree)} {name : String}
  {names pieces place workingDirectory : List String} {path : String} {content : List UInt8}

theorem lookup_eq_some_iff_mem (distinct : (entries.map Prod.fst).Nodup) :
    entries.lookup name = some node ↔ (name, node) ∈ entries := by
  induction entries with
  | nil => simp
  | cons entry rest ih =>
      obtain ⟨other, tree⟩ := entry
      obtain ⟨fresh, distinct⟩ := List.nodup_cons.mp distinct
      rw [List.lookup_cons, List.mem_cons, Prod.mk.injEq]
      by_cases equal : name = other
      · subst equal
        have absent : (name, node) ∉ rest := by
          intro member
          exact fresh (List.mem_map.mpr ⟨_, member, rfl⟩)
        simp [absent, eq_comm]
      · have different : (name == other) = false := beq_false_of_ne equal
        rw [different]
        simp [equal, ih distinct]

@[simp] theorem wellNamed_file : (FileTree.file content).WellNamed := .file content

@[simp] theorem wellNamed_directory :
    (FileTree.directory entries).WellNamed ↔
      (entries.map Prod.fst).Nodup ∧
        ∀ entry ∈ entries, IsName entry.1 ∧ entry.2.WellNamed := by
  constructor
  · rintro (_ | ⟨distinct, named, inside⟩)
    exact ⟨distinct, fun entry member => ⟨named entry member, inside entry member⟩⟩
  · rintro ⟨distinct, good⟩
    exact .directory distinct (fun entry member => (good entry member).1)
      fun entry member => (good entry member).2

theorem WellNamed.empty : FileTree.empty.WellNamed := by simp [FileTree.empty]

/-- A node below a directory is reached through one of its entries. -/
theorem node?_directory_cons (distinct : (entries.map Prod.fst).Nodup) :
    (directory entries).node? (name :: names) = some node ↔
      ∃ entry ∈ entries, entry.1 = name ∧ entry.2.node? names = some node := by
  simp only [node?, child?, Option.bind_eq_some_iff, lookup_eq_some_iff_mem distinct]
  constructor
  · rintro ⟨tree, member, found⟩
    exact ⟨_, member, rfl, found⟩
  · rintro ⟨entry, member, rfl, found⟩
    exact ⟨_, member, found⟩

/-- The way to a node goes through names. -/
theorem WellNamed.isName_of_node? (h : tree.WellNamed) (found : tree.node? names = some node) :
    ∀ name ∈ names, IsName name := by
  induction h generalizing names with
  | file content =>
      cases names with
      | nil => simp
      | cons name names => simp [FileTree.node?, child?] at found
  | directory distinct named inside ih =>
      cases names with
      | nil => simp
      | cons name names =>
          obtain ⟨entry, member, rfl, onward⟩ := (node?_directory_cons distinct).mp found
          intro other listed
          rcases List.mem_cons.mp listed with rfl | later
          · exact named entry member
          · exact ih entry member onward other later

theorem WellNamed.of_node? (h : tree.WellNamed) (found : tree.node? names = some node) :
    node.WellNamed := by
  induction names generalizing tree with
  | nil =>
      obtain rfl : tree = node := by simpa [FileTree.node?] using found
      exact h
  | cons name names ih =>
      cases h with
      | file content => simp [FileTree.node?, child?] at found
      | directory distinct named inside =>
          obtain ⟨entry, member, -, onward⟩ := (node?_directory_cons distinct).mp found
          exact ih (inside entry member) onward

theorem WellNamed.of_find? (h : tree.WellNamed)
    (found : tree.find? workingDirectory path = some node) : node.WellNamed := by
  unfold FileTree.find? at found
  split at found
  · cases found
  · exact h.of_node? found

/-- What an entry is after another was set: the new one, or one that was there under another
    name. -/
theorem mem_setEntry {entry : String × FileTree} (distinct : (entries.map Prod.fst).Nodup)
    (member : entry ∈ setEntry name new entries) :
    entry = (name, new) ∨ entry.1 ≠ name ∧ entry ∈ entries := by
  induction entries with
  | nil => exact .inl (List.mem_singleton.mp member)
  | cons first rest ih =>
      obtain ⟨old, tree⟩ := first
      obtain ⟨fresh, distinct⟩ := List.nodup_cons.mp distinct
      by_cases replaced : old = name
      · subst replaced
        rw [setEntry, if_pos rfl] at member
        rcases List.mem_cons.mp member with rfl | later
        · exact .inl rfl
        · refine .inr ⟨?_, List.mem_cons_of_mem _ later⟩
          intro same
          exact fresh (List.mem_map.mpr ⟨entry, later, same⟩)
      · rw [setEntry, if_neg replaced] at member
        rcases List.mem_cons.mp member with rfl | later
        · exact .inr ⟨replaced, List.mem_cons_self⟩
        · rcases ih distinct later with rfl | ⟨different, kept⟩
          · exact .inl rfl
          · exact .inr ⟨different, List.mem_cons_of_mem _ kept⟩

theorem nodup_setEntry (distinct : (entries.map Prod.fst).Nodup) :
    ((setEntry name new entries).map Prod.fst).Nodup := by
  induction entries with
  | nil => simp [setEntry]
  | cons first rest ih =>
      obtain ⟨old, tree⟩ := first
      obtain ⟨fresh, others⟩ := List.nodup_cons.mp distinct
      by_cases replaced : old = name
      · subst replaced
        rw [setEntry, if_pos rfl]
        exact distinct
      · rw [setEntry, if_neg replaced, List.map_cons]
        refine List.nodup_cons.mpr ⟨?_, ih others⟩
        intro member
        obtain ⟨entry, listed, same⟩ := List.mem_map.mp member
        rcases mem_setEntry others listed with rfl | ⟨-, kept⟩
        · exact replaced same.symm
        · exact fresh (List.mem_map.mpr ⟨entry, kept, same⟩)

theorem WellNamed.setEntry (h : (FileTree.directory entries).WellNamed) (named : IsName name)
    (placed : new.WellNamed) :
    (FileTree.directory (FileTree.setEntry name new entries)).WellNamed := by
  obtain ⟨distinct, good⟩ := wellNamed_directory.mp h
  refine wellNamed_directory.mpr ⟨nodup_setEntry distinct, ?_⟩
  intro entry member
  rcases mem_setEntry distinct member with rfl | ⟨-, kept⟩
  · exact ⟨named, placed⟩
  · exact good entry kept

/-- A tree stays well named when a node is put into it under names. -/
theorem WellNamed.put (h : tree.WellNamed) (named : ∀ name ∈ names, IsName name)
    (placed : new.WellNamed) : (tree.put names new).WellNamed := by
  induction names generalizing tree with
  | nil => exact placed
  | cons name names ih =>
      have own := named name List.mem_cons_self
      have later : ∀ other ∈ names, IsName other :=
        fun other member => named other (List.mem_cons_of_mem name member)
      cases h with
      | file content => exact WellNamed.empty.setEntry own (ih .empty later)
      | @directory entries distinct named inside =>
          refine WellNamed.setEntry (.directory distinct named inside) own (ih ?_ later)
          cases found : entries.lookup name with
          | none => exact .empty
          | some node => exact inside _ ((lookup_eq_some_iff_mem distinct).mp found)

/-- A path is followed through names. -/
theorem isName_of_follow (start : ∀ name ∈ names, IsName name)
    (free : ∀ piece ∈ pieces, '/' ∉ piece.toList)
    (leads : tree.follow names pieces = .ok place) : ∀ name ∈ place, IsName name := by
  induction pieces generalizing names with
  | nil =>
      obtain rfl : names = place := by simpa [follow] using leads
      exact start
  | cons piece pieces ih =>
      obtain ⟨-, onward⟩ := follow_cons_eq_ok_iff.mp leads
      refine ih ?_ (fun other later => free other (List.mem_cons_of_mem piece later)) onward
      unfold step
      split_ifs with stays up
      · exact start
      · intro name member
        exact start name (List.mem_of_mem_tail member)
      · intro name member
        rcases List.mem_cons.mp member with rfl | earlier
        · have slashFree := free name List.mem_cons_self
          exact ⟨fun empty => stays (.inl empty), fun point => stays (.inr point), up, slashFree⟩
        · exact start name earlier

theorem isName_of_locate (inside : ∀ name ∈ workingDirectory, IsName name)
    (leads : tree.locate workingDirectory path = .ok names) : ∀ name ∈ names, IsName name := by
  obtain ⟨-, followed⟩ := locate_eq_ok_iff.mp leads
  have start : ∀ name ∈ (if FilePath.isAbsolute path then [] else workingDirectory.reverse),
      IsName name := by
    split_ifs
    · simp
    · simpa using inside
  intro name member
  exact isName_of_follow start (fun piece => Text.not_mem_of_mem_splitString) followed name
    (List.mem_reverse.mpr member)

/-- Writing files keeps a tree well named. -/
theorem WellNamed.write (h : tree.WellNamed) (inside : ∀ name ∈ workingDirectory, IsName name)
    (success : tree.write workingDirectory path content = .ok written) : written.WellNamed := by
  obtain ⟨-, names, leads, -, rfl⟩ := write_eq_ok_iff.mp success
  exact h.put (isName_of_locate inside leads) (.file content)

end WellNamed

section Reading

variable {tree start node : FileTree} {base root name : String}
  {position place names first second workingDirectory : List String}

theorem follow_append_eq_ok_iff :
    tree.follow position (first ++ second) = .ok place ↔
      ∃ middle, tree.follow position first = .ok middle ∧
        tree.follow middle second = .ok place := by
  induction first generalizing position with
  | nil => simp [follow]
  | cons component first ih =>
      rw [List.cons_append, follow_cons_eq_ok_iff, ih]
      simp only [follow_cons_eq_ok_iff, and_assoc, exists_and_left]

/-- A name joined to the path of a directory leads to the place of that name in it. -/
theorem locate_join (named : IsName name) (directory : tree.IsDirectory place)
    (leads : tree.locate workingDirectory base = .ok place) :
    tree.locate workingDirectory (join base name) = .ok (place ++ [name]) := by
  obtain ⟨given, followed⟩ := locate_eq_ok_iff.mp leads
  obtain ⟨front, -, cut, joined⟩ := FilePath.exists_splitString_join named given
  have reached : tree.follow (if FilePath.isAbsolute base then [] else workingDirectory.reverse)
      front = .ok place.reverse := by
    rcases cut with whole | ended
    · rwa [whole] at followed
    · rw [ended] at followed
      obtain ⟨middle, before, last⟩ := follow_append_eq_ok_iff.mp followed
      obtain ⟨-, stays⟩ := follow_cons_eq_ok_iff.mp last
      obtain rfl : middle = place.reverse := by simpa [follow, step] using stays
      exact before
  have stepped : step place.reverse name = name :: place.reverse := by
    simp [step, named.ne_empty, named.ne_point, named.ne_points]
  refine locate_eq_ok_iff.mpr ⟨named.join_ne_empty base, ?_⟩
  rw [joined, FilePath.isAbsolute_join named given]
  refine follow_append_eq_ok_iff.mpr ⟨_, reached, ?_⟩
  rw [follow_cons_eq_ok_iff, List.reverse_reverse, stepped]
  exact ⟨directory, by simp [follow]⟩

theorem node?_append (tree : FileTree) (first second : List String) :
    tree.node? (first ++ second) = (tree.node? first).bind fun below => below.node? second := by
  induction first generalizing tree with
  | nil => rfl
  | cons name first ih =>
      rw [List.cons_append, node?, node?, Option.bind_assoc]
      congr 1
      funext below
      exact ih below

/-- The path that goes on from another through the names on the way to a node leads there. -/
theorem locate_descend (named : ∀ name ∈ names, IsName name)
    (leads : tree.locate workingDirectory root = .ok place)
    (there : tree.node? (place ++ names) = some node) :
    tree.locate workingDirectory (descend root names) = .ok (place ++ names) := by
  induction names generalizing root place with
  | nil => simpa using leads
  | cons name names ih =>
      have own := named name List.mem_cons_self
      have regroup : place ++ name :: names = place ++ [name] ++ names := by simp
      have directory : tree.IsDirectory place := by
        rw [node?_append] at there
        obtain ⟨start, found, onward⟩ := Option.bind_eq_some_iff.mp there
        cases start with
        | file content => simp [node?, child?] at onward
        | directory entries => exact ⟨entries, found⟩
      rw [regroup] at there ⊢
      exact ih (fun other later => named other (List.mem_cons_of_mem name later))
        (locate_join own directory leads) there

/-- What a walk calls a file can be read under the path that the walk makes. -/
theorem read_descend {content : List UInt8} (named : ∀ name ∈ names, IsName name)
    (found : tree.find? workingDirectory root = some start)
    (there : start.node? names = some (.file content)) :
    tree.read workingDirectory (descend root names) = .ok content := by
  unfold find? at found
  split at found
  · cases found
  next place leads =>
    have whole : tree.node? (place ++ names) = some (.file content) := by
      rw [node?_append, found]
      exact there
    rw [read, locate_descend named leads whole]
    simp only [whole]

end Reading

end ExpressLinks.FileTree
