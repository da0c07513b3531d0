import Mathlib.Data.List.Basic
import ExpressLinks.Proofs.FileTree.WellNamed

/-!
# What a walk comes by

A walk sorts the entries of every directory by name and goes through them depth first. In a
well-named tree it comes by every file, under the path that the names on the way make; and
the components of these paths grow from each file to the next. The order of the paths as
texts may be another: `a/z` is visited before `a-b`, although a hyphen comes before a slash.
-/

namespace ExpressLinks.FileTree

open FilePath (components descend join)

variable {tree : FileTree} {found : Found}

theorem listings_eq_map (entries : List (String × FileTree)) :
    listings entries = entries.map fun entry => (entry.1, entry.2.listing) := by
  induction entries with
  | nil => rfl
  | cons entry rest ih => rw [listings, List.map_cons, ih]

theorem entriesAt_eq_map (depth : Nat) (path : String) (entries : List (String × Listing)) :
    Listing.entriesAt depth path entries =
      entries.map fun entry => (entry.1, entry.2.filesAt depth (join path entry.1)) := by
  induction entries with
  | nil => rfl
  | cons entry rest ih => rw [Listing.entriesAt, List.map_cons, ih]

/-- The files of each entry of a directory, in the order of the walk. -/
def visits (depth : Nat) (path : String) (entries : List (String × FileTree)) :
    List (String × List Found) :=
  (entries.map fun entry => (entry.1, entry.2.listing.filesAt depth (join path entry.1))).mergeSort
    fun a b => !(b.1 < a.1)

theorem filesAt_directory (depth : Nat) (path : String) (entries : List (String × FileTree)) :
    (directory entries).listing.filesAt depth path =
      (visits (depth + 1) path entries).flatMap (·.2) := by
  rw [listing, Listing.filesAt, entriesAt_eq_map, listings_eq_map, List.map_map]
  rfl

theorem mem_visits {depth : Nat} {path : String} {entries : List (String × FileTree)}
    {visit : String × List Found} :
    visit ∈ visits depth path entries ↔
      ∃ entry ∈ entries, (entry.1, entry.2.listing.filesAt depth (join path entry.1)) = visit := by
  rw [visits, List.mem_mergeSort, List.mem_map]

/-- The entries are visited in the order of their names. -/
theorem pairwise_visits (depth : Nat) (path : String) {entries : List (String × FileTree)}
    (distinct : (entries.map Prod.fst).Nodup) :
    (visits depth path entries).Pairwise fun a b => a.1 < b.1 := by
  have sorted : (visits depth path entries).Pairwise fun a b => a.1 ≤ b.1 := by
    refine (List.pairwise_mergeSort ?_ ?_ _).imp ?_
    · intro a b c first second
      simp only [Bool.not_eq_true', decide_eq_false_iff_not, String.not_lt] at first second ⊢
      exact String.le_trans first second
    · intro a b
      simp only [Bool.or_eq_true, Bool.not_eq_true', decide_eq_false_iff_not, String.not_lt]
      exact String.le_total a.1 b.1
    · intro a b before
      simpa only [Bool.not_eq_true', decide_eq_false_iff_not, String.not_lt] using before
  have names : ((visits depth path entries).map Prod.fst).Nodup := by
    refine ((List.mergeSort_perm _ _).map Prod.fst).nodup_iff.mpr ?_
    rw [List.map_map]
    exact distinct
  refine sorted.imp₂ ?_ (List.pairwise_map.mp names)
  intro a b before different
  apply String.not_le.mp
  intro after
  exact different (String.le_antisymm before after)

/-- A walk comes by all files of the tree and by nothing else, under the paths that the names
    on the way make. -/
theorem WellNamed.mem_filesAt_iff (h : tree.WellNamed) {depth : Nat} {path : String} :
    found ∈ tree.listing.filesAt depth path ↔
      ∃ names content, tree.node? names = some (.file content) ∧
        found = ⟨descend path names, depth + names.length⟩ := by
  induction h generalizing depth path with
  | file content =>
      rw [listing, Listing.filesAt, List.mem_singleton]
      constructor
      · intro here
        exact ⟨[], content, rfl, here⟩
      · rintro ⟨names, other, there, rfl⟩
        cases names with
        | nil => rfl
        | cons name names => simp [node?, child?] at there
  | @directory entries distinct named inside ih =>
      rw [filesAt_directory, List.mem_flatMap]
      constructor
      · rintro ⟨visit, visited, member⟩
        obtain ⟨entry, listed, rfl⟩ := mem_visits.mp visited
        obtain ⟨names, content, there, rfl⟩ := (ih entry listed).mp member
        refine ⟨entry.1 :: names, content, ?_, ?_⟩
        · exact (node?_directory_cons distinct).mpr ⟨entry, listed, rfl, there⟩
        · rw [FilePath.descend_cons, List.length_cons, Nat.add_assoc, Nat.add_comm 1]
      · rintro ⟨names, content, there, rfl⟩
        cases names with
        | nil => simp [node?] at there
        | cons name names =>
            obtain ⟨entry, listed, rfl, onward⟩ := (node?_directory_cons distinct).mp there
            refine ⟨_, mem_visits.mpr ⟨entry, listed, rfl⟩, (ih entry listed).mpr ?_⟩
            refine ⟨names, content, onward, ?_⟩
            rw [FilePath.descend_cons, List.length_cons, Nat.add_assoc, Nat.add_comm 1]

/-- The components of the paths grow from each file of a walk to the next. -/
theorem WellNamed.pairwise_filesAt (h : tree.WellNamed) (depth : Nat) (path : String) :
    (tree.listing.filesAt depth path).Pairwise fun a b =>
      components a.path < components b.path := by
  induction h generalizing depth path with
  | file content =>
      rw [listing, Listing.filesAt]
      exact List.pairwise_singleton _ _
  | @directory entries distinct named inside ih =>
      rw [filesAt_directory, List.pairwise_flatMap]
      -- Files of one entry are in order already, files of two entries are told apart by the
      -- names of these: up to there the components are the same.
      have behind : ∀ visit ∈ visits (depth + 1) path entries, ∀ found ∈ visit.2,
          ∃ names, components found.path = components path ++ visit.1 :: names := by
        intro visit visited found member
        obtain ⟨entry, listed, rfl⟩ := mem_visits.mp visited
        obtain ⟨names, content, there, rfl⟩ := (inside entry listed).mem_filesAt_iff.mp member
        refine ⟨names, ?_⟩
        rw [FilePath.components_descend ((inside entry listed).isName_of_node? there),
          FilePath.components_join (named entry listed), List.append_assoc, List.singleton_append]
      constructor
      · intro visit visited
        obtain ⟨entry, listed, rfl⟩ := mem_visits.mp visited
        exact ih entry listed (depth + 1) (join path entry.1)
      · refine (pairwise_visits (depth + 1) path distinct).imp_of_mem ?_
        intro a b visitedA visitedB before x memberX y memberY
        obtain ⟨namesX, componentsX⟩ := behind a visitedA x memberX
        obtain ⟨namesY, componentsY⟩ := behind b visitedB y memberY
        rw [componentsX, componentsY]
        exact List.append_left_lt (List.cons_lt_cons_iff.mpr (.inl before))

end ExpressLinks.FileTree
