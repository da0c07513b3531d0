import Mathlib.Data.String.Basic
import ExpressLinks.Command.Links
import ExpressLinks.Proofs.FileTree.Walk
import ExpressLinks.World

/-!
# Finding documents

The documents of a project are the files at or below a directory whose extension is asked
for. They are found by a walk and keep its order.
-/

namespace ExpressLinks

open FilePath (components descend)

/-- From a path, the names lead to a file. -/
def World.FileBelow (world : World) (root : String) (names : List String) : Prop :=
  ∃ start content, world.tree.find? world.workingDirectory root = some start ∧
    start.node? names = some (.file content)

variable {world : World} {config : Config} {root path : String} {names others : List String}

namespace World

theorem FileBelow.isName (below : world.FileBelow root names) (h : world.tree.WellNamed) :
    ∀ name ∈ names, FilePath.IsName name := by
  obtain ⟨start, content, found, there⟩ := below
  exact (h.of_find? found).isName_of_node? there

/-- A file below a path has a path of its own. -/
theorem FileBelow.eq_of_descend_eq (below : world.FileBelow root names)
    (below' : world.FileBelow root others) (h : world.tree.WellNamed)
    (same : descend root others = descend root names) : others = names :=
  (FilePath.descend_inj (below'.isName h) (below.isName h)).mp same

/-- What is below a path can be read there. -/
theorem FileBelow.read (below : world.FileBelow root names) (h : world.tree.WellNamed) :
    ∃ content, world.read (descend root names) = .ok content := by
  have named := below.isName h
  obtain ⟨start, content, found, there⟩ := below
  exact ⟨content, FileTree.read_descend named found there⟩

end World

theorem Config.isDocument_iff :
    config.isDocument path ↔ ∃ extension, FilePath.extension? path = some extension ∧
      ∃ wanted ∈ config.documentExtensions, Ident.same wanted extension := by
  simp [Config.isDocument, Option.any_eq_true]

namespace Command

theorem mem_findDocuments_iff (h : world.tree.WellNamed) :
    path ∈ findDocuments config root (world.list? root) ↔
      (∃ names, world.FileBelow root names ∧ descend root names = path) ∧
        config.isDocument path := by
  unfold World.list? World.FileBelow
  cases found : world.tree.find? world.workingDirectory root with
  | none => simp [findDocuments]
  | some start =>
      simp only [Option.map_some, findDocuments, List.mem_filter, List.mem_map, Listing.files,
        (h.of_find? found).mem_filesAt_iff]
      refine and_congr_left' ?_
      constructor
      · rintro ⟨-, ⟨names, content, there, rfl⟩, rfl⟩
        exact ⟨names, ⟨start, content, rfl, there⟩, rfl⟩
      · rintro ⟨names, ⟨other, content, same, there⟩, rfl⟩
        obtain rfl := Option.some.inj same
        exact ⟨_, ⟨names, content, there, rfl⟩, rfl⟩

theorem pairwise_findDocuments (config : Config) (root : String) (h : world.tree.WellNamed) :
    (findDocuments config root (world.list? root)).Pairwise fun a b =>
      components a < components b := by
  unfold World.list?
  cases found : world.tree.find? world.workingDirectory root with
  | none => exact List.Pairwise.nil
  | some start =>
      have walked := (h.of_find? found).pairwise_filesAt 0 root
      exact List.Pairwise.filter config.isDocument (List.pairwise_map.mpr walked)

/-- All documents that are found can be read. -/
theorem read_of_mem_findDocuments (h : world.tree.WellNamed)
    (member : path ∈ findDocuments config root (world.list? root)) :
    ∃ content, world.read path = .ok content := by
  obtain ⟨⟨names, below, rfl⟩, -⟩ := (mem_findDocuments_iff h).mp member
  exact below.read h

/-- What is found are the files at or below the root whose extension is asked for, letter case
    aside. Each of them is found once, and their components grow from one to the next. -/
theorem findDocuments_each_once_in_order (config : Config) (world : World) (root : String)
    (h : world.tree.WellNamed) :
    let found := findDocuments config root (world.list? root)
    (∀ path, path ∈ found ↔
      (∃! names, world.FileBelow root names ∧ descend root names = path) ∧
        ∃ extension, FilePath.extension? path = some extension ∧
          ∃ wanted ∈ config.documentExtensions, Ident.same wanted extension) ∧
    found.Nodup ∧
    found.Pairwise fun a b => components a < components b := by
  intro found
  have ordered := pairwise_findDocuments config root h
  refine ⟨?_, ?_, ordered⟩
  · intro path
    rw [mem_findDocuments_iff h, Config.isDocument_iff]
    refine and_congr_left' ⟨?_, ExistsUnique.exists⟩
    rintro ⟨names, below, rfl⟩
    refine ⟨names, ⟨below, rfl⟩, ?_⟩
    rintro others ⟨below', same⟩
    exact below.eq_of_descend_eq below' h same
  · refine ordered.imp ?_
    intro a b before same
    rw [same] at before
    exact List.lt_irrefl _ before

/-- The files of `a` come before `a-b` and `a.adoc`, although a slash comes after a hyphen and
    a point. A directory is no document, whatever its name, and a name that begins with its
    only point has no extension. -/
theorem findDocuments_each_once_in_order_of_related_names :
    let world : World :=
      { tree := .directory [("docs", .directory
          [("a.adoc", .file []), (".adoc", .file []),
           ("old.adoc", .directory [("b.adoc", .file [])]),
           ("a-b", .directory [("c.adoc", .file [])]),
           ("a", .directory [("z.ADOC", .file []), ("z.txt", .file [])])])] }
    let found := findDocuments {} "docs" (world.list? "docs")
    world.tree.WellNamed ∧
    found = ["docs/a/z.ADOC", "docs/a-b/c.adoc", "docs/a.adoc", "docs/old.adoc/b.adoc"] ∧
    found.Nodup ∧
    found.Pairwise (fun a b => components a < components b) ∧
    "docs/a.adoc" < "docs/a/z.ADOC" := by
  intro world found
  have named : world.tree.WellNamed := by
    have names : ∀ name ∈ ["docs", "a.adoc", ".adoc", "old.adoc", "b.adoc", "a-b", "c.adoc", "a",
        "z.ADOC", "z.txt"], FilePath.IsName name := by decide +kernel
    simp only [List.forall_mem_cons] at names
    simp [world, names]
  obtain ⟨-, once, ordered⟩ := findDocuments_each_once_in_order {} world "docs" named
  refine ⟨named, ?_, once, ordered, by decide⟩
  have walked : (world.list? "docs").map (Listing.files "docs") = some
      [⟨"docs/.adoc", 1⟩, ⟨"docs/a/z.ADOC", 2⟩, ⟨"docs/a/z.txt", 2⟩, ⟨"docs/a-b/c.adoc", 2⟩,
       ⟨"docs/a.adoc", 1⟩, ⟨"docs/old.adoc/b.adoc", 2⟩] := by
    have there : world.list? "docs" = some (.directory
        [("a.adoc", .file), (".adoc", .file), ("old.adoc", .directory [("b.adoc", .file)]),
         ("a-b", .directory [("c.adoc", .file)]),
         ("a", .directory [("z.ADOC", .file), ("z.txt", .file)])]) := by rfl
    rw [there]
    simp [Listing.files, Listing.filesAt, Listing.entriesAt, List.mergeSort,
      List.MergeSort.Internal.splitInTwo, FilePath.join, FilePath.isAbsolute, -String.lt_iff_ltb]
  obtain ⟨listing, listed, files⟩ := Option.map_eq_some_iff.mp walked
  have kept : found = ((listing.files "docs").map Found.path).filter (Config.isDocument {}) := by
    simp only [found, listed, findDocuments]
  rw [kept, files]
  decide +kernel

end Command

end ExpressLinks
