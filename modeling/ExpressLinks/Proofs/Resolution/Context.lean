import ExpressLinks.Proofs.Corpus.Distinct
import ExpressLinks.Proofs.Resolution.Failing

/-!
# What a resolution depends on

A path is resolved in the schema that its first segment names, and that schema is the
only one of the corpus which bears the name. So the order of the schemas does not matter,
and neither do schemas of other names: added ones change the outcome only where the
schema was missing and one of them is that schema.
-/

namespace ExpressLinks

namespace Schema

variable {schemas permuted before after : List Schema} {old new : Schema}

theorem distinctNames_perm (same : permuted.Perm schemas) :
    DistinctNames permuted ↔ DistinctNames schemas := by
  rw [distinctNames_iff_nodup, distinctNames_iff_nodup]
  exact (same.map _).nodup_iff

/-- A schema in place of another of the same name keeps all names different. -/
theorem distinctNames_replace (same : Ident.same new.id old.id) :
    DistinctNames (before ++ new :: after) ↔ DistinctNames (before ++ old :: after) := by
  rw [Ident.same_iff_folded_eq] at same
  simp only [distinctNames_iff_nodup, List.map_append, List.map_cons, same]

/-- Replacing a schema changes nothing among the schemas of other names. -/
theorem mem_replace_iff {schema : Schema} {name : String} (same : Ident.same new.id old.id)
    (other : ¬ Ident.same old.id name) (named : Ident.same schema.id name) :
    schema ∈ before ++ new :: after ↔ schema ∈ before ++ old :: after := by
  have notNew : schema ≠ new := by
    rintro rfl
    exact other (Ident.same_trans (Ident.same_symm same) named)
  have notOld : schema ≠ old := by
    rintro rfl
    exact other named
  simp [notNew, notOld]

end Schema

namespace Corpus

open Schema (DistinctNames)

/-- The name of the schema in which a path is resolved. -/
def schemaName (path : String) : String := (pathSegments path).headD ""

variable {corpus other : Corpus} {schemas : List Schema} {path name : String}

/-- Two corpora in which the first segment leads to the same schema agree on a path. -/
theorem resolve_congr (same : other.lookup? (schemaName path) = corpus.lookup? (schemaName path)) :
    other.resolve path = corpus.resolve path := by
  unfold schemaName at same
  unfold resolve
  cases segments : pathSegments path with
  | nil => rfl
  | cons first rest =>
      rw [segments, List.headD_cons] at same
      rw [resolveSegments, resolveSegments, same]

/-- A name leads to the same schema in two corpora whose schemas of that name are the
    same. -/
theorem WellFiled.lookup?_congr (h : corpus.WellFiled) (h' : other.WellFiled)
    (same : ∀ schema, Ident.same schema.id name →
      (schema ∈ other.schemas ↔ schema ∈ corpus.schemas)) :
    other.lookup? name = corpus.lookup? name := by
  apply Option.ext
  intro schema
  rw [h.lookup?_eq_some_iff, h'.lookup?_eq_some_iff]
  exact and_congr_left (same schema)

/-- A path fails for want of a schema exactly when its first segment leads to none. -/
theorem WellFiled.resolve_eq_schemaNotFound_iff (h : corpus.WellFiled) :
    corpus.resolve path = .unresolved 0 (.schemaNotFound (schemaName path)) ↔
      corpus.lookup? (schemaName path) = none := by
  rw [resolve, h.resolveSegments_eq_unresolved_iff, h.lookup?_eq_none_iff, schemaName]
  constructor
  · intro fails
    cases segments : pathSegments path with
    | nil => exact absurd segments (pathSegments_ne_nil path)
    | cons first rest =>
        rw [segments] at fails
        cases fails with
        | schema missing => exact missing
        | member held same nonempty first fails => cases fails
  · intro missing
    cases segments : pathSegments path with
    | nil => exact absurd segments (pathSegments_ne_nil path)
    | cons first rest =>
        rw [segments] at missing
        exact .schema missing

/-- The order of the schemas does not matter. -/
theorem exists_ofSchemas_perm {permuted : List Schema} (built : ofSchemas schemas = .ok corpus)
    (same : permuted.Perm schemas) :
    ∃ other, ofSchemas permuted = .ok other ∧ ∀ path, other.resolve path = corpus.resolve path := by
  obtain ⟨filed, rfl⟩ := ofSchemas_ok built
  obtain ⟨other, built'⟩ :=
    exists_ofSchemas_iff.mpr ((Schema.distinctNames_perm same).mpr filed.distinctNames)
  obtain ⟨filed', held⟩ := ofSchemas_ok built'
  refine ⟨other, built', ?_⟩
  intro path
  apply resolve_congr
  apply filed.lookup?_congr filed'
  intro schema _
  rw [held, same.mem_iff]

/-- Added schemas change the outcome for a path exactly where its schema was missing and is
    among them. -/
theorem resolve_extended_ne_iff {added extended : List Schema} {larger : Corpus}
    (built : ofSchemas schemas = .ok corpus) (same : extended.Perm (schemas ++ added))
    (accepted : ofSchemas extended = .ok larger) (path : String) :
    larger.resolve path ≠ corpus.resolve path ↔
      corpus.resolve path = .unresolved 0 (.schemaNotFound (schemaName path)) ∧
        ∃ schema ∈ added, Ident.same schema.id (schemaName path) := by
  obtain ⟨filed, rfl⟩ := ofSchemas_ok built
  obtain ⟨filed', rfl⟩ := ofSchemas_ok accepted
  have distinct := (Schema.distinctNames_perm same).mp filed'.distinctNames
  have apart := (List.pairwise_append.mp distinct).2.2
  rw [filed.resolve_eq_schemaNotFound_iff]
  constructor
  · intro different
    have added_named : ∃ schema ∈ added, Ident.same schema.id (schemaName path) := by
      by_contra none_named
      push Not at none_named
      apply different
      apply resolve_congr
      apply filed.lookup?_congr filed'
      intro schema named
      rw [same.mem_iff, List.mem_append]
      exact or_iff_left fun new => none_named schema new named
    refine ⟨filed.lookup?_eq_none_iff.mpr ?_, added_named⟩
    obtain ⟨added_schema, new, named⟩ := added_named
    intro schema held bears
    exact apart schema held added_schema new (Ident.same_trans bears (Ident.same_symm named))
  · rintro ⟨missing, schema, new, named⟩ equal
    rw [← filed.resolve_eq_schemaNotFound_iff, ← equal, filed'.resolve_eq_schemaNotFound_iff,
      filed'.lookup?_eq_none_iff] at missing
    exact missing schema (same.mem_iff.mpr (List.mem_append_right _ new)) named

/-- A schema that replaces one of the same name matters to the paths of that name only. -/
theorem exists_ofSchemas_replace {before after : List Schema} {old new : Schema}
    (built : ofSchemas (before ++ old :: after) = .ok corpus) (same : Ident.same new.id old.id) :
    ∃ other, ofSchemas (before ++ new :: after) = .ok other ∧
      ∀ path, ¬ Ident.same old.id (schemaName path) → other.resolve path = corpus.resolve path := by
  obtain ⟨filed, held⟩ := ofSchemas_ok built
  have distinct := exists_ofSchemas_iff.mp ⟨corpus, built⟩
  obtain ⟨other, built'⟩ :=
    exists_ofSchemas_iff.mpr ((Schema.distinctNames_replace same).mpr distinct)
  obtain ⟨filed', held'⟩ := ofSchemas_ok built'
  refine ⟨other, built', ?_⟩
  intro path otherName
  apply resolve_congr
  apply filed.lookup?_congr filed'
  intro schema named
  rw [held, held']
  exact Schema.mem_replace_iff same otherName named

/-- The outcome for a path depends on the schema that its first segment names and on no
    other. The schemas may stand in any order. Where schemas are added, in any places, the
    outcome changes exactly for the paths whose schema was missing and is among them. And
    a schema may be replaced by another of the same name without changing anything for
    paths of other schemas. -/
theorem resolve_depends_on_named_schema (built : ofSchemas schemas = .ok corpus) :
    (∀ permuted : List Schema, permuted.Perm schemas →
      ∃ other, ofSchemas permuted = .ok other ∧
        ∀ path, other.resolve path = corpus.resolve path) ∧
    (∀ (added extended : List Schema) (larger : Corpus), extended.Perm (schemas ++ added) →
      ofSchemas extended = .ok larger →
      ∀ path, larger.resolve path ≠ corpus.resolve path ↔
        corpus.resolve path = .unresolved 0 (.schemaNotFound (schemaName path)) ∧
          ∃ schema ∈ added, Ident.same schema.id (schemaName path)) ∧
    (∀ (before after : List Schema) (old new : Schema), schemas = before ++ old :: after →
      Ident.same new.id old.id →
      ∃ other, ofSchemas (before ++ new :: after) = .ok other ∧
        ∀ path, ¬ Ident.same old.id (schemaName path) →
          other.resolve path = corpus.resolve path) := by
  refine ⟨fun permuted => exists_ofSchemas_perm built, ?_, ?_⟩
  · intro added extended larger same accepted
    exact resolve_extended_ne_iff built same accepted
  · rintro before after old new rfl same
    exact exists_ofSchemas_replace built same

/-- Two schemas change places, one gets other declarations, and a third comes between
    them: only the paths of the last two are affected. -/
theorem resolve_depends_on_named_schema_two_schemas :
    let plant : Schema := { id := "Plant", types := [⟨"Mode", none, some ["ON"]⟩] }
    let cell : Schema := { id := "Cell" }
    let richer : Schema := { id := "CELL", entities := [⟨"Wall", [], []⟩] }
    let tank : Schema := { id := "Tank" }
    ∃ corpus swapped larger replaced, ofSchemas [plant, cell] = .ok corpus ∧
      ofSchemas [cell, plant] = .ok swapped ∧ ofSchemas [plant, tank, cell] = .ok larger ∧
      ofSchemas [plant, richer] = .ok replaced ∧
      corpus.resolve "plant.mode.on" = .resolved ∧
      swapped.resolve "plant.mode.on" = .resolved ∧
      larger.resolve "plant.mode.on" = .resolved ∧
      replaced.resolve "plant.mode.on" = .resolved ∧
      larger.resolve "tank" ≠ corpus.resolve "tank" ∧
      replaced.resolve "cell.wall" ≠ corpus.resolve "cell.wall" := by
  intro plant cell richer tank
  have built : ofSchemas [plant, cell] =
      .ok ⟨[(Ident.folded "Plant", plant), (Ident.folded "Cell", cell)]⟩ := by decide
  have accepted : ofSchemas [plant, tank, cell] =
      .ok ⟨[(Ident.folded "Plant", plant), (Ident.folded "Tank", tank),
        (Ident.folded "Cell", cell)]⟩ := by
    decide
  obtain ⟨permuted, extended, replaced⟩ := resolve_depends_on_named_schema built
  obtain ⟨swapped, built', agrees⟩ := permuted [cell, plant] (List.Perm.swap _ _ _)
  have places : [plant, tank, cell].Perm ([plant, cell] ++ [tank]) :=
    (List.Perm.swap _ _ _).cons plant
  have changes := extended [tank] _ _ places accepted
  obtain ⟨other, built'', unmoved⟩ := replaced [plant] [] cell richer rfl (by decide)
  have resolves : Corpus.resolve
      ⟨[(Ident.folded "Plant", plant), (Ident.folded "Cell", cell)]⟩ "plant.mode.on" =
        .resolved := by decide
  refine ⟨_, swapped, _, other, built, built', accepted, built'', resolves, ?_, ?_, ?_, ?_, ?_⟩
  · exact (agrees _).trans resolves
  · exact (not_ne_iff.mp (mt (changes "plant.mode.on").mp (by decide))).trans resolves
  · exact (unmoved "plant.mode.on" (by decide)).trans resolves
  · exact (changes "tank").mpr (by decide)
  · have entries : ofSchemas [plant, richer] =
        .ok ⟨[(Ident.folded "Plant", plant), (Ident.folded "CELL", richer)]⟩ := by decide
    rw [List.singleton_append, entries, Except.ok.injEq] at built''
    rw [← built'']
    decide

end Corpus

end ExpressLinks
