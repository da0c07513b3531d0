import ExpressLinks.Proofs.Corpus.Filing

/-!
# Which schemas make a corpus

A list of schemas makes a corpus exactly when no two of them have the same name. A
name then leads to the one schema of the list that bears it, as a search through the
list would. Where a name is repeated, the error shows the first schema that repeats
one, and the one before it whose name it repeats.
-/

namespace ExpressLinks

namespace Schema

/-- No two schemas have the same name. -/
def DistinctNames (schemas : List Schema) : Prop :=
  schemas.Pairwise fun earlier later => ¬ Ident.same earlier.id later.id

/-- The schemas that bear a name. -/
def bearers (schemas : List Schema) (name : String) : List Schema :=
  schemas.filter fun schema => Ident.same schema.id name

/-- `second` is the first schema of the list to repeat a name, and `first` is the one
    before it that bears the name already. -/
def FirstRepeat (schemas : List Schema) (first second : Schema) : Prop :=
  ∃ before after, schemas = before ++ second :: after ∧ DistinctNames before ∧
    bearers before second.id = [first]

theorem mem_bearers_iff {schemas : List Schema} {name : String} {schema : Schema} :
    schema ∈ bearers schemas name ↔ schema ∈ schemas ∧ Ident.same schema.id name := by
  rw [bearers, List.mem_filter]

theorem distinctNames_iff_nodup {schemas : List Schema} :
    DistinctNames schemas ↔ (schemas.map fun schema => Ident.folded schema.id).Nodup := by
  simp only [DistinctNames, Ident.same_iff_folded_eq, List.Nodup, List.pairwise_map, ne_eq]

/-- Of schemas with different names only one bears a name that one of them bears. -/
theorem DistinctNames.bearers_eq_singleton_iff {schemas : List Schema} {name : String}
    {schema : Schema} (distinct : DistinctNames schemas) :
    bearers schemas name = [schema] ↔ schema ∈ schemas ∧ Ident.same schema.id name := by
  rw [← mem_bearers_iff]
  constructor
  · intro alone
    rw [alone]
    exact List.mem_singleton_self schema
  · intro member
    have different : DistinctNames (bearers schemas name) := distinct.filter _
    cases found : bearers schemas name with
    | nil =>
        rw [found] at member
        exact absurd member List.not_mem_nil
    | cons first others =>
        cases others with
        | nil =>
            rw [found] at member
            rw [List.mem_singleton.mp member]
        | cons second others =>
            exfalso
            rw [found] at different
            have apart : ¬ Ident.same first.id second.id :=
              (List.pairwise_cons.mp different).1 second List.mem_cons_self
            have firstBears : Ident.same first.id name :=
              (mem_bearers_iff.mp (found ▸ List.mem_cons_self)).2
            have secondBears : Ident.same second.id name :=
              (mem_bearers_iff.mp (found ▸ List.mem_cons_of_mem _ List.mem_cons_self)).2
            exact apart (Ident.same_trans firstBears (Ident.same_symm secondBears))

/-- A schema further on keeps all names different if no schema bears its own yet. -/
theorem distinctNames_append_cons_iff {before after : List Schema} {schema : Schema} :
    DistinctNames (before ++ schema :: after) ↔
      bearers before schema.id = [] ∧ DistinctNames ((before ++ [schema]) ++ after) := by
  rw [List.append_assoc, List.singleton_append]
  constructor
  · intro distinct
    refine ⟨?_, distinct⟩
    have apart := (List.pairwise_append.mp distinct).2.2
    rw [bearers, List.filter_eq_nil_iff]
    intro earlier member
    exact apart earlier member schema List.mem_cons_self
  · exact And.right

end Schema

namespace Corpus

open Schema (DistinctNames bearers FirstRepeat)

variable {corpus larger : Corpus} {schemas : List Schema} {schema : Schema} {name : String}

theorem WellFiled.distinctNames (h : corpus.WellFiled) : DistinctNames corpus.schemas := by
  rw [Schema.distinctNames_iff_nodup]
  have spellings : corpus.schemas.map (fun schema => Ident.folded schema.id) =
      corpus.entries.map (·.1) := by
    rw [schemas, List.map_map]
    exact List.map_congr_left fun entry member => (h.filed entry member).symm
  rw [spellings]
  exact h.distinct

theorem WellFiled.lookup?_eq_some_iff_bearers (h : corpus.WellFiled) :
    corpus.lookup? name = some schema ↔ bearers corpus.schemas name = [schema] := by
  rw [h.lookup?_eq_some_iff, h.distinctNames.bearers_eq_singleton_iff]

/-- Looking a name up finds what a search through the schemas finds. -/
theorem WellFiled.lookup?_eq_find? (h : corpus.WellFiled) :
    corpus.lookup? name = corpus.schemas.find? fun schema => Ident.same schema.id name := by
  rw [← List.head?_filter]
  cases looked : corpus.lookup? name with
  | none =>
      have free := h.lookup?_eq_none_iff.mp looked
      have nobody : bearers corpus.schemas name = [] := List.filter_eq_nil_iff.mpr free
      rw [← bearers, nobody, List.head?_nil]
  | some schema =>
      have alone := h.lookup?_eq_some_iff_bearers.mp looked
      rw [← bearers, alone, List.head?_cons]

/-- A schema can be filed when no schema bears its name, and is refused for the one that
    does. -/
theorem WellFiled.insert_cases (h : corpus.WellFiled) (schema : Schema) :
    (bearers corpus.schemas schema.id = [] ∧ ∃ larger, corpus.insert schema = .ok larger) ∨
      ∃ first, bearers corpus.schemas schema.id = [first] ∧
        corpus.insert schema = .error (.duplicate first.id schema.id) := by
  cases looked : corpus.lookup? schema.id with
  | none =>
      left
      have free := h.lookup?_eq_none_iff.mp looked
      exact ⟨List.filter_eq_nil_iff.mpr free, _, by rw [Corpus.insert, looked]⟩
  | some first =>
      right
      exact ⟨first, h.lookup?_eq_some_iff_bearers.mp looked, by rw [Corpus.insert, looked]⟩

/-- All schemas can be filed exactly when their names differ from those in the corpus and
    from one another. -/
theorem WellFiled.exists_insertAll_iff (h : corpus.WellFiled) :
    (∃ larger, corpus.insertAll schemas = .ok larger) ↔
      DistinctNames (corpus.schemas ++ schemas) := by
  -- the corpus grows by what is filed, so the whole list of names stays the same
  induction schemas generalizing corpus with
  | nil =>
      rw [List.append_nil]
      exact ⟨fun _ => h.distinctNames, fun _ => ⟨corpus, rfl⟩⟩
  | cons schema rest ih =>
      rw [Schema.distinctNames_append_cons_iff, Corpus.insertAll]
      rcases h.insert_cases schema with ⟨free, middle, inserted⟩ | ⟨first, taken, refused⟩
      · obtain ⟨filed, added⟩ := h.insert inserted
        simp only [inserted, free, true_and]
        rw [ih filed, added]
      · simp [refused, taken]

/-- Filing stops at the first schema whose name is taken. -/
theorem WellFiled.exists_repeat_of_insertAll (h : corpus.WellFiled) {error : CorpusError}
    (failed : corpus.insertAll schemas = .error error) :
    ∃ before second after first, schemas = before ++ second :: after ∧
      DistinctNames (corpus.schemas ++ before) ∧
      bearers (corpus.schemas ++ before) second.id = [first] ∧
      error = .duplicate first.id second.id := by
  induction schemas generalizing corpus with
  | nil => simp [Corpus.insertAll] at failed
  | cons schema rest ih =>
      rw [Corpus.insertAll] at failed
      rcases h.insert_cases schema with ⟨-, middle, inserted⟩ | ⟨first, taken, refused⟩
      · simp only [inserted] at failed
        obtain ⟨filed, added⟩ := h.insert inserted
        obtain ⟨before, second, after, first, rfl, distinct, alone, rfl⟩ := ih filed failed
        rw [added, List.append_assoc, List.singleton_append] at distinct alone
        exact ⟨schema :: before, second, after, first, rfl, distinct, alone, rfl⟩
      · simp only [refused, Except.error.injEq] at failed
        refine ⟨[], schema, rest, first, rfl, ?_, ?_, failed.symm⟩
        · rw [List.append_nil]
          exact h.distinctNames
        · rw [List.append_nil]
          exact taken

theorem insertAll_append (before after : List Schema)
    (inserted : corpus.insertAll before = .ok larger) :
    corpus.insertAll (before ++ after) = larger.insertAll after := by
  induction before generalizing corpus with
  | nil =>
      obtain rfl : corpus = larger := Except.ok.inj inserted
      rfl
  | cons schema rest ih =>
      rw [insertAll] at inserted
      rw [List.cons_append, insertAll]
      cases first : corpus.insert schema with
      | error error => simp [first] at inserted
      | ok middle =>
          simp only [first] at inserted ⊢
          exact ih inserted

theorem exists_ofSchemas_iff : (∃ corpus, ofSchemas schemas = .ok corpus) ↔
    DistinctNames schemas := by
  rw [ofSchemas, wellFiled_empty.exists_insertAll_iff]
  rfl

/-- A corpus is refused for the first repeated name, and shows both schemas that bear it. -/
theorem ofSchemas_eq_error_iff {error : CorpusError} :
    ofSchemas schemas = .error error ↔
      ∃ first second, FirstRepeat schemas first second ∧
        error = .duplicate first.id second.id := by
  constructor
  · intro failed
    obtain ⟨before, second, after, first, split, distinct, alone, rfl⟩ :=
      wellFiled_empty.exists_repeat_of_insertAll failed
    exact ⟨first, second, ⟨before, after, split, distinct, alone⟩, rfl⟩
  · rintro ⟨first, second, ⟨before, after, rfl, distinct, alone⟩, rfl⟩
    obtain ⟨middle, built⟩ := exists_ofSchemas_iff.mpr distinct
    obtain ⟨filed, held⟩ := ofSchemas_ok built
    have taken : middle.lookup? second.id = some first := by
      rw [filed.lookup?_eq_some_iff_bearers, held, alone]
    rw [ofSchemas, insertAll_append before (second :: after) built, insertAll, insert, taken]

/-- A list of schemas makes a corpus exactly when no two of them have the same name. The
    corpus keeps the schemas in order, and a name leads to a schema exactly when it is
    the only one that bears the name; a search through the list finds the same. There is
    no corpus exactly for the first schema that repeats a name, which is reported
    together with the only schema before it that bears the name. -/
theorem ofSchemas_ok_iff_distinct_or_first_repeat (schemas : List Schema) :
    ((∃ corpus, ofSchemas schemas = .ok corpus) ↔ DistinctNames schemas) ∧
      (∀ corpus, ofSchemas schemas = .ok corpus →
        corpus.schemas = schemas ∧
        (∀ name schema, corpus.lookup? name = some schema ↔ bearers schemas name = [schema]) ∧
        ∀ name, corpus.lookup? name =
          schemas.find? fun schema => Ident.same schema.id name) ∧
      ∀ error, ofSchemas schemas = .error error ↔
        ∃ first second, FirstRepeat schemas first second ∧
          error = .duplicate first.id second.id := by
  refine ⟨exists_ofSchemas_iff, ?_, fun error => ofSchemas_eq_error_iff⟩
  intro corpus built
  obtain ⟨filed, rfl⟩ := ofSchemas_ok built
  exact ⟨rfl, fun name schema => filed.lookup?_eq_some_iff_bearers,
    fun name => filed.lookup?_eq_find?⟩

/-- Accented letters keep their case, so two such names differ; and of two repeated names
    the one that is repeated first is reported. -/
theorem ofSchemas_ok_accented_and_error_repeated :
    let plant : Schema := { id := "Plant" }
    let state : Schema := { id := "État" }
    let other : Schema := { id := "état" }
    let again : Schema := { id := "ÉTAT" }
    (∃ corpus, ofSchemas [plant, state, other] = .ok corpus ∧
      corpus.schemas = [plant, state, other] ∧ corpus.lookup? "éTAT" = some other) ∧
    DistinctNames [plant, state, other] ∧
    ofSchemas [plant, state, again, { id := "PLANT" }] = .error (.duplicate "État" "ÉTAT") := by
  intro plant state other again
  have distinct : DistinctNames [plant, state, other] := by
    unfold DistinctNames
    decide
  have before : DistinctNames [plant, state] := distinct.sublist (by simp)
  obtain ⟨succeeds, holds, -⟩ := ofSchemas_ok_iff_distinct_or_first_repeat [plant, state, other]
  obtain ⟨-, -, fails⟩ :=
    ofSchemas_ok_iff_distinct_or_first_repeat [plant, state, again, { id := "PLANT" }]
  obtain ⟨corpus, built⟩ := succeeds.mpr distinct
  obtain ⟨kept, leads, -⟩ := holds corpus built
  refine ⟨⟨corpus, built, kept, (leads _ _).mpr (by decide)⟩, distinct, ?_⟩
  exact (fails _).mpr ⟨state, again, ⟨[plant, state], _, rfl, before, by decide⟩, rfl⟩

end Corpus

end ExpressLinks
