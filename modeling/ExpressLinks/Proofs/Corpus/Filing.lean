import ExpressLinks.Corpus
import ExpressLinks.Proofs.Naming

/-!
# How a corpus files its schemas

Every schema is filed under the folded spelling of its name, and no spelling is
used twice. Filing one more schema keeps both, so in a corpus built from a list
of schemas a name leads to the one schema of the list that bears it.
-/

namespace ExpressLinks.Corpus

/-- Each schema stands under the folded spelling of its name, each spelling once. -/
structure WellFiled (corpus : Corpus) : Prop where
  filed : ∀ entry ∈ corpus.entries, entry.1 = Ident.folded entry.2.id
  distinct : (corpus.entries.map (·.1)).Nodup

theorem wellFiled_empty : empty.WellFiled where
  filed := by simp [empty]
  distinct := by simp [empty]

/-- A name is free when no schema bears it. -/
theorem lookup?_eq_none_iff {corpus : Corpus} {name : String} :
    corpus.lookup? name = none ↔ ∀ entry ∈ corpus.entries, entry.1 ≠ Ident.folded name := by
  rw [lookup?, List.lookup_eq_none_iff]
  constructor
  · intro h entry member equal
    have := h entry member
    simp [equal] at this
  · intro h entry member
    simpa using Ne.symm (h entry member)

/-- Filing a schema under a free name keeps the filing in order. -/
theorem WellFiled.insert {corpus larger : Corpus} {schema : Schema} (h : corpus.WellFiled)
    (inserted : corpus.insert schema = .ok larger) :
    larger.WellFiled ∧ larger.schemas = corpus.schemas ++ [schema] := by
  unfold Corpus.insert at inserted
  cases found : corpus.lookup? schema.id with
  | some first => simp [found] at inserted
  | none =>
      simp only [found, Except.ok.injEq] at inserted
      subst larger
      have free := lookup?_eq_none_iff.mp found
      refine ⟨⟨?_, ?_⟩, by simp [schemas]⟩
      · intro entry member
        rcases List.mem_append.mp member with old | new
        · exact h.filed entry old
        · rw [List.mem_singleton.mp new]
      · rw [List.map_append, List.nodup_append]
        refine ⟨h.distinct, by simp, ?_⟩
        rintro spelling old other new rfl
        obtain ⟨entry, member, rfl⟩ := List.mem_map.mp old
        exact free entry member (by simpa using new)

theorem WellFiled.insertAll {schemas : List Schema} {corpus larger : Corpus} (h : corpus.WellFiled)
    (inserted : corpus.insertAll schemas = .ok larger) :
    larger.WellFiled ∧ larger.schemas = corpus.schemas ++ schemas := by
  induction schemas generalizing corpus with
  | nil =>
      obtain rfl : corpus = larger := Except.ok.inj inserted
      exact ⟨h, by simp⟩
  | cons schema rest ih =>
      rw [Corpus.insertAll] at inserted
      cases first : corpus.insert schema with
      | error error => simp [first] at inserted
      | ok middle =>
          simp only [first] at inserted
          obtain ⟨filed, added⟩ := h.insert first
          obtain ⟨wellFiled, schemas⟩ := ih filed inserted
          refine ⟨wellFiled, ?_⟩
          rw [schemas, added, List.append_assoc, List.singleton_append]

/-- A corpus built from a list is well filed and holds the list. -/
theorem ofSchemas_ok {schemas : List Schema} {corpus : Corpus}
    (built : ofSchemas schemas = .ok corpus) : corpus.WellFiled ∧ corpus.schemas = schemas := by
  obtain ⟨wellFiled, held⟩ := wellFiled_empty.insertAll built
  exact ⟨wellFiled, held.trans (List.nil_append schemas)⟩

/-- In a well filed corpus a name leads to the schema that bears it. -/
theorem WellFiled.lookup?_eq_some_iff {corpus : Corpus} {name : String} {schema : Schema}
    (h : corpus.WellFiled) :
    corpus.lookup? name = some schema ↔ schema ∈ corpus.schemas ∧ Ident.same schema.id name := by
  rw [lookup?, List.lookup_eq_some_iff, Ident.same_iff_folded_eq]
  constructor
  · rintro ⟨before, after, split, -⟩
    have member : (Ident.folded name, schema) ∈ corpus.entries := by
      rw [split]
      exact List.mem_append_right before List.mem_cons_self
    exact ⟨List.mem_map.mpr ⟨_, member, rfl⟩, (h.filed _ member).symm⟩
  · rintro ⟨member, same⟩
    obtain ⟨⟨spelling, filed⟩, found, rfl⟩ := List.mem_map.mp member
    have underName : spelling = Ident.folded name := (h.filed _ found).trans same
    subst underName
    obtain ⟨before, after, split⟩ := List.append_of_mem found
    refine ⟨before, after, split, ?_⟩
    intro entry earlier
    have distinct := h.distinct
    rw [split, List.map_append, List.nodup_append] at distinct
    have different := distinct.2.2 entry.1 (List.mem_map_of_mem earlier) (Ident.folded name)
      (by simp)
    simpa using Ne.symm different

/-- In a well filed corpus a name leads nowhere when no schema bears it. -/
theorem WellFiled.lookup?_eq_none_iff {corpus : Corpus} {name : String} (h : corpus.WellFiled) :
    corpus.lookup? name = none ↔ ∀ schema ∈ corpus.schemas, ¬ Ident.same schema.id name := by
  rw [Option.eq_none_iff_forall_ne_some]
  simp only [ne_eq, h.lookup?_eq_some_iff, not_and]

end ExpressLinks.Corpus
