import ExpressLinks.Proofs.Resolution.Resolvable
import ExpressLinks.Proofs.Text.Pieces
import ExpressLinks.Schema.Document

/-!
# Empty segments

An empty second segment refers to nothing. The first and the third are looked up like any
other name, so an empty one refers to what is declared with an empty name, if there is
such a schema, or such a member below a declaration that a path can spell out. Paths with
an empty segment fail in every corpus without these, and in no other.
-/

namespace ExpressLinks

/-- What an empty segment can refer to: a schema without a name, or a member without a
    name. The declaration of the member has a name, is the first of it, and no dots keep a
    path from spelling out the way to it. -/
inductive DeclaresNameless (schemas : List Schema) : Prop
  | schema {schema : Schema} : schema ∈ schemas → schema.id = "" → DeclaresNameless schemas
  | member {schema : Schema} {element : Element} :
      schema ∈ schemas → '.' ∉ schema.id.toList → element.id ≠ "" → '.' ∉ element.id.toList →
      FirstNamed Element.id element.id schema.elements element →
      schema.HasMember element "" → DeclaresNameless schemas

variable {schemas : List Schema}

/-- Names of a path refer to something, one of them empty, only where something without a
    name is declared. -/
theorem Refers.declaresNameless {segments : List String} (refers : Refers schemas segments)
    (dotless : ∀ name ∈ segments, '.' ∉ name.toList) (empty : "" ∈ segments) :
    DeclaresNameless schemas := by
  have kept {declared written : String} (same : Ident.same declared written)
      (free : '.' ∉ written.toList) : '.' ∉ declared.toList :=
    mt (Ident.mem_toList_iff_of_same (by decide) same).mp free
  have nameless {schema : Schema} (held : schema ∈ schemas) (same : Ident.same schema.id "") :
      DeclaresNameless schemas := .schema held (Ident.same_empty_iff.mp same)
  cases refers with
  | schema held same =>
      obtain rfl := List.mem_singleton.mp empty
      exact nameless held same
  | element held same nonempty _ _ =>
      rcases List.mem_cons.mp empty with rfl | second
      · exact nameless held same
      · exact absurd (List.mem_singleton.mp second).symm nonempty
  | @member schema element schemaName elementName memberName held same nonempty first member =>
      simp only [List.forall_mem_cons] at dotless
      obtain ⟨schemaDotless, elementDotless, -⟩ := dotless
      rcases List.mem_cons.mp empty with rfl | later
      · exact nameless held same
      · rcases List.mem_cons.mp later with rfl | third
        · exact absurd rfl nonempty
        · obtain rfl := List.mem_singleton.mp third
          have named : element.id ≠ "" := by
            intro unnamed
            have borne := first.same
            rw [unnamed, Ident.same_iff_folded_eq] at borne
            exact nonempty (Ident.folded_eq_empty_iff.mp borne.symm)
          exact .member held (kept same schemaDotless) named (kept first.same elementDotless)
            first.own member

/-- The way to what is declared without a name is a path with an empty segment. -/
theorem DeclaresNameless.exists_refers (nameless : DeclaresNameless schemas) :
    ∃ path, "" ∈ Corpus.pathSegments path ∧ Refers schemas (Corpus.pathSegments path) := by
  cases nameless with
  | schema held unnamed => exact ⟨"", by decide, .schema held (Ident.same_empty_iff.mpr unnamed)⟩
  | @member schema element held schemaDotless named elementDotless first member =>
      have segments :
          Corpus.pathSegments (Text.joinStrings '.' [schema.id, element.id, ""]) =
            [schema.id, element.id, ""] :=
        Text.splitString_joinStrings (by simp) (by simp [schemaDotless, elementDotless])
      refine ⟨Text.joinStrings '.' [schema.id, element.id, ""], by simp [segments], ?_⟩
      rw [segments]
      exact .member held (Ident.same_refl schema.id) named first member

namespace Corpus

variable {corpus : Corpus}

/-- In the corpus of a list of schemas every path with an empty segment fails exactly when
    nothing that such a path can name is declared without a name. A path whose second
    segment is empty fails in every corpus, at that segment or before it. -/
theorem resolve_empty_segment_iff_not_declaresNameless
    (built : Corpus.ofSchemas schemas = .ok corpus) :
    ((∀ path, "" ∈ pathSegments path →
        ∃ segment reason, corpus.resolve path = .unresolved segment reason) ↔
      ¬ DeclaresNameless schemas) ∧
    ∀ path, (pathSegments path)[1]? = some "" →
      ∃ segment reason, segment ≤ 1 ∧ corpus.resolve path = .unresolved segment reason := by
  obtain ⟨wellFiled, rfl⟩ := ofSchemas_ok built
  have resolved_iff (path : String) :
      corpus.resolve path = .resolved ↔ Refers corpus.schemas (pathSegments path) :=
    wellFiled.resolveSegments_eq_resolved_iff (pathSegments_ne_nil path)
  refine ⟨⟨?_, ?_⟩, ?_⟩
  · intro every nameless
    obtain ⟨path, empty, refers⟩ := nameless.exists_refers
    obtain ⟨segment, reason, unresolved⟩ := every path empty
    rw [(resolved_iff path).mpr refers] at unresolved
    cases unresolved
  · intro named path empty
    cases outcome : corpus.resolve path with
    | unresolved segment reason => exact ⟨segment, reason, rfl⟩
    | resolved =>
        have dotless : ∀ name ∈ pathSegments path, '.' ∉ name.toList :=
          fun name => Text.not_mem_of_mem_splitString
        exact absurd (((resolved_iff path).mp outcome).declaresNameless dotless empty) named
  · intro path second
    obtain ⟨schemaName, rest, split⟩ := List.exists_cons_of_ne_nil (pathSegments_ne_nil path)
    cases rest with
    | nil => simp [split] at second
    | cons name members =>
        obtain rfl : name = "" := by simpa [split] using second
        rw [resolve, split, resolveSegments]
        cases corpus.lookup? schemaName with
        | none => exact ⟨0, _, Nat.zero_le 1, rfl⟩
        | some schema => exact ⟨1, _, Nat.le_refl 1, rfl⟩

/-- A value without a name does no harm in a type that an entity hides. -/
theorem resolve_empty_segment_of_hidden_value :
    let schema : Schema :=
      { id := "Plant", entities := [⟨"Item", [⟨"Label", none⟩], []⟩]
        types := [⟨"item", none, some [""]⟩] }
    ∃ corpus, Corpus.ofSchemas [schema] = .ok corpus ∧ ¬ DeclaresNameless [schema] ∧
      (∀ path, "" ∈ pathSegments path →
        ∃ segment reason, corpus.resolve path = .unresolved segment reason) ∧
      ∃ segment reason, segment ≤ 1 ∧ corpus.resolve "plant..label" = .unresolved segment reason := by
  intro schema
  have built : Corpus.ofSchemas [schema] = .ok ⟨[(Ident.folded schema.id, schema)]⟩ := rfl
  have named : ¬ DeclaresNameless [schema] := by
    intro nameless
    cases nameless with
    | schema held unnamed =>
        obtain rfl := List.mem_singleton.mp held
        exact absurd unnamed (by decide)
    | @member _ element held _ _ _ first member =>
        obtain rfl := List.mem_singleton.mp held
        have declared := first.mem
        simp only [Schema.elements, schema, List.map_cons, List.map_nil, List.append_nil,
          List.mem_append, List.mem_singleton] at declared
        rcases declared with rfl | rfl
        · cases member with
          | ofEntity listed same =>
              obtain rfl := List.mem_singleton.mp listed
              exact absurd same (by decide)
        · exact absurd (Schema.findElement?_eq_some_iff.mpr first) (by decide)
  obtain ⟨fails_iff, second⟩ := resolve_empty_segment_iff_not_declaresNameless built
  exact ⟨_, built, named, fails_iff.mpr named, second "plant..label" (by decide)⟩

/-- A schema document may declare an attribute without a name, and a path that ends in a
    dot then resolves. -/
theorem resolve_empty_segment_of_nameless_attribute :
    let schema : Schema := { id := "plant", entities := [⟨"item", [⟨"", none⟩], []⟩] }
    SchemaDocument.ofJson? (SchemaDocument.toJson [schema]) = some [schema] ∧
      ∃ corpus, Corpus.ofSchemas [schema] = .ok corpus ∧ "" ∈ pathSegments "plant.item." ∧
        corpus.resolve "plant.item." = .resolved := by
  intro schema
  have built : Corpus.ofSchemas [schema] = .ok ⟨[(Ident.folded schema.id, schema)]⟩ := rfl
  exact ⟨by decide, _, built, by decide, by decide⟩

end Corpus

end ExpressLinks
