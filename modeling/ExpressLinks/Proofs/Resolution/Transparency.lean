import ExpressLinks.Proofs.Resolution.Failing
import ExpressLinks.Proofs.Text.Pieces

/-!
# Base types are transparent

A type with a base type has the members of its base type and no others. One step along
a chain of base types does not change what the chain comes to, and the budget for each
chain is large enough for both, so below a type and below its base type every sequence
of names has the same outcome, up to the path that the reason quotes.
-/

namespace ExpressLinks

open Relation

/-- The reason without the path that it quotes. -/
def Reason.unquoted : Reason → Reason
  | schemaNotFound schema => schemaNotFound schema
  | elementNotFound element schema => elementNotFound element schema
  | attributeNotFound name _ => attributeNotFound name ""
  | enumValueNotFound value _ => enumValueNotFound value ""
  | baseTypeNotFound base _ => baseTypeNotFound base ""
  | builtinType simple _ => builtinType simple ""
  | enumValueLeaf _ => enumValueLeaf ""
  | notNavigable _ => notNavigable ""
  | redirectionLimit _ limit => redirectionLimit "" limit

/-- The outcome without the path that its reason quotes. -/
def Resolution.unquoted : Resolution → Resolution
  | resolved => resolved
  | unresolved segment reason => unresolved segment reason.unquoted

namespace Schema

variable {schema : Schema} {source target : TypeDecl} {ending : ChainEnd}

/-- A chain and the same chain without its first step come to the same. -/
theorem BaseStep.endsIn_iff (step : schema.BaseStep source target) :
    schema.EndsIn source ending ↔ schema.EndsIn target ending := by
  constructor
  · intro ends
    cases ends with
    | stop reaches stops =>
        rcases ReflTransGen.cases_head reaches with rfl | ⟨next, step', onward⟩
        · -- the source goes on, so it is not where the chain stops
          have goesOn := step.stop?_eq_none
          rw [stop?_eq_some_iff.mpr stops] at goesOn
          cases goesOn
        · obtain rfl := step.unique step'
          exact .stop onward stops
    | circle reaches circle =>
        rcases ReflTransGen.cases_head reaches with rfl | ⟨next, step', onward⟩
        · -- a circle through the source passes its one target and leads back to the source
          obtain ⟨next, step', back⟩ := TransGen.head'_iff.mp circle
          obtain rfl := step.unique step'
          exact .circle back circle
        · obtain rfl := step.unique step'
          exact .circle onward circle
  · intro ends
    cases ends with
    | stop reaches stops => exact .stop (.head step reaches) stops
    | circle reaches circle => exact .circle (.head step reaches) circle

/-- With one unit for each type the budget does for the chain from a declared type and for
    the chain from its base type, which are reported alike. -/
theorem BaseStep.chainEnd_eq (step : schema.BaseStep source target)
    (declared : source ∈ schema.types) :
    schema.chainEnd schema.types.length source = schema.chainEnd schema.types.length target := by
  rw [chainEnd_length_eq_iff_endsIn declared, step.endsIn_iff,
    ← chainEnd_length_eq_iff_endsIn step.mem]

/-- Below two types whose chains end alike, names have the same outcome up to the quoted
    path. -/
theorem resolveMember_unquoted_of_chainEnd_eq
    (same : schema.chainEnd schema.types.length source = schema.chainEnd schema.types.length target)
    (path path' : String) (names : List String) :
    (schema.resolveMember (.type source) path names).unquoted =
      (schema.resolveMember (.type target) path' names).unquoted := by
  cases names with
  | nil => rfl
  | cons name rest =>
      simp only [resolveMember, same]
      cases schema.chainEnd schema.types.length target with
      | builtin builtin => rfl
      | endless => rfl
      | undeclared base => rfl
      | bare => rfl
      | enumeration last =>
          -- only here do the name and the names after it matter
          dsimp only
          cases last.findEnumValue? name with
          | none => rfl
          | some value => cases rest <;> rfl

end Schema

namespace Corpus

variable {corpus : Corpus} {schema : Schema} {type : TypeDecl} {rest : List String}

/-- A path that spells out a schema, a declared type and further names is resolved below
    that type. -/
theorem WellFiled.resolve_joinStrings_of_findElement? (h : corpus.WellFiled)
    (held : schema ∈ corpus.schemas) (given : type.id ≠ "")
    (found : schema.findElement? type.id = some (.type type))
    (dotless : ∀ name ∈ schema.id :: type.id :: rest, '.' ∉ name.toList) :
    corpus.resolve (Text.joinStrings '.' (schema.id :: type.id :: rest)) =
      schema.resolveMember (.type type) (Schema.extendPath schema.id type.id) rest := by
  have segments : pathSegments (Text.joinStrings '.' (schema.id :: type.id :: rest)) =
      schema.id :: type.id :: rest := Text.splitString_joinStrings (by simp) dotless
  have named : Ident.same schema.id schema.id := Ident.same_refl schema.id
  have referenced : schema.referencedElement? type.id = some (.type type) := by
    rw [Schema.referencedElement?, if_neg given, found]
  rw [resolve, segments, resolveSegments, h.lookup?_eq_some_iff.mpr ⟨held, named⟩]
  simp only [referenced]
  rfl

/-- Where one type is the base of another and each is what its name refers to, a path
    through either has the same outcome: both resolve, or both fail at the same segment
    for the same reason, up to the path that it quotes. Values of the type with the base
    do not matter, nor does how long the chain goes on or whether it ends. -/
theorem resolve_through_base_type {schemas : List Schema} {schema : Schema}
    {source target : TypeDecl} {base : String} {rest : List String}
    (built : Corpus.ofSchemas schemas = .ok corpus) (held : schema ∈ schemas)
    (schemaDotless : '.' ∉ schema.id.toList)
    (sourceDotless : '.' ∉ source.id.toList) (sourceGiven : source.id ≠ "")
    (targetDotless : '.' ∉ target.id.toList) (targetGiven : target.id ≠ "")
    (sourceFound : schema.findElement? source.id = some (.type source))
    (targetFound : schema.findElement? target.id = some (.type target))
    (renames : source.baseType = some base) (noKeyword : BuiltinType.ofKeyword? base = none)
    (followed : schema.findType? base = some target)
    (restDotless : ∀ name ∈ rest, '.' ∉ name.toList) :
    (corpus.resolve (Text.joinStrings '.' (schema.id :: source.id :: rest))).unquoted =
      (corpus.resolve (Text.joinStrings '.' (schema.id :: target.id :: rest))).unquoted := by
  obtain ⟨wellFiled, rfl⟩ := ofSchemas_ok built
  have step : schema.BaseStep source target :=
    ⟨base, renames, noKeyword, Schema.findType?_eq_some_iff.mp followed⟩
  have declared : source ∈ schema.types :=
    Schema.type_mem_elements_iff.mp (Schema.findElement?_eq_some_iff.mp sourceFound).mem
  have dotless {type : TypeDecl} (typeDotless : '.' ∉ type.id.toList) :
      ∀ name ∈ schema.id :: type.id :: rest, '.' ∉ name.toList :=
    List.forall_mem_cons.mpr
      ⟨schemaDotless, List.forall_mem_cons.mpr ⟨typeDotless, restDotless⟩⟩
  rw [wellFiled.resolve_joinStrings_of_findElement? held sourceGiven sourceFound
      (dotless sourceDotless),
    wellFiled.resolve_joinStrings_of_findElement? held targetGiven targetFound
      (dotless targetDotless)]
  exact Schema.resolveMember_unquoted_of_chainEnd_eq (step.chainEnd_eq declared) _ _ rest

/-- A type with values of its own in front of a circle: its values do not count, and the
    path through it is cut off like the path through its base. In front of an enumeration
    the path fails behind the same value. -/
theorem resolve_through_base_type_of_circle :
    let mode : TypeDecl := ⟨"Mode", some "STATE", some ["idle"]⟩
    let state : TypeDecl := ⟨"State", some "mode", none⟩
    let phase : TypeDecl := ⟨"Phase", some "Step", none⟩
    let step : TypeDecl := ⟨"Step", none, some ["ON"]⟩
    let schema : Schema := { id := "Plant", types := [mode, state, phase, step] }
    ∃ corpus, Corpus.ofSchemas [schema] = .ok corpus ∧
      corpus.resolve "Plant.Mode.idle" = .unresolved 2 (.redirectionLimit "Plant.Mode" 4) ∧
      corpus.resolve "Plant.Phase.on.x" = .unresolved 2 (.enumValueLeaf "Plant.Phase.on") ∧
      (corpus.resolve (Text.joinStrings '.' [schema.id, mode.id, "idle"])).unquoted =
        (corpus.resolve (Text.joinStrings '.' [schema.id, state.id, "idle"])).unquoted ∧
      (corpus.resolve (Text.joinStrings '.' [schema.id, phase.id, "on", "x"])).unquoted =
        (corpus.resolve (Text.joinStrings '.' [schema.id, step.id, "on", "x"])).unquoted := by
  intro mode state phase step schema
  have built : Corpus.ofSchemas [schema] = .ok ⟨[(Ident.folded schema.id, schema)]⟩ := rfl
  have mode_found : schema.findElement? mode.id = some (.type mode) := by decide
  have state_found : schema.findElement? state.id = some (.type state) := by decide
  have phase_found : schema.findElement? phase.id = some (.type phase) := by decide
  have step_found : schema.findElement? step.id = some (.type step) := by decide
  have state_named : BuiltinType.ofKeyword? "STATE" = none := by decide
  have step_named : BuiltinType.ofKeyword? "Step" = none := by decide
  refine ⟨_, built, by decide, by decide, ?_, ?_⟩
  · exact resolve_through_base_type built List.mem_cons_self (by decide) (by decide) (by decide)
      (by decide) (by decide) mode_found state_found rfl state_named (by decide) (by decide)
  · exact resolve_through_base_type built List.mem_cons_self (by decide) (by decide) (by decide)
      (by decide) (by decide) phase_found step_found rfl step_named (by decide) (by decide)

end Corpus

end ExpressLinks
