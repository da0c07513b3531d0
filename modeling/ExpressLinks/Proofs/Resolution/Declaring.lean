import ExpressLinks.Proofs.Resolution.Context
import ExpressLinks.Proofs.Resolution.Limit
import ExpressLinks.Proofs.Schema.Declaring

/-!
# Declaring more

A schema keeps what it says when more is declared: names lead where they led, base types too,
and a circle of base types stays one. So a path that resolves goes on resolving, and one that
is cut off stays cut off. Only an entity can take something away, since it hides the types of
its name.
-/

namespace ExpressLinks

open Relation

namespace Schema

/-- No entity among the added bears the name of a type of the schema. -/
def HidesNoType (schema : Schema) (added : List Element) : Prop :=
  ∀ entity, .entity entity ∈ added → ∀ type ∈ schema.types, ¬ Ident.same entity.id type.id

/-- Whatever a path can go through in a schema it can go through in the larger one: the
    declarations are there, names lead to the same entities and types, and base types to the
    same types. -/
structure KeptBy (schema larger : Schema) : Prop where
  id_eq : larger.id = schema.id
  elements_subset : schema.elements ⊆ larger.elements
  entity {name : String} {entity : Entity} :
    FirstNamed Element.id name schema.elements (.entity entity) →
    FirstNamed Element.id name larger.elements (.entity entity)
  type {name : String} {type : TypeDecl} :
    FirstNamed Element.id name schema.elements (.type type) →
    FirstNamed Element.id name larger.elements (.type type)
  step {source target : TypeDecl} : schema.BaseStep source target → larger.BaseStep source target

namespace KeptBy

variable {schema larger : Schema}

theorem refl (schema : Schema) : schema.KeptBy schema :=
  ⟨rfl, List.Subset.refl _, fun first => first, fun first => first, fun step => step⟩

/-- Members stay members. -/
theorem hasMember (kept : schema.KeptBy larger) {element : Element} {name : String}
    (has : schema.HasMember element name) : larger.HasMember element name := by
  cases has with
  | ofEntity member same => exact .ofEntity member same
  | ofType reaches absent listed member same =>
      have onward := ReflTransGen.mono (fun _ _ => kept.step) _ _ reaches
      exact .ofType onward absent listed member same

/-- A chain of base types that goes in a circle still does. -/
theorem endless (kept : schema.KeptBy larger) {type : TypeDecl}
    (ends : schema.EndsIn type .endless) : larger.EndsIn type .endless := by
  cases ends with
  | stop reaches stops => exact absurd rfl stops.ne_endless
  | circle reaches circle =>
      have onward := ReflTransGen.mono (fun _ _ => kept.step) _ _ reaches
      have around := TransGen.mono (fun _ _ => kept.step) _ _ circle
      exact .circle onward around

/-- What has members is still what its name refers to. -/
theorem firstNamed (kept : schema.KeptBy larger) {element : Element} {name member : String}
    (first : FirstNamed Element.id name schema.elements element)
    (has : schema.HasMember element member) :
    FirstNamed Element.id name larger.elements element := by
  cases has with
  | ofEntity _ _ => exact kept.entity first
  | ofType _ _ _ _ _ => exact kept.type first

end KeptBy

variable {schema : Schema} {added : List Element}

theorem elements_subset_declareAll (schema : Schema) (added : List Element) :
    schema.elements ⊆ (schema.declareAll added).elements := by
  intro element member
  rw [elements_eq_flatMap_members, List.mem_flatMap] at member ⊢
  obtain ⟨kind, searched, inside⟩ := member
  refine ⟨kind, searched, ?_⟩
  rw [members_declareAll]
  exact List.mem_append_left _ inside

/-- Where no type is hidden, nothing added comes before a type of its name. -/
theorem HidesNoType.rank_le (apart : schema.HidesNoType added) {type : TypeDecl} {name : String}
    (declared : type ∈ schema.types) (named : Ident.same type.id name) :
    ∀ other ∈ added, Ident.same other.id name → ElementKind.type.rank ≤ other.kind.rank := by
  intro other new same
  cases other with
  | entity entity =>
      exact absurd (Ident.same_trans same (Ident.same_symm named))
        (apart entity new type declared)
  | type other => exact Nat.le_refl _
  | named kind declaration =>
      change ElementKind.type.rank ≤ kind.toElementKind.rank
      cases kind <;> decide

/-- More declarations take nothing away, unless an entity hides a type. -/
theorem keptBy_declareAll (apart : schema.HidesNoType added) :
    schema.KeptBy (schema.declareAll added) where
  id_eq := id_declareAll schema added
  elements_subset := elements_subset_declareAll schema added
  entity := by
    intro name entity first
    rw [← findElement?_eq_some_iff] at first ⊢
    exact findElement?_declareAll_of_some first fun _ _ _ => Nat.zero_le _
  type := by
    intro name type first
    have behind := apart.rank_le (type_mem_elements_iff.mp first.mem) first.same
    rw [← findElement?_eq_some_iff] at first ⊢
    exact findElement?_declareAll_of_some first behind
  step := by
    intro source target step
    obtain ⟨name, base, found⟩ := baseStep_iff.mp step
    exact baseStep_iff.mpr ⟨name, base, findType?_declareAll_of_some found added⟩

end Schema

/-- Segments that refer to something still do where each schema is kept by some other. -/
theorem Refers.of_keptBy {schemas others : List Schema} {segments : List String}
    (refers : Refers schemas segments)
    (kept : ∀ schema ∈ schemas, ∃ larger ∈ others, schema.KeptBy larger) :
    Refers others segments := by
  cases refers with
  | schema held same =>
      obtain ⟨larger, held', keptBy⟩ := kept _ held
      exact .schema held' (keptBy.id_eq ▸ same)
  | element held same nonempty declared named =>
      obtain ⟨larger, held', keptBy⟩ := kept _ held
      exact .element held' (keptBy.id_eq ▸ same) nonempty (keptBy.elements_subset declared) named
  | member held same nonempty first has =>
      obtain ⟨larger, held', keptBy⟩ := kept _ held
      exact .member held' (keptBy.id_eq ▸ same) nonempty (keptBy.firstNamed first has)
        (keptBy.hasMember has)

/-- Segments that are cut off still are in a schema that keeps theirs, with its number of
    types as the limit. -/
theorem FailsAt.exists_cut {schemas : List Schema} {schemaName quoted : String}
    {later : List String} {segment limit : Nat}
    (fails : FailsAt schemas (schemaName :: later) segment (.redirectionLimit quoted limit)) :
    ∃ schema ∈ schemas, Ident.same schema.id schemaName ∧
      ∀ (others : List Schema) (larger : Schema), larger ∈ others → schema.KeptBy larger →
        FailsAt others (schemaName :: later) segment
          (.redirectionLimit quoted larger.types.length) := by
  cases fails with
  | member held same nonempty first fails =>
      cases fails with
      | endless ends =>
          refine ⟨_, held, same, ?_⟩
          intro others larger held' kept
          rw [← kept.id_eq]
          exact .member held' (kept.id_eq ▸ same) nonempty (kept.type first)
            (.endless (kept.endless ends))

namespace Corpus

/-- Declaring more breaks no reference. Any types and other declarations may be added to a
    schema of a corpus, whatever their names, and entities that do not bear the name of one of
    its types: every path that resolved does so still. A path of the schema that was cut off
    is cut off at the same segment, with the new number of types as the limit, and paths of
    other schemas are not affected at all. -/
theorem resolve_kept_by_declarations {before after : List Schema} {schema : Schema}
    {corpus : Corpus} {added : List Element}
    (built : ofSchemas (before ++ schema :: after) = .ok corpus)
    (apart : schema.HidesNoType added) :
    ∃ larger, ofSchemas (before ++ schema.declareAll added :: after) = .ok larger ∧
      (∀ path, corpus.resolve path = .resolved → larger.resolve path = .resolved) ∧
      (∀ path segment quoted limit, Ident.same schema.id (schemaName path) →
        corpus.resolve path = .unresolved segment (.redirectionLimit quoted limit) →
        larger.resolve path = .unresolved segment
          (.redirectionLimit quoted (schema.declareAll added).types.length)) ∧
      ∀ path, ¬ Ident.same schema.id (schemaName path) →
        larger.resolve path = corpus.resolve path := by
  have keptBy := Schema.keptBy_declareAll apart
  have sameName : Ident.same (schema.declareAll added).id schema.id := by
    rw [keptBy.id_eq, Ident.same_iff_folded_eq]
  obtain ⟨larger, built', unaffected⟩ := exists_ofSchemas_replace built sameName
  obtain ⟨filed, held⟩ := ofSchemas_ok built
  obtain ⟨filed', held'⟩ := ofSchemas_ok built'
  refine ⟨larger, built', ?_, ?_, unaffected⟩
  · intro path resolved
    have kept : ∀ other ∈ corpus.schemas, ∃ more ∈ larger.schemas, other.KeptBy more := by
      intro other member
      rw [held, List.mem_append, List.mem_cons] at member
      rcases member with front | rfl | back
      · exact ⟨other, by simp [held', front], .refl other⟩
      · exact ⟨_, by simp [held'], keptBy⟩
      · exact ⟨other, by simp [held', back], .refl other⟩
    rw [resolve, filed.resolveSegments_eq_resolved_iff (pathSegments_ne_nil path)] at resolved
    rw [resolve, filed'.resolveSegments_eq_resolved_iff (pathSegments_ne_nil path)]
    exact resolved.of_keptBy kept
  · intro path segment quoted limit named cut
    obtain ⟨first, later, segments⟩ := List.exists_cons_of_ne_nil (pathSegments_ne_nil path)
    rw [schemaName, segments, List.headD_cons] at named
    rw [resolve, segments, filed.resolveSegments_eq_unresolved_iff] at cut
    rw [resolve, segments, filed'.resolveSegments_eq_unresolved_iff]
    obtain ⟨found, member, same, stays⟩ := cut.exists_cut
    -- both schemas bear the first segment as their name
    have here : schema ∈ corpus.schemas := by simp [held]
    obtain rfl : found = schema := by
      have left := filed.lookup?_eq_some_iff.mpr ⟨member, same⟩
      have right := filed.lookup?_eq_some_iff.mpr ⟨here, named⟩
      exact Option.some.inj (left.symm.trans right)
    exact stays larger.schemas _ (by simp [held']) keptBy

/-- Types of names that types bear already, a rule and a second entity of the name of an
    entity: the base types lead where they led, the first entity counts, and the circle is
    cut off two steps later. -/
theorem resolve_kept_by_declarations_of_taken_names :
    let schema : Schema :=
      { id := "Plant"
        entities := [⟨"Wall", [⟨"height", none⟩], []⟩]
        types := [⟨"Mode", some "state", none⟩, ⟨"State", none, some ["ON"]⟩,
          ⟨"left", some "right", none⟩, ⟨"right", some "LEFT", none⟩] }
    let added : List Element :=
      [.type ⟨"MODE", some "string", none⟩, .named .rule ⟨"wall"⟩, .entity ⟨"WALL", [], []⟩,
        .type ⟨"state", none, none⟩]
    ∃ corpus larger, ofSchemas [schema] = .ok corpus ∧ schema.HidesNoType added ∧
      ofSchemas [schema.declareAll added] = .ok larger ∧
      larger.resolve "plant.mode.on" = .resolved ∧
      larger.resolve "plant.wall.height" = .resolved ∧
      corpus.resolve "plant.left.on" = .unresolved 2 (.redirectionLimit "Plant.left" 4) ∧
      larger.resolve "plant.left.on" = .unresolved 2 (.redirectionLimit "Plant.left" 6) := by
  intro schema added
  have built : ofSchemas ([] ++ schema :: []) = .ok ⟨[(Ident.folded schema.id, schema)]⟩ := rfl
  have apart : schema.HidesNoType added := by
    intro entity member
    obtain rfl : entity = ⟨"WALL", [], []⟩ := by simpa [added] using member
    decide
  obtain ⟨larger, built', resolves, cut, -⟩ := resolve_kept_by_declarations built apart
  refine ⟨_, larger, built, apart, built', ?_, ?_, ?_, ?_⟩
  · exact resolves "plant.mode.on" (by decide)
  · exact resolves "plant.wall.height" (by decide)
  · decide
  · exact cut "plant.left.on" 2 "Plant.left" 4 (by decide) (by decide)

end Corpus

end ExpressLinks
