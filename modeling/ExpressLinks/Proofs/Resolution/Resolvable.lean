import ExpressLinks.Proofs.Corpus.Filing
import ExpressLinks.Proofs.Schema.BaseChain

/-!
# Which paths resolve

`Refers` says, without following the steps of a resolution, which sequences of
names refer to something in a list of schemas: a schema, a declaration, an
attribute of an entity, or an enumeration value at the end of a chain of base
types. A path resolves in the corpus of the schemas exactly when its segments
refer to something, and no path of four segments or more does.
-/

namespace ExpressLinks

open Relation

/-- The members of a declaration: the attributes of an entity, and the values of
    the enumeration in which the chain of base types of a type ends. -/
inductive Schema.HasMember (schema : Schema) : Element → String → Prop
  | ofEntity {entity : Entity} {declared : Attribute} {name : String} :
      declared ∈ entity.attributes → Ident.same declared.id name →
      HasMember schema (.entity entity) name
  | ofType {type last : TypeDecl} {values : List String} {value name : String} :
      ReflTransGen schema.BaseStep type last → last.baseType = none →
      last.enumValues = some values → value ∈ values → Ident.same value name →
      HasMember schema (.type type) name

/-- The sequences of names that refer to something in a list of schemas. A member
    belongs to the first declaration of its name; any declaration will do where no
    member is asked for. -/
inductive Refers (schemas : List Schema) : List String → Prop
  | schema {schema : Schema} {schemaName : String} :
      schema ∈ schemas → Ident.same schema.id schemaName → Refers schemas [schemaName]
  | element {schema : Schema} {element : Element} {schemaName elementName : String} :
      schema ∈ schemas → Ident.same schema.id schemaName →
      elementName ≠ "" → element ∈ schema.elements → Ident.same element.id elementName →
      Refers schemas [schemaName, elementName]
  | member {schema : Schema} {element : Element} {schemaName elementName memberName : String} :
      schema ∈ schemas → Ident.same schema.id schemaName →
      elementName ≠ "" → FirstNamed Element.id elementName schema.elements element →
      schema.HasMember element memberName →
      Refers schemas [schemaName, elementName, memberName]

namespace Schema

variable {schema : Schema} {element : Element}

/-- An entity has the members that its attributes name. -/
theorem hasMember_entity_iff (schema : Schema) (entity : Entity) (name : String) :
    schema.HasMember (.entity entity) name ↔ (entity.findAttribute? name).isSome := by
  rw [findAttribute?_isSome_iff]
  constructor
  · intro h
    cases h with
    | ofEntity member same => exact ⟨_, member, same⟩
  · rintro ⟨declared, member, same⟩
    exact .ofEntity member same

/-- A type has the values of the enumeration that its chain of base types ends in. -/
theorem hasMember_type_iff {type : TypeDecl} (declared : type ∈ schema.types) (name : String) :
    schema.HasMember (.type type) name ↔
      ∃ last, schema.chainEnd schema.types.length type = .enumeration last ∧
        (last.findEnumValue? name).isSome := by
  have ends (last : TypeDecl) :
      schema.chainEnd schema.types.length type = .enumeration last ↔
        ∃ reached, ReflTransGen schema.BaseStep type reached ∧
          schema.stop? reached = some (.enumeration last) :=
    chainEnd_length_eq_iff declared (by simp)
  simp only [ends, stop?_eq_enumeration_iff, findEnumValue?_isSome_iff]
  constructor
  · intro h
    cases h with
    | ofType reaches absent listed member same =>
        exact ⟨_, ⟨_, reaches, rfl, absent, by simp [listed]⟩, _, listed, _, member, same⟩
  · rintro ⟨last, ⟨_, reaches, rfl, absent, -⟩, values, listed, value, member, same⟩
    exact .ofType reaches absent listed member same

/-- Below a declaration exactly one segment resolves, and it names a member. -/
theorem resolveMember_eq_resolved_iff {path : String} {names : List String}
    (declared : element ∈ schema.elements) :
    schema.resolveMember element path names = .resolved ↔
      names = [] ∨ ∃ name, names = [name] ∧ schema.HasMember element name := by
  cases names with
  | nil => simp [resolveMember]
  | cons name rest =>
      cases element with
      | entity entity =>
          have attributes := schema.hasMember_entity_iff entity name
          cases found : entity.findAttribute? name <;> cases rest <;>
            simp [resolveMember, found, attributes]
      | type type =>
          have values := hasMember_type_iff (type_mem_elements_iff.mp declared) name
          -- only an enumeration looks at the segments that follow
          cases ends : schema.chainEnd schema.types.length type with
          | enumeration last =>
              cases found : last.findEnumValue? name <;> cases rest <;>
                simp [resolveMember, ends, found, values]
          | bare => simp [resolveMember, ends, values]
          | builtin builtin => simp [resolveMember, ends, values]
          | undeclared base => simp [resolveMember, ends, values]
          | endless => simp [resolveMember, ends, values]
      | named kind declaration =>
          have noMember : ¬ schema.HasMember (.named kind declaration) name := nofun
          simp [resolveMember, noMember]

/-- A segment that is not empty refers to the first declaration of its name. -/
theorem referencedElement?_eq_some_iff {name : String} :
    schema.referencedElement? name = some element ↔
      name ≠ "" ∧ FirstNamed Element.id name schema.elements element := by
  unfold referencedElement?
  by_cases empty : name = "" <;> simp [empty, findElement?_eq_some_iff]

end Schema

namespace Corpus

variable {corpus : Corpus}

/-- Segments resolve exactly when they refer to something. -/
theorem WellFiled.resolveSegments_eq_resolved_iff (h : corpus.WellFiled) {segments : List String}
    (given : segments ≠ []) :
    corpus.resolveSegments segments = .resolved ↔ Refers corpus.schemas segments := by
  obtain ⟨schemaName, rest, rfl⟩ := List.exists_cons_of_ne_nil given
  rw [resolveSegments]
  constructor
  · intro resolved
    cases found : corpus.lookup? schemaName with
    | none => simp [found] at resolved
    | some schema =>
        obtain ⟨held, same⟩ := h.lookup?_eq_some_iff.mp found
        cases rest with
        | nil => exact .schema held same
        | cons elementName members =>
            cases referenced : schema.referencedElement? elementName with
            | none => simp [found, referenced] at resolved
            | some element =>
                obtain ⟨nonempty, first⟩ := Schema.referencedElement?_eq_some_iff.mp referenced
                simp only [found, referenced] at resolved
                rcases (Schema.resolveMember_eq_resolved_iff first.mem).mp resolved with
                  rfl | ⟨name, rfl, member⟩
                · exact .element held same nonempty first.mem first.same
                · exact .member held same nonempty first member
  · intro refers
    cases refers with
    | schema held same =>
        rw [h.lookup?_eq_some_iff.mpr ⟨held, same⟩]
    | element held same nonempty declared named =>
        obtain ⟨element, first⟩ := exists_firstNamed_iff.mpr ⟨_, declared, named⟩
        rw [h.lookup?_eq_some_iff.mpr ⟨held, same⟩]
        simp only [Schema.referencedElement?_eq_some_iff.mpr ⟨nonempty, first⟩]
        exact (Schema.resolveMember_eq_resolved_iff first.mem).mpr (Or.inl rfl)
    | member held same nonempty first member =>
        rw [h.lookup?_eq_some_iff.mpr ⟨held, same⟩]
        simp only [Schema.referencedElement?_eq_some_iff.mpr ⟨nonempty, first⟩]
        exact (Schema.resolveMember_eq_resolved_iff first.mem).mpr (Or.inr ⟨_, rfl, member⟩)

theorem pathSegments_ne_nil (path : String) : pathSegments path ≠ [] := by
  simp [pathSegments, Text.splitString, Text.splitAt_ne_nil]

end Corpus

theorem Refers.length_le {schemas : List Schema} {segments : List String}
    (refers : Refers schemas segments) : segments.length ≤ 3 := by
  cases refers <;> simp

/-- In the corpus of a list of schemas a path resolves exactly when its segments
    refer to something, so a path of more than three segments never does. -/
theorem Corpus.resolve_eq_resolved_iff_refers {schemas : List Schema} {corpus : Corpus}
    (built : Corpus.ofSchemas schemas = .ok corpus) (path : String) :
    (corpus.resolve path = .resolved ↔ Refers schemas (Corpus.pathSegments path)) ∧
      (4 ≤ (Corpus.pathSegments path).length → corpus.resolve path ≠ .resolved) := by
  obtain ⟨wellFiled, rfl⟩ := Corpus.ofSchemas_ok built
  have resolves : corpus.resolve path = .resolved ↔
      Refers corpus.schemas (Corpus.pathSegments path) :=
    wellFiled.resolveSegments_eq_resolved_iff (Corpus.pathSegments_ne_nil path)
  refine ⟨resolves, ?_⟩
  intro long resolved
  have short := (resolves.mp resolved).length_le
  omega

/-- The values of a base type count, those of the type itself and a rule of its name
    do not. -/
theorem refers_value_of_base_type :
    let schema : Schema :=
      { id := "Plant"
        types := [⟨"mode", some "STATE", some ["idle"]⟩, ⟨"State", none, some ["ON", "OFF"]⟩]
        rules := [⟨"mode"⟩] }
    ∃ corpus, Corpus.ofSchemas [schema] = .ok corpus ∧
      Refers [schema] (Corpus.pathSegments "plant.Mode.on") ∧
      ¬ Refers [schema] (Corpus.pathSegments "plant.mode.idle") ∧
      corpus.resolve "plant.mode.on.x" ≠ .resolved := by
  intro schema
  have built : Corpus.ofSchemas [schema] = .ok ⟨[(Ident.folded schema.id, schema)]⟩ := rfl
  refine ⟨_, built, ?_, ?_, ?_⟩
  · exact (Corpus.resolve_eq_resolved_iff_refers built "plant.Mode.on").1.mp (by decide)
  · exact mt (Corpus.resolve_eq_resolved_iff_refers built "plant.mode.idle").1.mpr (by decide)
  · exact (Corpus.resolve_eq_resolved_iff_refers built "plant.mode.on.x").2 (by decide)

end ExpressLinks
