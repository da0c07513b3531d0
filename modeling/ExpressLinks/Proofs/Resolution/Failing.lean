import ExpressLinks.Proofs.Resolution.Resolvable
import ExpressLinks.Proofs.Schema.Ending

/-!
# Why paths fail

`FailsAt` lists the situations in which a sequence of names refers to nothing, each
with the segment at fault and the reason: the first name that is not found, or a
further name below something without members. A path fails in the corpus of a list
of schemas at that segment and for that reason exactly when it is in the situation,
and a path that does not resolve is in one situation only.
-/

namespace ExpressLinks

open Relation

/-- Why a name, with the names after it, refers to nothing below a declaration that
    `path` quotes. The names after it matter only where the name itself is found. -/
inductive Schema.MemberFailsAt (schema : Schema) (path name : String) :
    Element → List String → Nat → Reason → Prop
  | noAttribute {entity : Entity} {later : List String} :
      (∀ declared ∈ entity.attributes, ¬ Ident.same declared.id name) →
      MemberFailsAt schema path name (.entity entity) later 2 (.attributeNotFound name path)
  | belowAttribute {entity : Entity} {declared : Attribute} {next : String}
      {later : List String} :
      declared ∈ entity.attributes → Ident.same declared.id name →
      MemberFailsAt schema path name (.entity entity) (next :: later) 3
        (.notNavigable (extendPath path name))
  | builtin {type : TypeDecl} {builtin : BuiltinType} {later : List String} :
      schema.EndsIn type (.builtin builtin) →
      MemberFailsAt schema path name (.type type) later 2 (.builtinType builtin path)
  | undeclared {type : TypeDecl} {base : String} {later : List String} :
      schema.EndsIn type (.undeclared base) →
      MemberFailsAt schema path name (.type type) later 2 (.baseTypeNotFound base path)
  | noValue {type last : TypeDecl} {values later : List String} :
      schema.EndsIn type (.enumeration last) → last.enumValues = some values →
      (∀ value ∈ values, ¬ Ident.same value name) →
      MemberFailsAt schema path name (.type type) later 2 (.enumValueNotFound name path)
  | belowValue {type last : TypeDecl} {values : List String} {value next : String}
      {later : List String} :
      schema.EndsIn type (.enumeration last) → last.enumValues = some values →
      value ∈ values → Ident.same value name →
      MemberFailsAt schema path name (.type type) (next :: later) 2
        (.enumValueLeaf (extendPath path name))
  | bare {type : TypeDecl} {later : List String} :
      schema.EndsIn type .bare →
      MemberFailsAt schema path name (.type type) later 2 (.notNavigable path)
  | endless {type : TypeDecl} {later : List String} :
      schema.EndsIn type .endless →
      MemberFailsAt schema path name (.type type) later 2
        (.redirectionLimit path schema.types.length)
  | named {kind : OpaqueKind} {declaration : Declaration} {later : List String} :
      MemberFailsAt schema path name (.named kind declaration) later 2 (.notNavigable path)

/-- The situations in which a sequence of names refers to nothing in a list of schemas,
    with the segment at fault and the reason. Schemas and declarations are quoted as
    they are declared, members as they are written. -/
inductive FailsAt (schemas : List Schema) : List String → Nat → Reason → Prop
  | schema {schemaName : String} {later : List String} :
      (∀ schema ∈ schemas, ¬ Ident.same schema.id schemaName) →
      FailsAt schemas (schemaName :: later) 0 (.schemaNotFound schemaName)
  | element {schema : Schema} {schemaName elementName : String} {later : List String} :
      schema ∈ schemas → Ident.same schema.id schemaName →
      (elementName = "" ∨ ∀ element ∈ schema.elements, ¬ Ident.same element.id elementName) →
      FailsAt schemas (schemaName :: elementName :: later) 1
        (.elementNotFound elementName schemaName)
  | member {schema : Schema} {element : Element} {schemaName elementName memberName : String}
      {later : List String} {segment : Nat} {reason : Reason} :
      schema ∈ schemas → Ident.same schema.id schemaName →
      elementName ≠ "" → FirstNamed Element.id elementName schema.elements element →
      schema.MemberFailsAt (Schema.extendPath schema.id element.id) memberName element later
        segment reason →
      FailsAt schemas (schemaName :: elementName :: memberName :: later) segment reason

namespace Schema

variable {schema : Schema} {element : Element} {path name : String} {later : List String}
  {segment : Nat} {reason : Reason}

/-- Where a chain ends in an enumeration, the enumeration lists values. -/
theorem EndsIn.exists_values {type last : TypeDecl}
    (ends : schema.EndsIn type (.enumeration last)) : ∃ values, last.enumValues = some values := by
  cases ends with
  | stop reaches stops =>
      cases stops with
      | enumeration absent listed => exact ⟨_, listed⟩

/-- Below an entity a path fails at a name that is no attribute, or behind an attribute. -/
theorem resolveMember_entity_eq_unresolved_iff {entity : Entity} :
    schema.resolveMember (.entity entity) path (name :: later) = .unresolved segment reason ↔
      schema.MemberFailsAt path name (.entity entity) later segment reason := by
  simp only [resolveMember]
  constructor
  · cases found : entity.findAttribute? name with
    | none =>
        rintro ⟨⟩
        exact .noAttribute (findAttribute?_eq_none_iff.mp found)
    | some first =>
        obtain ⟨declared, member, same⟩ :=
          findAttribute?_isSome_iff.mp (Option.isSome_iff_exists.mpr ⟨first, found⟩)
        cases later with
        | nil => rintro ⟨⟩
        | cons next later =>
            rintro ⟨⟩
            exact .belowAttribute member same
  · intro fails
    cases fails with
    | noAttribute missing => simp [findAttribute?_eq_none_iff.mpr missing]
    | belowAttribute member same =>
        obtain ⟨first, found⟩ :=
          Option.isSome_iff_exists.mp (findAttribute?_isSome_iff.mpr ⟨_, member, same⟩)
        simp [found]

/-- Below a type a path fails as the chain of its base types ends: at a name that is no
    value, or behind a value, where it ends in an enumeration, and at once elsewhere. -/
theorem resolveMember_type_eq_unresolved_iff {type : TypeDecl} (declared : type ∈ schema.types) :
    schema.resolveMember (.type type) path (name :: later) = .unresolved segment reason ↔
      schema.MemberFailsAt path name (.type type) later segment reason := by
  simp only [resolveMember]
  constructor
  · have ends := (chainEnd_length_eq_iff_endsIn declared).mp rfl
    cases reported : schema.chainEnd schema.types.length type with
    | builtin builtin =>
        rintro ⟨⟩
        exact .builtin (reported ▸ ends)
    | undeclared base =>
        rintro ⟨⟩
        exact .undeclared (reported ▸ ends)
    | bare =>
        rintro ⟨⟩
        exact .bare (reported ▸ ends)
    | endless =>
        rintro ⟨⟩
        exact .endless (reported ▸ ends)
    | enumeration last =>
        -- only here do the name and the names after it matter
        rw [reported] at ends
        obtain ⟨values, listed⟩ := ends.exists_values
        cases found : last.findEnumValue? name with
        | none =>
            simp only [found]
            rintro ⟨⟩
            exact .noValue ends listed ((findEnumValue?_eq_none_iff listed).mp found)
        | some value =>
            obtain ⟨values, listed, value, member, same⟩ :=
              findEnumValue?_isSome_iff.mp (Option.isSome_iff_exists.mpr ⟨value, found⟩)
            simp only [found]
            cases later with
            | nil => rintro ⟨⟩
            | cons next later =>
                rintro ⟨⟩
                exact .belowValue ends listed member same
  · intro fails
    have reported {ending : ChainEnd} (ends : schema.EndsIn type ending) :
        schema.chainEnd schema.types.length type = ending :=
      (chainEnd_length_eq_iff_endsIn declared).mpr ends
    cases fails with
    | builtin ends => simp [reported ends]
    | undeclared ends => simp [reported ends]
    | bare ends => simp [reported ends]
    | endless ends => simp [reported ends]
    | noValue ends listed missing =>
        simp [reported ends, (findEnumValue?_eq_none_iff listed).mpr missing]
    | belowValue ends listed member same =>
        obtain ⟨value, found⟩ :=
          Option.isSome_iff_exists.mp (findEnumValue?_isSome_iff.mpr ⟨_, listed, _, member, same⟩)
        simp [reported ends, found]

/-- Below a declaration a path fails exactly in the situations listed. -/
theorem resolveMember_eq_unresolved_iff (declared : element ∈ schema.elements) :
    schema.resolveMember element path (name :: later) = .unresolved segment reason ↔
      schema.MemberFailsAt path name element later segment reason := by
  cases element with
  | entity entity => exact resolveMember_entity_eq_unresolved_iff
  | type type => exact resolveMember_type_eq_unresolved_iff (type_mem_elements_iff.mp declared)
  | named kind declaration =>
      rw [resolveMember]
      constructor
      · rintro ⟨⟩
        exact .named
      · intro fails
        cases fails with
        | named => rfl

/-- An empty segment refers to nothing, and any other to nothing if nothing bears its name. -/
theorem referencedElement?_eq_none_iff :
    schema.referencedElement? name = none ↔
      name = "" ∨ ∀ element ∈ schema.elements, ¬ Ident.same element.id name := by
  unfold referencedElement?
  by_cases empty : name = "" <;> simp [empty, findElement?_eq_find?_elements]

end Schema

namespace Corpus

variable {corpus : Corpus}

/-- Segments fail exactly in the situations listed. -/
theorem WellFiled.resolveSegments_eq_unresolved_iff (h : corpus.WellFiled)
    {segments : List String} {segment : Nat} {reason : Reason} :
    corpus.resolveSegments segments = .unresolved segment reason ↔
      FailsAt corpus.schemas segments segment reason := by
  constructor
  · cases segments with
    | nil => rintro ⟨⟩
    | cons schemaName rest =>
        rw [resolveSegments]
        cases found : corpus.lookup? schemaName with
        | none =>
            rintro ⟨⟩
            exact .schema (h.lookup?_eq_none_iff.mp found)
        | some schema =>
            obtain ⟨held, same⟩ := h.lookup?_eq_some_iff.mp found
            cases rest with
            | nil => rintro ⟨⟩
            | cons elementName members =>
                cases referenced : schema.referencedElement? elementName with
                | none =>
                    simp only [referenced]
                    rintro ⟨⟩
                    exact .element held same (Schema.referencedElement?_eq_none_iff.mp referenced)
                | some element =>
                    obtain ⟨nonempty, first⟩ :=
                      Schema.referencedElement?_eq_some_iff.mp referenced
                    simp only [referenced]
                    cases members with
                    | nil => rintro ⟨⟩
                    | cons memberName later =>
                        intro fails
                        exact .member held same nonempty first
                          ((Schema.resolveMember_eq_unresolved_iff first.mem).mp fails)
  · intro fails
    cases fails with
    | schema missing => simp [resolveSegments, h.lookup?_eq_none_iff.mpr missing]
    | element held same missing =>
        simp [resolveSegments, h.lookup?_eq_some_iff.mpr ⟨held, same⟩,
          Schema.referencedElement?_eq_none_iff.mpr missing]
    | member held same nonempty first fails =>
        simp only [resolveSegments, h.lookup?_eq_some_iff.mpr ⟨held, same⟩,
          Schema.referencedElement?_eq_some_iff.mpr ⟨nonempty, first⟩]
        exact (Schema.resolveMember_eq_unresolved_iff first.mem).mpr fails

/-- In the corpus of a list of schemas a path fails at a segment for a reason exactly
    when its segments are in the situation for which the reason stands. Segments that
    refer to nothing are in one of the situations, and in no other. -/
theorem resolve_eq_unresolved_iff_failsAt {schemas : List Schema} {corpus : Corpus}
    (built : Corpus.ofSchemas schemas = .ok corpus) (path : String) :
    (∀ segment reason, corpus.resolve path = .unresolved segment reason ↔
      FailsAt schemas (pathSegments path) segment reason) ∧
    (¬ Refers schemas (pathSegments path) ↔
      ∃ segment reason, FailsAt schemas (pathSegments path) segment reason) ∧
    (∀ segment reason segment' reason', FailsAt schemas (pathSegments path) segment reason →
      FailsAt schemas (pathSegments path) segment' reason' →
      segment = segment' ∧ reason = reason') := by
  obtain ⟨wellFiled, rfl⟩ := ofSchemas_ok built
  have fails (segment : Nat) (reason : Reason) :
      corpus.resolve path = .unresolved segment reason ↔
        FailsAt corpus.schemas (pathSegments path) segment reason :=
    wellFiled.resolveSegments_eq_unresolved_iff
  have resolves : corpus.resolve path = .resolved ↔ Refers corpus.schemas (pathSegments path) :=
    wellFiled.resolveSegments_eq_resolved_iff (pathSegments_ne_nil path)
  refine ⟨fails, ?_, ?_⟩
  · simp only [← fails, ← resolves]
    cases corpus.resolve path <;> simp
  · intro segment reason segment' reason' first second
    rw [← fails] at first second
    exact Resolution.unresolved.inj (first.symm.trans second)

/-- A chain that leaves the declared types fails where it leaves them, and one that
    comes back to a type is cut off; values listed on the way do not count. -/
theorem failsAt_undeclared_and_circular_base_types :
    let schema : Schema :=
      { id := "Plant"
        types := [⟨"Mode", some "STATE", some ["idle"]⟩, ⟨"State", some " Strings ", none⟩,
          ⟨"left", some "Right", none⟩, ⟨"RIGHT", some "LEFT", some ["on"]⟩] }
    ∃ corpus, Corpus.ofSchemas [schema] = .ok corpus ∧
      FailsAt [schema] (pathSegments "plant.mode.idle.x") 2
        (.baseTypeNotFound " Strings " "Plant.Mode") ∧
      FailsAt [schema] (pathSegments "plant.right.on") 2 (.redirectionLimit "Plant.RIGHT" 4) ∧
      ¬ Refers [schema] (pathSegments "plant.right.on") := by
  intro schema
  have built : Corpus.ofSchemas [schema] = .ok ⟨[(Ident.folded schema.id, schema)]⟩ := rfl
  obtain ⟨open_fails, -⟩ := resolve_eq_unresolved_iff_failsAt built "plant.mode.idle.x"
  obtain ⟨circle_fails, refers_iff, -⟩ := resolve_eq_unresolved_iff_failsAt built "plant.right.on"
  have cut : FailsAt [schema] (pathSegments "plant.right.on") 2
      (.redirectionLimit "Plant.RIGHT" 4) := (circle_fails _ _).mp (by decide)
  exact ⟨_, built, (open_fails _ _).mp (by decide), cut, refers_iff.mpr ⟨_, _, cut⟩⟩

end Corpus

end ExpressLinks
