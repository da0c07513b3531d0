import ExpressLinks.Proofs.Naming
import ExpressLinks.Schema

/-!
# Looking up declarations

The seven collections of a schema, one after another, form a single list of
declarations. Looking up a name kind by kind finds what the name refers to in
that list, so an entity hides a type of its name, a type hides a constant, and
so on.
-/

namespace ExpressLinks.Schema

/-- All declarations of a schema, collection after collection. -/
def elements (schema : Schema) : List Element :=
  schema.entities.map .entity ++ schema.types.map .type
    ++ schema.constants.map (.named .constant) ++ schema.functions.map (.named .function)
    ++ schema.rules.map (.named .rule) ++ schema.procedures.map (.named .procedure)
    ++ schema.subtypeConstraints.map (.named .subtypeConstraint)

theorem elements_eq_flatMap_members (schema : Schema) :
    schema.elements = ElementKind.searchOrder.flatMap schema.members := by
  simp [elements, ElementKind.searchOrder, members]

/-- The look-up by kinds is one search through all declarations. -/
theorem findElement?_eq_find?_elements (schema : Schema) (name : String) :
    schema.findElement? name = schema.elements.find? fun element => Ident.same element.id name := by
  rw [elements_eq_flatMap_members, List.find?_flatMap]
  rfl

theorem findElement?_eq_some_iff {schema : Schema} {name : String} {element : Element} :
    schema.findElement? name = some element ↔
      FirstNamed Element.id name schema.elements element := by
  rw [findElement?_eq_find?_elements]
  exact find?_same_eq_some_iff

theorem findType?_eq_some_iff {schema : Schema} {name : String} {type : TypeDecl} :
    schema.findType? name = some type ↔ FirstNamed TypeDecl.id name schema.types type :=
  find?_same_eq_some_iff

theorem findType?_eq_none_iff {schema : Schema} {name : String} :
    schema.findType? name = none ↔ ∀ declared ∈ schema.types, ¬ Ident.same declared.id name := by
  simp [findType?]

theorem type_mem_elements_iff {schema : Schema} {type : TypeDecl} :
    .type type ∈ schema.elements ↔ type ∈ schema.types := by
  simp [elements]

/-- A name has an attribute exactly when one of the attributes bears it. -/
theorem findAttribute?_isSome_iff {entity : Entity} {name : String} :
    (entity.findAttribute? name).isSome ↔
      ∃ declared ∈ entity.attributes, Ident.same declared.id name :=
  List.find?_isSome

theorem findAttribute?_eq_none_iff {entity : Entity} {name : String} :
    entity.findAttribute? name = none ↔
      ∀ declared ∈ entity.attributes, ¬ Ident.same declared.id name := by
  simp [Entity.findAttribute?]

/-- A value is found exactly when the type lists values and one of them is it. -/
theorem findEnumValue?_isSome_iff {type : TypeDecl} {name : String} :
    (type.findEnumValue? name).isSome ↔
      ∃ values, type.enumValues = some values ∧ ∃ value ∈ values, Ident.same value name := by
  rw [TypeDecl.findEnumValue?, List.find?_isSome]
  cases type.enumValues with
  | none => simp
  | some values => simp

theorem findEnumValue?_eq_none_iff {type : TypeDecl} {values : List String} {name : String}
    (listed : type.enumValues = some values) :
    type.findEnumValue? name = none ↔ ∀ value ∈ values, ¬ Ident.same value name := by
  simp [TypeDecl.findEnumValue?, listed]

end ExpressLinks.Schema
