import ExpressLinks.Schema.Builtin

/-!
# Schemas

A schema is a named collection of declarations: entities with attributes,
types that rename another type or list enumeration values, and five kinds of
declaration of which only the name matters here. Names need not be distinct; a
look-up answers with the first declaration that fits.
-/

namespace ExpressLinks

/-- An attribute of an entity, with the name of its type when it is known. -/
structure Attribute where
  id : String
  typeName : Option String := none
  deriving DecidableEq, Repr

/-- An entity with its own attributes and the names of its supertypes. -/
structure Entity where
  id : String
  attributes : List Attribute := []
  subtypeOf : List String := []
  deriving DecidableEq, Repr

/-- A type: a base type renames another type, enumeration values list what it
    may hold. A list without values is an enumeration, an absent one is not. -/
structure TypeDecl where
  id : String
  baseType : Option String := none
  enumValues : Option (List String) := none
  deriving DecidableEq, Repr

/-- A declaration of which only the name is known. -/
structure Declaration where
  id : String
  deriving DecidableEq, Repr

/-- The kinds of declaration a schema holds. -/
inductive ElementKind where
  | entity
  | type
  | constant
  | function
  | rule
  | procedure
  | subtypeConstraint
  deriving DecidableEq, Repr

/-- The kinds whose declarations have only a name. -/
inductive OpaqueKind where
  | constant
  | function
  | rule
  | procedure
  | subtypeConstraint
  deriving DecidableEq, Repr

/-- A schema and its declarations, each collection in order of declaration. -/
structure Schema where
  id : String
  entities : List Entity := []
  types : List TypeDecl := []
  constants : List Declaration := []
  functions : List Declaration := []
  rules : List Declaration := []
  procedures : List Declaration := []
  subtypeConstraints : List Declaration := []
  deriving DecidableEq, Repr

/-- A declaration together with the kind it was declared under. -/
inductive Element where
  | entity (entity : Entity)
  | type (type : TypeDecl)
  | named (kind : OpaqueKind) (declaration : Declaration)
  deriving DecidableEq, Repr

namespace OpaqueKind

/-- The same kind among all kinds. -/
def toElementKind : OpaqueKind → ElementKind
  | constant => .constant
  | function => .function
  | rule => .rule
  | procedure => .procedure
  | subtypeConstraint => .subtypeConstraint

end OpaqueKind

namespace ElementKind

/-- The order in which a name is looked for: an entity hides a type of the same
    name, a type hides a constant, and so on. -/
def searchOrder : List ElementKind :=
  [entity, type, constant, function, rule, procedure, subtypeConstraint]

/-- The kind as it reads in a sentence. -/
def description : ElementKind → String
  | entity => "entity"
  | type => "type"
  | constant => "constant"
  | function => "function"
  | rule => "rule"
  | procedure => "procedure"
  | subtypeConstraint => "subtype constraint"

/-- The kind as it is named in documents. -/
def name : ElementKind → String
  | subtypeConstraint => "subtype_constraint"
  | kind => kind.description

end ElementKind

namespace Element

/-- The name of the declaration. -/
def id : Element → String
  | entity e => e.id
  | type t => t.id
  | named _ d => d.id

/-- The kind of the declaration. -/
def kind : Element → ElementKind
  | entity _ => .entity
  | type _ => .type
  | named kind _ => kind.toElementKind

end Element

namespace Entity

/-- The first attribute of that name. -/
def findAttribute? (entity : Entity) (id : String) : Option Attribute :=
  entity.attributes.find? fun declared => Ident.same declared.id id

end Entity

namespace TypeDecl

/-- The first enumeration value of that name, as declared. -/
def findEnumValue? (type : TypeDecl) (id : String) : Option String :=
  (type.enumValues.getD []).find? fun value => Ident.same value id

end TypeDecl

namespace Schema

/-- The declarations of a kind. -/
def members (schema : Schema) : ElementKind → List Element
  | .entity => schema.entities.map .entity
  | .type => schema.types.map .type
  | .constant => schema.constants.map (.named .constant)
  | .function => schema.functions.map (.named .function)
  | .rule => schema.rules.map (.named .rule)
  | .procedure => schema.procedures.map (.named .procedure)
  | .subtypeConstraint => schema.subtypeConstraints.map (.named .subtypeConstraint)

/-- The number of declarations of all kinds. -/
def elementCount (schema : Schema) : Nat :=
  schema.entities.length + schema.types.length + schema.constants.length
    + schema.functions.length + schema.rules.length + schema.procedures.length
    + schema.subtypeConstraints.length

/-- The first declaration of that name among those of one kind. -/
def findIn? (schema : Schema) (kind : ElementKind) (id : String) : Option Element :=
  (schema.members kind).find? fun element => Ident.same element.id id

/-- The first declaration of that name, kinds in search order. -/
def findElement? (schema : Schema) (id : String) : Option Element :=
  ElementKind.searchOrder.findSome? fun kind => schema.findIn? kind id

/-- The first type of that name. -/
def findType? (schema : Schema) (id : String) : Option TypeDecl :=
  schema.types.find? fun type => Ident.same type.id id

/-- The first entity of that name. -/
def findEntity? (schema : Schema) (id : String) : Option Entity :=
  schema.entities.find? fun entity => Ident.same entity.id id

/-- A schema without declarations. -/
def empty (id : String) : Schema := { id := id }

/-- Declares one more entity. -/
def withEntity (schema : Schema) (entity : Entity) : Schema :=
  { schema with entities := schema.entities ++ [entity] }

/-- Declares one more type. -/
def withType (schema : Schema) (type : TypeDecl) : Schema :=
  { schema with types := schema.types ++ [type] }

/-- Declares one more name of the given kind. -/
def withDeclaration (schema : Schema) (kind : OpaqueKind) (id : String) : Schema :=
  match kind with
  | .constant => { schema with constants := schema.constants ++ [⟨id⟩] }
  | .function => { schema with functions := schema.functions ++ [⟨id⟩] }
  | .rule => { schema with rules := schema.rules ++ [⟨id⟩] }
  | .procedure => { schema with procedures := schema.procedures ++ [⟨id⟩] }
  | .subtypeConstraint =>
      { schema with subtypeConstraints := schema.subtypeConstraints ++ [⟨id⟩] }

end Schema

end ExpressLinks
