import ExpressLinks.FilePath
import ExpressLinks.Json.Decode
import ExpressLinks.Json.Print
import ExpressLinks.Json.Read
import ExpressLinks.Schema

/-!
# Schema documents

A schema document is a JSON text that lists schemas under the name `schemas`.
Collections that a schema does not have may be left out, and so may the type of
an attribute, the base type of a type and its enumeration values. An empty list
of enumeration values is not the same as none.
-/

namespace ExpressLinks

namespace BuiltinType

/-- A simple type in a document. -/
def toJson (builtin : BuiltinType) : Json := .text builtin.keyword

/-- Reads a simple type, written exactly as its keyword. -/
def ofJson? : Json → Option BuiltinType := Json.asOneOf? all keyword

end BuiltinType

namespace ElementKind

/-- A kind in a document. -/
def toJson (kind : ElementKind) : Json := .text kind.name

/-- Reads a kind. -/
def ofJson? : Json → Option ElementKind := Json.asOneOf? searchOrder name

end ElementKind

namespace Attribute

/-- An attribute in a document. -/
def toJson (attr : Attribute) : Json :=
  .ofMembers (("id", .text attr.id) :: Json.memberIfSome "type" .text attr.typeName)

/-- Reads an attribute. -/
def ofJson? (json : Json) : Option Attribute := do
  let fields ← Json.fields? ["id", "type"] json
  let id ← fields.required "id" Json.asText?
  let typeName ← fields.optional "type" Json.asText?
  some { id, typeName }

end Attribute

namespace Entity

/-- An entity in a document. -/
def toJson (entity : Entity) : Json :=
  .ofMembers
    [("id", .text entity.id),
     ("attributes", Json.ofList Attribute.toJson entity.attributes),
     ("subtype_of", Json.ofList .text entity.subtypeOf)]

/-- Reads an entity. -/
def ofJson? (json : Json) : Option Entity := do
  let fields ← Json.fields? ["id", "attributes", "subtype_of"] json
  let id ← fields.required "id" Json.asText?
  let attributes ← fields.withDefault "attributes" (Json.asList? Attribute.ofJson?) []
  let subtypeOf ← fields.withDefault "subtype_of" (Json.asList? Json.asText?) []
  some { id, attributes, subtypeOf }

end Entity

namespace TypeDecl

/-- A type in a document. -/
def toJson (type : TypeDecl) : Json :=
  .ofMembers
    (("id", .text type.id) :: Json.memberIfSome "base_type" .text type.baseType
      ++ Json.memberIfSome "enum_values" (Json.ofList .text) type.enumValues)

/-- Reads a type. -/
def ofJson? (json : Json) : Option TypeDecl := do
  let fields ← Json.fields? ["id", "base_type", "enum_values"] json
  let id ← fields.required "id" Json.asText?
  let baseType ← fields.optional "base_type" Json.asText?
  let enumValues ← fields.optional "enum_values" (Json.asList? Json.asText?)
  some { id, baseType, enumValues }

end TypeDecl

namespace Declaration

/-- A bare declaration in a document. -/
def toJson (declaration : Declaration) : Json := .ofMembers [("id", .text declaration.id)]

/-- Reads a bare declaration. -/
def ofJson? (json : Json) : Option Declaration := do
  let fields ← Json.fields? ["id"] json
  let id ← fields.required "id" Json.asText?
  some { id }

end Declaration

namespace Element

/-- The declaration in a document, without its kind. -/
def toJson : Element → Json
  | entity e => e.toJson
  | type t => t.toJson
  | named _ d => d.toJson

end Element

namespace Schema

/-- The names of the fields of a schema, in order. -/
def fieldNames : List String :=
  ["id", "entities", "types", "constants", "functions", "rules", "procedures",
   "subtype_constraints"]

/-- A schema in a document. -/
def toJson (schema : Schema) : Json :=
  .ofMembers
    [("id", .text schema.id),
     ("entities", Json.ofList Entity.toJson schema.entities),
     ("types", Json.ofList TypeDecl.toJson schema.types),
     ("constants", Json.ofList Declaration.toJson schema.constants),
     ("functions", Json.ofList Declaration.toJson schema.functions),
     ("rules", Json.ofList Declaration.toJson schema.rules),
     ("procedures", Json.ofList Declaration.toJson schema.procedures),
     ("subtype_constraints", Json.ofList Declaration.toJson schema.subtypeConstraints)]

/-- Reads a schema. -/
def ofJson? (json : Json) : Option Schema := do
  let fields ← Json.fields? fieldNames json
  let declared := fun name => fields.withDefault name (Json.asList? Declaration.ofJson?) []
  let id ← fields.required "id" Json.asText?
  let entities ← fields.withDefault "entities" (Json.asList? Entity.ofJson?) []
  let types ← fields.withDefault "types" (Json.asList? TypeDecl.ofJson?) []
  let constants ← declared "constants"
  let functions ← declared "functions"
  let rules ← declared "rules"
  let procedures ← declared "procedures"
  let subtypeConstraints ← declared "subtype_constraints"
  some { id, entities, types, constants, functions, rules, procedures, subtypeConstraints }

end Schema

namespace SchemaDocument

/-- The extension of documents as configured, without points in front. -/
def bareExtension (extension : String) : String :=
  String.ofList (extension.toList.dropWhile (· == '.'))

/-- The path of the document that belongs to an EXPRESS file: beside it, under
    the extension of documents. A path that has that extension already, letter
    case aside, is the document itself. -/
def pathFor (extension path : String) : String :=
  let wanted := bareExtension extension
  if (FilePath.extension? path).any (Ident.same · wanted) then path
  else FilePath.withExtension path wanted

/-- The schemas of a document. -/
def ofJson? (json : Json) : Option (List Schema) := do
  let fields ← Json.fields? ["schemas"] json
  fields.withDefault "schemas" (Json.asList? Schema.ofJson?) []

/-- A document that lists the schemas. -/
def toJson (schemas : List Schema) : Json :=
  .ofMembers [("schemas", Json.ofList Schema.toJson schemas)]

/-- Reads the text of a document. -/
def parse? (text : List Char) : Option (List Schema) := (Json.read? text).bind ofJson?

end SchemaDocument

end ExpressLinks
