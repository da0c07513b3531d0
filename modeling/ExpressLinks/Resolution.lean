import ExpressLinks.Corpus
import ExpressLinks.Diagnostic
import ExpressLinks.Text.Split

/-!
# Resolving reference paths

A reference path is a dotted sequence of names: a schema, an element of it,
and a member of that element. An attribute of an entity and a value of an
enumeration are members; a type with a base type has the members of the type at
the end of its chain of base types. A path resolves when every name is found;
otherwise the resolution says which name failed and why, and quotes the path up
to that point with the schema and the element as they are declared.
-/

namespace ExpressLinks

/-- Why a path does not resolve. -/
inductive Reason where
  /-- No schema has the first name. -/
  | schemaNotFound (schema : String)
  /-- The schema declares nothing of the second name. -/
  | elementNotFound (element schema : String)
  /-- The entity has no attribute of that name. -/
  | attributeNotFound (name path : String)
  /-- The enumeration has no value of that name. -/
  | enumValueNotFound (value path : String)
  /-- The chain of base types leaves what the schema declares. -/
  | baseTypeNotFound (baseType path : String)
  /-- The chain of base types ends in a simple type. -/
  | builtinType (builtin : BuiltinType) (path : String)
  /-- The path goes on after an enumeration value. -/
  | enumValueLeaf (path : String)
  /-- The path goes on after something without members. -/
  | notNavigable (path : String)
  /-- The chain of base types does not end. -/
  | redirectionLimit (path : String) (limit : Nat)
  deriving DecidableEq, Repr

namespace Reason

/-- The code under which a reason is reported. -/
def code : Reason → DiagnosticCode
  | schemaNotFound .. => .linkSchemaNotFound
  | elementNotFound .. => .linkElementNotFound
  | attributeNotFound .. => .linkAttributeNotFound
  | enumValueNotFound .. => .linkEnumValueNotFound
  | baseTypeNotFound .. => .linkBaseTypeNotFound
  | builtinType .. => .linkBuiltinTypeLeaf
  | enumValueLeaf .. => .linkEnumValueLeaf
  | notNavigable .. => .linkNotNavigable
  | redirectionLimit .. => .linkRedirectionLimit

/-- The reason as a sentence. -/
def message : Reason → String
  | schemaNotFound schema => s!"Schema '{schema}' not found"
  | elementNotFound element schema => s!"Element '{element}' not found in schema '{schema}'"
  | attributeNotFound name path => s!"Attribute '{name}' not found in entity '{path}'"
  | enumValueNotFound value path => s!"Enumeration value '{value}' not found in type '{path}'"
  | baseTypeNotFound _ path => s!"Base type not found for '{path}'"
  | builtinType builtin path =>
      s!"Cannot navigate deeper from built-in type '{builtin.keyword}' at '{path}'"
  | enumValueLeaf path => s!"Cannot navigate deeper from enumeration value '{path}'"
  | notNavigable path => s!"Cannot navigate deeper from '{path}'"
  | redirectionLimit path limit =>
      s!"Cannot navigate deeper from '{path}': base type chain exceeds {limit} redirections"

end Reason

/-- The outcome for one path; segments count from zero. -/
inductive Resolution where
  | resolved
  | unresolved (segment : Nat) (reason : Reason)
  deriving DecidableEq, Repr

namespace Resolution

/-- Did every name of the path resolve? -/
def isResolved : Resolution → Bool
  | resolved => true
  | unresolved .. => false

end Resolution

/-- What the base type of a type refers to. -/
inductive BaseReference where
  | absent
  | builtin (builtin : BuiltinType)
  | named (name : String)
  deriving DecidableEq, Repr

/-- Where a chain of base types ends. -/
inductive ChainEnd where
  /-- A type that lists values. -/
  | enumeration (type : TypeDecl)
  /-- A type that neither lists values nor has a base type. -/
  | bare
  /-- A simple type. -/
  | builtin (builtin : BuiltinType)
  /-- A base type that the schema does not declare. -/
  | undeclared (name : String)
  /-- The chain is longer than the number of types, so it goes in a circle. -/
  | endless
  deriving DecidableEq, Repr

namespace TypeDecl

/-- Reads the base type: a keyword is a simple type, anything else a name. -/
def base (type : TypeDecl) : BaseReference :=
  match type.baseType with
  | none => .absent
  | some name =>
      match BuiltinType.ofKeyword? name with
      | some builtin => .builtin builtin
      | none => .named name

end TypeDecl

namespace Schema

/-- Follows at most `budget` base types by name. -/
def chainEnd (schema : Schema) (budget : Nat) (type : TypeDecl) : ChainEnd :=
  match type.base with
  | .absent => if type.enumValues.isSome then .enumeration type else .bare
  | .builtin builtin => .builtin builtin
  | .named name =>
      match budget with
      | 0 => .endless
      | budget + 1 =>
          match schema.findType? name with
          | none => .undeclared name
          | some target => schema.chainEnd budget target

/-- Extends a quoted path by a name. -/
def extendPath (path name : String) : String := s!"{path}.{name}"

/-- Looks up the segments from the third on below an element; `path` quotes the
    segments before them. A chain of base types that meets no type twice has at
    most as many steps as the schema has types. -/
def resolveMember (schema : Schema) (element : Element) (path : String) :
    List String → Resolution
  | [] => .resolved
  | name :: rest =>
      match element with
      | .entity entity =>
          match entity.findAttribute? name, rest with
          | none, _ => .unresolved 2 (.attributeNotFound name path)
          | some _, [] => .resolved
          | some _, _ :: _ => .unresolved 3 (.notNavigable (extendPath path name))
      | .type type =>
          match schema.chainEnd schema.types.length type with
          | .builtin builtin => .unresolved 2 (.builtinType builtin path)
          | .endless => .unresolved 2 (.redirectionLimit path schema.types.length)
          | .undeclared base => .unresolved 2 (.baseTypeNotFound base path)
          | .bare => .unresolved 2 (.notNavigable path)
          | .enumeration last =>
              match last.findEnumValue? name, rest with
              | none, _ => .unresolved 2 (.enumValueNotFound name path)
              | some _, [] => .resolved
              | some _, _ :: _ => .unresolved 2 (.enumValueLeaf (extendPath path name))
      | .named _ _ => .unresolved 2 (.notNavigable path)

/-- The element that a second segment names; an empty segment names nothing. -/
def referencedElement? (schema : Schema) (name : String) : Option Element :=
  if name = "" then none else schema.findElement? name

end Schema

namespace Corpus

/-- Resolves the segments of a path. -/
def resolveSegments (corpus : Corpus) : List String → Resolution
  | [] => .resolved
  | schemaName :: rest =>
      match corpus.lookup? schemaName with
      | none => .unresolved 0 (.schemaNotFound schemaName)
      | some schema =>
          match rest with
          | [] => .resolved
          | elementName :: members =>
              match schema.referencedElement? elementName with
              | none => .unresolved 1 (.elementNotFound elementName schemaName)
              | some element =>
                  schema.resolveMember element (Schema.extendPath schema.id element.id) members

/-- The segments of a reference path. -/
def pathSegments (path : String) : List String := Text.splitString '.' path

/-- Resolves a reference path. -/
def resolve (corpus : Corpus) (path : String) : Resolution :=
  corpus.resolveSegments (pathSegments path)

end Corpus

end ExpressLinks
