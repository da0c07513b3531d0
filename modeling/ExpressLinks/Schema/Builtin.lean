import ExpressLinks.Ident
import ExpressLinks.Text.Blank

/-!
# Simple types

The seven simple types that EXPRESS gives names to. A base type that spells
one of them, in any letter case and with blanks around it, refers to the simple
type and not to a declaration.
-/

namespace ExpressLinks

/-- The simple types of EXPRESS. -/
inductive BuiltinType where
  | integer
  | real
  | string
  | boolean
  | number
  | binary
  | logical
  deriving DecidableEq, Repr

namespace BuiltinType

/-- Every simple type. -/
def all : List BuiltinType := [integer, real, string, boolean, number, binary, logical]

/-- The keyword of a simple type. -/
def keyword : BuiltinType → String
  | integer => "INTEGER"
  | real => "REAL"
  | string => "STRING"
  | boolean => "BOOLEAN"
  | number => "NUMBER"
  | binary => "BINARY"
  | logical => "LOGICAL"

/-- The simple type a base type spells, blanks around it aside. -/
def ofKeyword? (text : String) : Option BuiltinType :=
  let word := String.ofList (Text.trimBlank text.toList)
  all.find? fun builtin => Ident.same word builtin.keyword

end BuiltinType

end ExpressLinks
