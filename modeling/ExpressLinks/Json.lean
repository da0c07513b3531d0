/-!
# JSON values

The values of a JSON document. A number is kept as far as documents use it: a
plain natural number, or the text of any other number. A string is its Unicode
text; a string that names half of a surrogate pair has none, which matters only
where the string is used. The members of an object are kept in order, repeated
names included.
-/

namespace ExpressLinks

/-- A value without parts. -/
inductive JsonAtom where
  | null
  | bool (value : Bool)
  | nat (value : Nat)
  /-- A number with a sign, a fraction or an exponent, as written. -/
  | number (lexeme : String)
  /-- A string; absent text stands for half a surrogate pair. -/
  | text (content : Option String)
  deriving DecidableEq, Repr

/-- A JSON value. -/
inductive Json where
  | atom (atom : JsonAtom)
  | array (items : List Json)
  | object (members : List (Option String × Json))
  deriving Repr

namespace Json

/-- The null value. -/
def null : Json := .atom .null

/-- A truth value. -/
def bool (value : Bool) : Json := .atom (.bool value)

/-- A natural number. -/
def nat (value : Nat) : Json := .atom (.nat value)

/-- A string with the given text. -/
def text (content : String) : Json := .atom (.text (some content))

/-- An object whose names are all text. -/
def ofMembers (members : List (String × Json)) : Json :=
  .object (members.map fun member => (some member.1, member.2))

end Json

end ExpressLinks
