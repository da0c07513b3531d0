import ExpressLinks.Json

/-!
# Decoding JSON

Records are decoded from objects, with members in any order and unknown names
skipped, or from arrays that list the fields in order of declaration. A known
name given twice is refused, and so is an array with too many items. A field
is required, optional, or has a default; an optional field without a default
may be absent from an object but not from an array.
-/

namespace ExpressLinks.Json

/-- The fields of a record by name, and whether they came in an array. -/
structure Fields where
  positional : Bool
  values : List (String × Json)
  deriving Repr

/-- Are the known names in the list pairwise different? -/
def distinctNames (known : List String) : List (String × Json) → Bool
  | [] => true
  | (name, _) :: rest =>
      !(known.contains name && rest.any (·.1 == name)) && distinctNames known rest

/-- The members of an object whose names are all text. -/
def namedMembers? : List (Option String × Json) → Option (List (String × Json))
  | [] => some []
  | (none, _) :: _ => none
  | (some name, value) :: rest => (namedMembers? rest).map ((name, value) :: ·)

/-- The fields of a record with the given names. -/
def fields? (known : List String) : Json → Option Fields
  | .object members => do
      let named ← namedMembers? members
      if distinctNames known named then some ⟨false, named⟩ else none
  | .array items =>
      if items.length ≤ known.length then some ⟨true, known.zip items⟩ else none
  | .atom _ => none

namespace Fields

variable {α : Type}

/-- The value given for a field. -/
def find? (fields : Fields) (name : String) : Option Json := fields.values.lookup name

/-- A field that must be there. -/
def required (fields : Fields) (name : String) (decode : Json → Option α) : Option α :=
  (fields.find? name).bind decode

/-- A field that is decoded if it is there and has a default otherwise. -/
def withDefault (fields : Fields) (name : String) (decode : Json → Option α) (default : α) :
    Option α :=
  match fields.find? name with
  | none => some default
  | some value => decode value

/-- Null for an absent value, anything else decoded. -/
def nullable (decode : Json → Option α) : Json → Option (Option α)
  | .atom .null => some none
  | value => (decode value).map some

/-- A field that may be null or missing. -/
def optional (fields : Fields) (name : String) (decode : Json → Option α) :
    Option (Option α) :=
  fields.withDefault name (nullable decode) none

/-- A field that may be null, and missing from an object but not from an array. -/
def optionalInPlace (fields : Fields) (name : String) (decode : Json → Option α) :
    Option (Option α) :=
  match fields.find? name with
  | none => if fields.positional then none else some none
  | some value => nullable decode value

end Fields

section Values

variable {α : Type}

/-- A string that is text. -/
def asText? : Json → Option String
  | .atom (.text content) => content
  | _ => none

/-- A string of exactly one character. -/
def asChar? (value : Json) : Option Char := do
  match (← asText? value).toList with
  | [c] => some c
  | _ => none

/-- A plain natural number below `bound`. -/
def asNatBelow? (bound : Nat) : Json → Option Nat
  | .atom (.nat value) => if value < bound then some value else none
  | _ => none

/-- A counter: a natural number of at most 64 bits. -/
def asCounter? : Json → Option Nat := asNatBelow? UInt64.size

/-- The items of an array, each decoded. -/
def asList? (decode : Json → Option α) : Json → Option (List α)
  | .array items => items.mapM decode
  | _ => none

/-- A value of an enumeration: its name, or an object whose only member has that
    name and is null. -/
def asOneOf? (values : List α) (name : α → String) : Json → Option α
  | .atom (.text (some word)) => values.find? (name · == word)
  | .object [(some word, .atom .null)] => values.find? (name · == word)
  | _ => none

end Values

/-- A value, or null when there is none. -/
def ofOption {α : Type} (encode : α → Json) : Option α → Json
  | none => null
  | some value => encode value

/-- A member that is left out when there is no value. -/
def memberIfSome {α : Type} (name : String) (encode : α → Json) :
    Option α → List (String × Json)
  | none => []
  | some value => [(name, encode value)]

/-- An array of encoded values. -/
def ofList {α : Type} (encode : α → Json) (values : List α) : Json :=
  .array (values.map encode)

end ExpressLinks.Json
