import ExpressLinks.Json.Token

/-!
# Reading JSON

Tokens are put together from left to right; the arrays and objects that are
still open wait on a stack, so that values may nest to any depth. A text is one
value with nothing after it.
-/

namespace ExpressLinks.Json

/-- An array or object that is still open, its parts so far last first. A member
    waits for the value of its name. -/
inductive Frame where
  | array (items : List Json)
  | member (members : List (Option String × Json)) (name : Option String)
  deriving Repr

/-- What may come next. -/
inductive Expect where
  /-- A value. -/
  | value
  /-- A value or the end of an array without items. -/
  | item
  /-- A name, or the end of an object without members. -/
  | firstName
  /-- A name, after these members. -/
  | name (members : List (Option String × Json))
  /-- A colon and a value for the name, after these members. -/
  | colon (members : List (Option String × Json)) (name : Option String)
  /-- A comma or an end, after this value. -/
  | more (value : Json)
  deriving Repr

/-- Reads the tokens that complete the open arrays and objects. -/
def build : Expect → List Frame → List JsonToken → Option Json
  | .more value, [], [] => some value
  | _, _, [] => none
  | .value, stack, token :: rest =>
      match token with
      | .atom a => build (.more (.atom a)) stack rest
      | .arrayOpen => build .item stack rest
      | .objectOpen => build .firstName stack rest
      | _ => none
  | .item, stack, token :: rest =>
      match token with
      | .atom a => build (.more (.atom a)) (.array [] :: stack) rest
      | .arrayOpen => build .item (.array [] :: stack) rest
      | .objectOpen => build .firstName (.array [] :: stack) rest
      | .arrayClose => build (.more (.array [])) stack rest
      | _ => none
  | .firstName, stack, token :: rest =>
      match token with
      | .atom (.text name) => build (.colon [] name) stack rest
      | .objectClose => build (.more (.object [])) stack rest
      | _ => none
  | .name members, stack, token :: rest =>
      match token with
      | .atom (.text name) => build (.colon members name) stack rest
      | _ => none
  | .colon members name, stack, token :: rest =>
      match token with
      | .colon => build .value (.member members name :: stack) rest
      | _ => none
  | .more value, stack, token :: rest =>
      match stack, token with
      | .array items :: stack, .comma => build .value (.array (value :: items) :: stack) rest
      | .array items :: stack, .arrayClose =>
          build (.more (.array (value :: items).reverse)) stack rest
      | .member members name :: stack, .comma =>
          build (.name ((name, value) :: members)) stack rest
      | .member members name :: stack, .objectClose =>
          build (.more (.object ((name, value) :: members).reverse)) stack rest
      | _, _ => none

/-- The value that a text writes. -/
def read? (text : List Char) : Option Json := do
  let tokens ← tokens? text
  build .value [] tokens

end ExpressLinks.Json
