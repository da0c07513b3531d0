import ExpressLinks.Json
import ExpressLinks.Text.Digits

/-!
# Writing JSON

Values are written on one line, or with one item or member to a line, indented
by two spaces for each level; an array or object without parts stays on one
line. In a string quotes, backslashes and control characters are escaped, the
latter with two characters where there is such an escape, else as four small
hexadecimal digits; all else is written as it is.
-/

namespace ExpressLinks.Json

/-- A character of a string. -/
def escapeChar (c : Char) : List Char :=
  if c = '"' then ['\\', '"']
  else if c = '\\' then ['\\', '\\']
  else if c = '\x08' then ['\\', 'b']
  else if c = '\x0c' then ['\\', 'f']
  else if c = '\n' then ['\\', 'n']
  else if c = '\r' then ['\\', 'r']
  else if c = '\t' then ['\\', 't']
  else if c.toNat < 0x20 then '\\' :: 'u' :: (Text.hexDigits 4 c.toNat).map Char.toLower
  else [c]

/-- A string between quotes. Half a surrogate pair is written as its first
    possible unit. -/
def quoted (content : Option String) : List Char :=
  match content with
  | some text => '"' :: text.toList.flatMap escapeChar ++ ['"']
  | none => "\"\\ud800\"".toList

/-- A value without parts. -/
def atomChars : JsonAtom → List Char
  | .null => "null".toList
  | .bool true => "true".toList
  | .bool false => "false".toList
  | .nat value => Text.decimal value
  | .number lexeme => lexeme.toList
  | .text content => quoted content

mutual

/-- The value on one line, without blanks. -/
def compactChars : Json → List Char
  | .atom a => atomChars a
  | .array items => '[' :: compactItems true items
  | .object members => '\x7b' :: compactMembers true members

/-- The items from here on and the end of the array. -/
def compactItems (first : Bool) : List Json → List Char
  | [] => [']']
  | item :: rest => (if first then [] else [',']) ++ compactChars item ++ compactItems false rest

/-- The members from here on and the end of the object. -/
def compactMembers (first : Bool) : List (Option String × Json) → List Char
  | [] => ['\x7d']
  | (name, value) :: rest =>
      (if first then [] else [',']) ++ quoted name ++ [':'] ++ compactChars value
        ++ compactMembers false rest

end

/-- A line feed and the indentation of a level. -/
def newLine (level : Nat) : List Char := '\n' :: List.replicate (2 * level) ' '

mutual

/-- The value with one part to a line, where `level` counts the arrays and
    objects around it. -/
def prettyChars (level : Nat) : Json → List Char
  | .atom a => atomChars a
  | .array items => '[' :: prettyItems level true items
  | .object members => '\x7b' :: prettyMembers level true members

/-- The items from here on and the end of the array. -/
def prettyItems (level : Nat) (first : Bool) : List Json → List Char
  | [] => (if first then [] else newLine level) ++ [']']
  | item :: rest =>
      (if first then [] else [',']) ++ newLine (level + 1) ++ prettyChars (level + 1) item
        ++ prettyItems level false rest

/-- The members from here on and the end of the object. -/
def prettyMembers (level : Nat) (first : Bool) : List (Option String × Json) → List Char
  | [] => (if first then [] else newLine level) ++ ['\x7d']
  | (name, value) :: rest =>
      (if first then [] else [',']) ++ newLine (level + 1) ++ quoted name ++ [':', ' ']
        ++ prettyChars (level + 1) value ++ prettyMembers level false rest

end

/-- The value on one line. -/
def compact (value : Json) : String := String.ofList (compactChars value)

/-- The value with one part to a line and no line feed at the end. -/
def pretty (value : Json) : String := String.ofList (prettyChars 0 value)

end ExpressLinks.Json
