import ExpressLinks.Yaml.Value

/-!
# Values in messages

A value in a message is written with its kind in front: `Number(1)`,
`Sequence [String("a")]`. Text stands between double quotes, with escapes for
quotes, backslashes and characters that show nothing of their own. In a mapping,
keys that are text, numbers or truth values stand without their kind.
-/

namespace ExpressLinks.Yaml

/-- Characters that show nothing of their own: controls, blanks other than the
    space, format characters, private use and marks that combine with what
    stands before. -/
def hiddenRanges : List (Nat × Nat) :=
  [(0x00, 0x1F), (0x7F, 0xA0), (0xAD, 0xAD), (0x300, 0x36F), (0x483, 0x489), (0x591, 0x5BD),
   (0x600, 0x605), (0x610, 0x61A), (0x61C, 0x61C), (0x64B, 0x65F), (0x6DD, 0x6DD),
   (0x70F, 0x70F), (0x1680, 0x1680), (0x180B, 0x180F), (0x1AB0, 0x1ACE), (0x1DC0, 0x1DFF),
   (0x2000, 0x200F), (0x2028, 0x202F), (0x205F, 0x206F), (0x20D0, 0x20F0), (0x3000, 0x3000),
   (0x302A, 0x302F), (0x3099, 0x309A), (0xE000, 0xF8FF), (0xFE00, 0xFE0F), (0xFE20, 0xFE2F),
   (0xFEFF, 0xFEFF), (0xFF9E, 0xFF9F), (0xFFF0, 0xFFFB), (0xFFFE, 0xFFFF),
   (0xE0000, 0x10FFFF)]

/-- Does the character show nothing of its own? -/
def isHidden (c : Char) : Bool :=
  hiddenRanges.any fun range => range.1 ≤ c.toNat && c.toNat ≤ range.2

/-- A character inside quoted text. -/
def shownChar (c : Char) : List Char :=
  if c = '\x00' then ['\\', '0']
  else if c = '\t' then ['\\', 't']
  else if c = '\r' then ['\\', 'r']
  else if c = '\n' then ['\\', 'n']
  else if c = '"' then ['\\', '"']
  else if c = '\\' then ['\\', '\\']
  else if isHidden c then
    ['\\', 'u', '\x7b'] ++ (Nat.toDigits 16 c.toNat) ++ ['\x7d']
  else [c]

/-- Quoted text. -/
def shownText (text : String) : String :=
  String.ofList ('"' :: text.toList.flatMap shownChar ++ ['"'])

namespace Value

mutual

/-- The value with its kind in front. -/
def describe : Value → String
  | .null => "Null"
  | .bool value => s!"Bool({value})"
  | .int value => s!"Number({value})"
  | .float value => s!"Number({value.describe})"
  | .text content => "String(" ++ shownText content ++ ")"
  | .sequence items => "Sequence [" ++ ", ".intercalate (describeItems items) ++ "]"
  | .mapping entries => "Mapping \x7b" ++ ", ".intercalate (describeEntries entries) ++ "\x7d"
  | .tagged tag value =>
      "TaggedValue \x7b tag: !" ++ tag ++ ", value: " ++ describe value ++ " \x7d"

/-- The items of a sequence. -/
def describeItems : List Value → List String
  | [] => []
  | item :: items => describe item :: describeItems items

/-- The entries of a mapping. -/
def describeEntries : List (Value × Value) → List String
  | [] => []
  | (key, value) :: entries =>
      (describeKey key ++ ": " ++ describe value) :: describeEntries entries

/-- A key of a mapping. -/
def describeKey : Value → String
  | .bool value => s!"{value}"
  | .int value => s!"{value}"
  | .float value => value.describe
  | .text content => shownText content
  | key => describe key

end

end Value

end ExpressLinks.Yaml
