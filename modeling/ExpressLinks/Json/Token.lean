import ExpressLinks.Json
import ExpressLinks.Text.Digits

/-!
# JSON tokens

The lexical level of JSON: punctuation, strings, numbers and the three words.
Blanks are space, tab, carriage return and line feed. A string refuses raw
control characters and unknown escapes. `Json.tokens?` cuts a whole text.
-/

namespace ExpressLinks

/-- A token of a JSON text. -/
inductive JsonToken where
  | arrayOpen
  | arrayClose
  | objectOpen
  | objectClose
  | comma
  | colon
  | atom (atom : JsonAtom)
  deriving DecidableEq, Repr

namespace Json

/-- A piece of a string: a character, or a 16-bit unit written as an escape. -/
inductive StringUnit where
  | char (c : Char)
  | code (unit : Nat)
  deriving DecidableEq, Repr

/-- Blanks between tokens. -/
def isSpace (c : Char) : Bool := c == ' ' || c == '\t' || c == '\n' || c == '\r'

/-- The character of a two-character escape. -/
def simpleEscape? : Char → Option Char
  | '"' => some '"'
  | '\\' => some '\\'
  | '/' => some '/'
  | 'b' => some '\x08'
  | 'f' => some '\x0c'
  | 'n' => some '\n'
  | 'r' => some '\r'
  | 't' => some '\t'
  | _ => none

/-- Reads the rest of a string after its opening quote, up to and including its
    closing quote. -/
def readUnits? : List Char → Option (List StringUnit × List Char)
  | [] => none
  | '"' :: rest => some ([], rest)
  | '\\' :: 'u' :: a :: b :: c :: d :: rest => do
      let unit ← Text.readHex? [a, b, c, d]
      let (units, rest) ← readUnits? rest
      some (.code unit :: units, rest)
  | '\\' :: e :: rest => do
      let c ← simpleEscape? e
      let (units, rest) ← readUnits? rest
      some (.char c :: units, rest)
  | c :: rest =>
      if c.toNat < 0x20 || c == '\\' then none
      else do
        let (units, rest) ← readUnits? rest
        some (.char c :: units, rest)

/-- The text of a string. Two escaped units that form a surrogate pair are one
    character; half a pair makes the string no text. -/
def unitsText? : List StringUnit → Option (List Char)
  | [] => some []
  | .char c :: rest => (unitsText? rest).map (c :: ·)
  | .code high :: .code low :: rest =>
      if 0xD800 ≤ high ∧ high < 0xDC00 then
        if 0xDC00 ≤ low ∧ low < 0xE000 then
          (unitsText? rest).map
            (Char.ofNat (0x10000 + (high - 0xD800) * 0x400 + (low - 0xDC00)) :: ·)
        else none
      else if 0xDC00 ≤ high ∧ high < 0xE000 then none
      else (unitsText? (.code low :: rest)).map (Char.ofNat high :: ·)
  | .code unit :: rest =>
      if 0xD800 ≤ unit ∧ unit < 0xE000 then none
      else (unitsText? rest).map (Char.ofNat unit :: ·)

/-- One or more digits, and what follows them. -/
def readDigits? (text : List Char) : Option (List Char × List Char) :=
  match text.takeWhile Text.isDigit with
  | [] => none
  | digits => some (digits, text.dropWhile Text.isDigit)

/-- The integer part of a number: a zero, or digits that start with no zero. -/
def readInteger? : List Char → Option (List Char × List Char)
  | '0' :: rest => some (['0'], rest)
  | text => readDigits? text

/-- The fraction of a number, if there is one. -/
def readFraction? : List Char → Option (List Char × List Char)
  | '.' :: rest => (readDigits? rest).map fun (digits, rest) => ('.' :: digits, rest)
  | text => some ([], text)

/-- The digits of an exponent, with their sign. -/
def readSigned? : List Char → Option (List Char × List Char)
  | '+' :: rest => (readDigits? rest).map fun (digits, rest) => ('+' :: digits, rest)
  | '-' :: rest => (readDigits? rest).map fun (digits, rest) => ('-' :: digits, rest)
  | text => readDigits? text

/-- The exponent of a number, if there is one. -/
def readExponent? : List Char → Option (List Char × List Char)
  | 'e' :: rest => (readSigned? rest).map fun (digits, rest) => ('e' :: digits, rest)
  | 'E' :: rest => (readSigned? rest).map fun (digits, rest) => ('E' :: digits, rest)
  | text => some ([], text)

/-- A number: sign, integer part, fraction and exponent. -/
def readNumber? (text : List Char) : Option (JsonAtom × List Char) := do
  let (sign, text) := match text with
    | '-' :: rest => (['-'], rest)
    | text => ([], text)
  let (integer, text) ← readInteger? text
  let (fraction, text) ← readFraction? text
  let (exponent, text) ← readExponent? text
  if sign = [] ∧ fraction = [] ∧ exponent = [] then
    let value ← Text.readDecimal? integer
    some (.nat value, text)
  else some (.number (String.ofList (sign ++ integer ++ fraction ++ exponent)), text)

/-- Reads the token that starts the text. -/
def nextToken? : List Char → Option (JsonToken × List Char)
  | '[' :: rest => some (.arrayOpen, rest)
  | ']' :: rest => some (.arrayClose, rest)
  | '\x7b' :: rest => some (.objectOpen, rest)
  | '\x7d' :: rest => some (.objectClose, rest)
  | ',' :: rest => some (.comma, rest)
  | ':' :: rest => some (.colon, rest)
  | '"' :: rest => do
      let (units, rest) ← readUnits? rest
      some (.atom (.text ((unitsText? units).map String.ofList)), rest)
  | 'n' :: 'u' :: 'l' :: 'l' :: rest => some (.atom .null, rest)
  | 't' :: 'r' :: 'u' :: 'e' :: rest => some (.atom (.bool true), rest)
  | 'f' :: 'a' :: 'l' :: 's' :: 'e' :: rest => some (.atom (.bool false), rest)
  | text => (readNumber? text).map fun (number, rest) => (.atom number, rest)

/-- Cuts a text into tokens, at most `fuel` steps for as many characters. -/
def tokensWithin? : Nat → List Char → Option (List JsonToken)
  | _, [] => some []
  | 0, _ :: _ => none
  | fuel + 1, c :: cs =>
      if isSpace c then tokensWithin? fuel cs
      else
        match nextToken? (c :: cs) with
        | none => none
        | some (token, rest) => (tokensWithin? fuel rest).map (token :: ·)

/-- The tokens of a text. Every step takes at least one character, so there are
    at most as many steps as characters. -/
def tokens? (text : List Char) : Option (List JsonToken) := tokensWithin? text.length text

end Json

end ExpressLinks
