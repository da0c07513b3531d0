import ExpressLinks.Text.Digits
import ExpressLinks.Text.Split
import ExpressLinks.Toml.Value

/-!
# TOML scalars

Strings stand between double quotes, with escapes, or between single quotes,
without; three quotes on either side let them run over several lines. Everything
else is one word: a truth value, an integer of 64 bits, a number with fraction
or exponent, or a date and time.
-/

namespace ExpressLinks.Toml

/-- Space and tab. -/
def isSpace (c : Char) : Bool := c == ' ' || c == '\t'

/-- May the character stand in a comment or string? Control characters other
    than tab may not. -/
def isText (c : Char) : Bool := c == '\t' || (0x20 ≤ c.toNat && c != '\x7f')

section Strings

/-- The character of a two-character escape. -/
def simpleEscape? : Char → Option Char
  | 'b' => some '\x08'
  | 't' => some '\t'
  | 'n' => some '\n'
  | 'f' => some '\x0c'
  | 'r' => some '\r'
  | '"' => some '"'
  | '\\' => some '\\'
  | _ => none

/-- The character with the code point of these hexadecimal digits. -/
def coded? (digits : List Char) : Option Char := do
  let value ← Text.readHex? digits
  if (0xD800 ≤ value ∧ value ≤ 0xDFFF) ∨ 0x10FFFF < value then none else some (Char.ofNat value)

/-- A string's text with something in front. -/
def prepend (text : List Char) : Option (List Char × List Char) → Option (List Char × List Char)
  | none => none
  | some (more, rest) => some (text ++ more, rest)

/-- Reads to the closing double quote. -/
def basicText? : List Char → Option (List Char × List Char)
  | [] => none
  | '"' :: rest => some ([], rest)
  | '\\' :: 'u' :: a :: b :: c :: d :: rest =>
      match coded? [a, b, c, d] with
      | none => none
      | some char => prepend [char] (basicText? rest)
  | '\\' :: 'U' :: a :: b :: c :: d :: e :: f :: g :: h :: rest =>
      match coded? [a, b, c, d, e, f, g, h] with
      | none => none
      | some char => prepend [char] (basicText? rest)
  | '\\' :: e :: rest =>
      match simpleEscape? e with
      | none => none
      | some char => prepend [char] (basicText? rest)
  | c :: rest => if isText c && c != '\\' then prepend [c] (basicText? rest) else none

/-- Where the reading of a string over several lines stands. -/
inductive Joining where
  /-- In its text. -/
  | none
  /-- After a backslash and blanks: the end of a line must come. -/
  | line
  /-- After that end: all blanks and ends of lines count for nothing. -/
  | blanks
  deriving DecidableEq, Repr

/-- Reads to the three closing double quotes, which one or two quotes of the
    text may precede. -/
def longBasicText? (joining : Joining) : List Char → Option (List Char × List Char)
  | [] => none
  | '\r' :: '\n' :: rest =>
      if joining = .none then prepend ['\n'] (longBasicText? .none rest)
      else longBasicText? .blanks rest
  | '\n' :: rest =>
      if joining = .none then prepend ['\n'] (longBasicText? .none rest)
      else longBasicText? .blanks rest
  | c :: rest =>
      if joining ≠ .none ∧ isSpace c then longBasicText? joining rest
      else if joining = .line then none
      else
        match c, rest with
        | '"', '"' :: '"' :: '"' :: '"' :: rest => some (['"', '"'], rest)
        | '"', '"' :: '"' :: '"' :: rest => some (['"'], rest)
        | '"', '"' :: '"' :: rest => some ([], rest)
        | '\\', 'u' :: a :: b :: c :: d :: rest =>
            match coded? [a, b, c, d] with
            | none => none
            | some char => prepend [char] (longBasicText? .none rest)
        | '\\', 'U' :: a :: b :: c :: d :: e :: f :: g :: h :: rest =>
            match coded? [a, b, c, d, e, f, g, h] with
            | none => none
            | some char => prepend [char] (longBasicText? .none rest)
        | '\\', e :: more =>
            if isSpace e ∨ e = '\n' ∨ e = '\r' then longBasicText? .line (e :: more)
            else
              match simpleEscape? e with
              | none => none
              | some char => prepend [char] (longBasicText? .none more)
        | c, rest => if isText c && c != '\\' then prepend [c] (longBasicText? .none rest) else none

/-- Reads to the closing single quote. -/
def literalText? : List Char → Option (List Char × List Char)
  | [] => none
  | '\'' :: rest => some ([], rest)
  | c :: rest => if isText c then prepend [c] (literalText? rest) else none

/-- Reads to the three closing single quotes, which one or two quotes of the
    text may precede. -/
def longLiteralText? : List Char → Option (List Char × List Char)
  | [] => none
  | '\'' :: '\'' :: '\'' :: '\'' :: '\'' :: rest => some (['\'', '\''], rest)
  | '\'' :: '\'' :: '\'' :: '\'' :: rest => some (['\''], rest)
  | '\'' :: '\'' :: '\'' :: rest => some ([], rest)
  | '\r' :: '\n' :: rest => prepend ['\n'] (longLiteralText? rest)
  | c :: rest => if isText c || c == '\n' then prepend [c] (longLiteralText? rest) else none

/-- Drops the end of a line at the start of a string. -/
def dropFirstBreak : List Char → List Char
  | '\r' :: '\n' :: rest => rest
  | '\n' :: rest => rest
  | text => text

/-- Reads the string that starts the text. -/
def string? : List Char → Option (String × List Char)
  | '"' :: '"' :: '"' :: rest => asString (longBasicText? .none (dropFirstBreak rest))
  | '"' :: rest => asString (basicText? rest)
  | '\'' :: '\'' :: '\'' :: rest => asString (longLiteralText? (dropFirstBreak rest))
  | '\'' :: rest => asString (literalText? rest)
  | _ => none
where
  asString (read : Option (List Char × List Char)) : Option (String × List Char) :=
    read.map fun (text, rest) => (String.ofList text, rest)

end Strings

section Numbers

/-- Drops the underscores of digits, each of which must stand between two
    digits. -/
def plainDigits? (isDigit : Char → Bool) (text : List Char) : Option (List Char) :=
  let groups := Text.splitAt '_' text
  if groups.all fun group => !group.isEmpty && group.all isDigit then some groups.flatten else none

/-- Decimal digits with underscores. -/
def decimalDigits? (text : List Char) : Option (List Char) := plainDigits? Text.isDigit text

/-- Decimal digits that start with no zero, unless they are one. -/
def wholeDigits? (text : List Char) : Option (List Char) := do
  match ← decimalDigits? text with
  | '0' :: _ :: _ => none
  | digits => some digits

/-- Splits off one sign. -/
def splitSign : List Char → List Char × List Char
  | '+' :: rest => (['+'], rest)
  | '-' :: rest => (['-'], rest)
  | text => ([], text)

/-- A whole number of 64 bits with sign. -/
def bounded? (value : Int) : Option Value :=
  if -0x8000000000000000 ≤ value ∧ value ≤ 0x7FFFFFFFFFFFFFFF then some (.integer value) else none

/-- Reads an integer in a base other than ten. -/
def basedInteger? (base : Nat) (text : List Char) : Option Value := do
  let isDigit := fun c => (Text.hexValue? c).any (· < base)
  let digits ← plainDigits? isDigit text
  let value ← Text.readBase? base digits
  bounded? (Int.ofNat value)

/-- Reads an integer. -/
def integer? : List Char → Option Value
  | '0' :: 'x' :: digits => basedInteger? 16 digits
  | '0' :: 'o' :: digits => basedInteger? 8 digits
  | '0' :: 'b' :: digits => basedInteger? 2 digits
  | text => do
      let (sign, digits) := splitSign text
      let value ← Text.readDecimal? (← wholeDigits? digits)
      bounded? (if sign = ['-'] then -Int.ofNat value else Int.ofNat value)

/-- Is the character the mark of an exponent? -/
def isExponentMark (c : Char) : Bool := c == 'e' || c == 'E'

/-- The digits of an exponent with their mark, if there is one. -/
def exponentText? : List Char → Option (List Char)
  | [] => some []
  | _ :: text => do
      let (sign, digits) := splitSign text
      let digits ← decimalDigits? digits
      some ('e' :: sign ++ digits)

/-- The digits of a fraction with their point, if there is one. -/
def fractionText? : List Char → Option (List Char)
  | [] => some []
  | _ :: digits => (decimalDigits? digits).map ('.' :: ·)

/-- Reads a number with a fraction, an exponent or both. One too large is
    refused. -/
def float? (text : List Char) : Option Value := do
  let (sign, text) := splitSign text
  let mantissa := text.takeWhile (!isExponentMark ·)
  let exponent ← exponentText? (text.dropWhile (!isExponentMark ·))
  let whole ← wholeDigits? (mantissa.takeWhile (· != '.'))
  let fraction ← fractionText? (mantissa.dropWhile (· != '.'))
  if fraction = [] ∧ exponent = [] then none
  else
    let value ← Double.ofDecimal? (sign ++ whole ++ fraction ++ exponent)
    if value = .infinity false then none else some (.float value)

/-- The words for infinity and for what is no number. -/
def specialFloat? (word : String) : Option Value :=
  if ["inf", "+inf"].contains word then some (.float (.infinity false))
  else if word = "-inf" then some (.float (.infinity true))
  else if ["nan", "+nan", "-nan"].contains word then some (.float .notANumber)
  else none

end Numbers

section Dates

/-- The number that exactly `count` digits at the start write. -/
def fixedDigits? (count : Nat) (text : List Char) : Option (Nat × List Char) := do
  let digits := text.take count
  if digits.length = count ∧ digits.all Text.isDigit then
    some (← Text.readDecimal? digits, text.drop count)
  else none

/-- What follows a character that must come first. -/
def after? (c : Char) : List Char → Option (List Char)
  | [] => none
  | first :: rest => if first = c then some rest else none

/-- The number of days in a month. -/
def daysIn (year month : Nat) : Nat :=
  if month = 2 then
    if year % 4 = 0 ∧ (year % 100 ≠ 0 ∨ year % 400 = 0) then 29 else 28
  else if [4, 6, 9, 11].contains month then 30 else 31

/-- What follows a date. -/
def afterDate? (text : List Char) : Option (List Char) := do
  let (year, text) ← fixedDigits? 4 text
  let (month, text) ← fixedDigits? 2 (← after? '-' text)
  let (day, text) ← fixedDigits? 2 (← after? '-' text)
  if 1 ≤ month ∧ month ≤ 12 ∧ 1 ≤ day ∧ day ≤ daysIn year month then some text else none

/-- What follows a time of day with seconds. -/
def afterTime? (text : List Char) : Option (List Char) := do
  let (hour, text) ← fixedDigits? 2 text
  let (minute, text) ← fixedDigits? 2 (← after? ':' text)
  let (second, text) ← fixedDigits? 2 (← after? ':' text)
  if hour ≤ 23 ∧ minute ≤ 59 ∧ second ≤ 60 then
    match text with
    | '.' :: digits =>
        if (digits.takeWhile Text.isDigit).isEmpty then none
        else some (digits.dropWhile Text.isDigit)
    | text => some text
  else none

/-- Is the text nothing, or an offset from universal time? -/
def isOffset (text : List Char) : Bool :=
  let isDistance := fun text => Option.isSome do
    let (hour, text) ← fixedDigits? 2 text
    let (minute, text) ← fixedDigits? 2 (← after? ':' text)
    if hour ≤ 23 ∧ minute ≤ 59 ∧ text = [] then some () else none
  match text with
  | [] => true
  | ['Z'] => true
  | ['z'] => true
  | '+' :: rest => isDistance rest
  | '-' :: rest => isDistance rest
  | _ => false

/-- Is the text a date, a time, or a date with a time after `T` or a space? -/
def isDate (text : List Char) : Bool :=
  match afterDate? text with
  | some [] => true
  | some (mark :: time) =>
      (mark == 'T' || mark == 't' || mark == ' ') && (afterTime? time).any isOffset
  | none => afterTime? text == some []

end Dates

/-- The characters of words that are values. -/
def isValueChar (c : Char) : Bool :=
  Text.isDigit c || ('a' ≤ c && c ≤ 'z') || ('A' ≤ c && c ≤ 'Z')
    || c == '+' || c == '-' || c == '_' || c == '.' || c == ':'

/-- The word that starts the text. A date takes the time after a space with
    it. -/
def splitWord (text : List Char) : List Char × List Char :=
  let word := text.takeWhile isValueChar
  match text.dropWhile isValueChar with
  | ' ' :: next :: rest =>
      if afterDate? word = some [] ∧ Text.isDigit next then
        (word ++ ' ' :: (next :: rest).takeWhile isValueChar, (next :: rest).dropWhile isValueChar)
      else (word, ' ' :: next :: rest)
  | rest => (word, rest)

/-- Reads the value that a word writes. -/
def word? (word : List Char) : Option Value :=
  let text := String.ofList word
  if text = "true" then some (.bool true)
  else if text = "false" then some (.bool false)
  else if isDate word then some (.date text)
  else (specialFloat? text).or ((float? word).or (integer? word))

end ExpressLinks.Toml
