import ExpressLinks.Decimal.Double
import ExpressLinks.Text.Digits

/-!
# What plain text reads as

A plain scalar may be null, a truth value or a number; everything else is text.
Integers are decimal, or hexadecimal, octal or binary after `0x`, `0o` or `0b`,
with at most one sign and at most 128 bits. Digits after a leading zero are
text, and so is a decimal number too large to be finite.
-/

namespace ExpressLinks.Yaml

/-- The reading of a plain scalar. -/
inductive Plain where
  | null
  | bool (value : Bool)
  | int (value : Int)
  | float (value : Double)
  | text
  deriving DecidableEq, Repr

/-- The spellings of null. -/
def isNullWord (text : String) : Bool := ["null", "Null", "NULL", "~"].contains text

/-- The truth value of a spelling. -/
def readBool? (text : String) : Option Bool :=
  if ["true", "True", "TRUE"].contains text then some true
  else if ["false", "False", "FALSE"].contains text then some false
  else none

/-- A sign aside, two or more digits of which the first is zero. -/
def isZeroPadded (text : List Char) : Bool :=
  let digits := match text with
    | '+' :: rest => rest
    | '-' :: rest => rest
    | text => text
  match digits with
  | '0' :: rest => rest != [] && rest.all Text.isDigit
  | _ => false

/-- The magnitude of an integer: digits, or digits of another base after its
    mark. -/
def readMagnitude? : List Char → Option Nat
  | '0' :: 'x' :: digits => Text.readBase? 16 digits
  | '0' :: 'o' :: digits => Text.readBase? 8 digits
  | '0' :: 'b' :: digits => Text.readBase? 2 digits
  | digits => if isZeroPadded digits then none else Text.readDecimal? digits

/-- A natural number of at most 128 bits. -/
def boundedNat? (magnitude : Nat) : Option Int :=
  if magnitude < Nat.pow 2 128 then some (Int.ofNat magnitude) else none

/-- The negative of a magnitude, within 128 bits. -/
def boundedNegative? (magnitude : Nat) : Option Int :=
  if magnitude ≤ Nat.pow 2 127 then some (-Int.ofNat magnitude) else none

/-- The integer a text writes. -/
def readInt? : List Char → Option Int
  | '+' :: rest => (readMagnitude? rest).bind boundedNat?
  | '-' :: rest => (readMagnitude? rest).bind boundedNegative?
  | text => (readMagnitude? text).bind boundedNat?

/-- The finite number, infinity or not-a-number a text writes. -/
def readFloat? (text : List Char) : Option Double :=
  let word := String.ofList text
  if [".inf", ".Inf", ".INF", "+.inf", "+.Inf", "+.INF"].contains word then
    some (.infinity false)
  else if ["-.inf", "-.Inf", "-.INF"].contains word then some (.infinity true)
  else if [".nan", ".NaN", ".NAN"].contains word then some .notANumber
  else
    match Double.ofDecimal? text with
    | some (.finite negative mantissa exponent) => some (.finite negative mantissa exponent)
    | _ => none

/-- Reads a plain scalar. -/
def readPlain (text : String) : Plain :=
  let chars := text.toList
  if text = "" ∨ isNullWord text then .null
  else
    match readBool? text with
    | some value => .bool value
    | none =>
        match readInt? chars with
        | some value => .int value
        | none =>
            if isZeroPadded chars then .text
            else
              match readFloat? chars with
              | some value => .float value
              | none => .text

end ExpressLinks.Yaml
