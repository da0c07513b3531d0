/-!
# Digits

Numbers are written in decimal, or in hexadecimal with a least number of
digits. The value of a hexadecimal text is read digit by digit, so that a
written code point can be read back.
-/

namespace ExpressLinks.Text

/-- The digit of value `n` for `n < 16`, letters in capitals. -/
def hexDigit (n : Nat) : Char :=
  if n < 10 then Char.ofNat (0x30 + n) else Char.ofNat (0x37 + n)

/-- The last `width` hexadecimal digits of `n`, most significant first. -/
def hexDigits : Nat → Nat → List Char
  | 0, _ => []
  | width + 1, n => hexDigits width (n / 16) ++ [hexDigit (n % 16)]

/-- How many hexadecimal digits `n` needs; one for zero. -/
def hexWidth (n : Nat) : Nat :=
  if h : n < 16 then 1 else hexWidth (n / 16) + 1
termination_by n

/-- `n` in hexadecimal with at least `least` digits. -/
def hex (least n : Nat) : List Char := hexDigits (max least (hexWidth n)) n

/-- The value of a hexadecimal digit of either case. -/
def hexValue? (c : Char) : Option Nat :=
  if '0' ≤ c ∧ c ≤ '9' then some (c.toNat - 0x30)
  else if 'A' ≤ c ∧ c ≤ 'F' then some (c.toNat - 0x37)
  else if 'a' ≤ c ∧ c ≤ 'f' then some (c.toNat - 0x57)
  else none

/-- The value of a decimal digit. -/
def decimalValue? (c : Char) : Option Nat :=
  if '0' ≤ c ∧ c ≤ '9' then some (c.toNat - 0x30) else none

/-- Reads digits in the given base, most significant first, on top of `acc`. -/
def readDigits (value? : Char → Option Nat) (base : Nat) : Nat → List Char → Option Nat
  | acc, [] => some acc
  | acc, c :: cs =>
      match value? c with
      | none => none
      | some d => if d < base then readDigits value? base (acc * base + d) cs else none

/-- The number written by a non-empty hexadecimal text. -/
def readHex? (digits : List Char) : Option Nat :=
  if digits = [] then none else readDigits hexValue? 16 0 digits

/-- The number written by a non-empty text in a base of at most sixteen. -/
def readBase? (base : Nat) (digits : List Char) : Option Nat :=
  if digits = [] then none else readDigits hexValue? base 0 digits

/-- The decimal digits of a number. -/
def decimal (n : Nat) : List Char := Nat.toDigits 10 n

/-- The number written by a non-empty text of decimal digits. -/
def readDecimal? (digits : List Char) : Option Nat := readBase? 10 digits

/-- An ASCII decimal digit. -/
def isDigit (c : Char) : Bool := (decimalValue? c).isSome

end ExpressLinks.Text
