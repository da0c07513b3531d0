import ExpressLinks.Text.Digits

/-!
# Doubles

The numbers of the 64-bit binary format: a finite one is a mantissa below
`2 ^ 53` times a power of two. A decimal text is rounded to the nearest of
them, ties to the even mantissa. A finite one is written with the fewest digits
that read back, of those the nearest, and always positionally.
-/

namespace ExpressLinks

/-- A 64-bit floating-point number; a finite one is `mantissa * 2 ^ exponent`. -/
inductive Double where
  | finite (negative : Bool) (mantissa : Nat) (exponent : Int)
  | infinity (negative : Bool)
  | notANumber
  deriving DecidableEq, Repr

namespace Double

/-- A decimal text taken apart: sign, digits without point, power of ten. -/
structure DecimalText where
  negative : Bool
  digits : Nat
  exponent : Int
  deriving DecidableEq, Repr

/-- Splits off one sign. -/
def splitSign : List Char → Bool × List Char
  | '-' :: rest => (true, rest)
  | '+' :: rest => (false, rest)
  | text => (false, text)

/-- The exponent after the digits, zero if there is none. -/
def readExponent? : List Char → Option Int
  | [] => some 0
  | c :: rest =>
      if c = 'e' ∨ c = 'E' then
        let (negative, digits) := splitSign rest
        (Text.readDecimal? digits).map fun value =>
          if negative then -Int.ofNat value else Int.ofNat value
      else none

/-- Reads a decimal text: digits with at most one point among or beside them,
    then an exponent. -/
def readDecimalText? (text : List Char) : Option DecimalText := do
  let (negative, text) := splitSign text
  let whole := text.takeWhile Text.isDigit
  let afterWhole := text.dropWhile Text.isDigit
  let (fraction, tail) := match afterWhole with
    | '.' :: rest => (rest.takeWhile Text.isDigit, rest.dropWhile Text.isDigit)
    | rest => ([], rest)
  let exponent ← readExponent? tail
  let digits ← Text.readDecimal? (whole ++ fraction)
  some ⟨negative, digits, exponent - fraction.length⟩

/-- The quotient of two naturals rounded to the nearest, ties to even. -/
def roundQuotient (numerator denominator : Nat) : Nat :=
  let quotient := numerator / denominator
  let twice := 2 * (numerator % denominator)
  if twice < denominator then quotient
  else if twice > denominator then quotient + 1
  else if quotient % 2 = 0 then quotient else quotient + 1

/-- The double nearest to `numerator / denominator`. The exponent is chosen so
    that the mantissa has 53 bits, or is the least exponent. -/
def ofRatio (negative : Bool) (numerator denominator : Nat) : Double :=
  if numerator = 0 then .finite negative 0 0
  else
    let size : Int := Int.ofNat numerator.log2 - Int.ofNat denominator.log2
    let atLeast := fun (power : Int) =>
      if power ≥ 0 then denominator * Nat.pow 2 power.toNat ≤ numerator
      else denominator ≤ numerator * Nat.pow 2 (-power).toNat
    let top := if atLeast size then size else size - 1
    let exponent := max (top - 52) (-1074)
    let mantissa :=
      if exponent ≥ 0 then roundQuotient numerator (denominator * Nat.pow 2 exponent.toNat)
      else roundQuotient (numerator * Nat.pow 2 (-exponent).toNat) denominator
    if mantissa = Nat.pow 2 53 then
      if exponent + 1 > 971 then .infinity negative
      else .finite negative (Nat.pow 2 52) (exponent + 1)
    else if exponent > 971 then .infinity negative
    else .finite negative mantissa exponent

/-- The double nearest to a decimal text. Powers of ten far outside the range
    are not computed. -/
def ofDecimalText (text : DecimalText) : Double :=
  let width := (Nat.toDigits 10 text.digits).length
  if text.digits = 0 then .finite text.negative 0 0
  else if text.exponent + width > 400 then .infinity text.negative
  else if text.exponent + width < -400 then .finite text.negative 0 0
  else if text.exponent ≥ 0 then
    ofRatio text.negative (text.digits * Nat.pow 10 text.exponent.toNat) 1
  else ofRatio text.negative text.digits (Nat.pow 10 (-text.exponent).toNat)

/-- Reads a decimal text as a double. -/
def ofDecimal? (text : List Char) : Option Double := (readDecimalText? text).map ofDecimalText

/-- Is the decimal `digits * 10 ^ power` the double `mantissa * 2 ^ exponent`? -/
def readsBack (mantissa : Nat) (exponent : Int) (digits : Nat) (power : Int) : Bool :=
  ofDecimalText ⟨false, digits, power⟩ == .finite false mantissa exponent

/-- The decimal of the least power at which a decimal next to the double reads
    back: at each power the two neighbours on that grid are tried, the nearer
    first. `fuel` counts the powers still to try downwards. -/
def shortestFrom (mantissa : Nat) (exponent : Int) : Nat → Int → Nat × Int
  | 0, power => (0, power)
  | fuel + 1, power =>
      let numerator :=
        mantissa * (if exponent ≥ 0 then Nat.pow 2 exponent.toNat else 1)
          * (if power ≥ 0 then 1 else Nat.pow 10 (-power).toNat)
      let denominator :=
        (if exponent ≥ 0 then 1 else Nat.pow 2 (-exponent).toNat)
          * (if power ≥ 0 then Nat.pow 10 power.toNat else 1)
      let below := numerator / denominator
      let twice := 2 * (numerator % denominator)
      let nearer := if twice < denominator ∨ (twice = denominator ∧ below % 2 = 0) then below
        else below + 1
      let farther := if nearer = below then below + 1 else below
      if 0 < nearer && readsBack mantissa exponent nearer power then (nearer, power)
      else if 0 < farther && readsBack mantissa exponent farther power then (farther, power)
      else shortestFrom mantissa exponent fuel (power - 1)

/-- Digits and power of ten written without exponent. -/
def positional (digits : Nat) (power : Int) : List Char :=
  let text := Text.decimal digits
  if power ≥ 0 then text ++ List.replicate power.toNat '0'
  else
    let places := (-power).toNat
    let padded := List.replicate (places + 1 - text.length) '0' ++ text
    padded.take (padded.length - places) ++ '.' :: padded.drop (padded.length - places)

/-- The shortest text that reads back, without exponent. -/
def describe : Double → String
  | notANumber => ".nan"
  | infinity false => ".inf"
  | infinity true => "-.inf"
  | finite negative mantissa exponent =>
      let magnitude :=
        if mantissa = 0 then ['0']
        else
          let (digits, power) := shortestFrom mantissa exponent 700 320
          positional digits power
      String.ofList (if negative then '-' :: magnitude else magnitude)

end Double

end ExpressLinks
