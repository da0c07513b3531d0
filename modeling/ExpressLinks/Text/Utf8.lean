/-!
# UTF-8

`Utf8.encode` writes a character as one to four octets; `Utf8.decode` reads
octets back and refuses everything that is no written character: a stray or
missing continuation octet, a form longer than needed, a surrogate and a value
past U+10FFFF. A byte-order mark is an ordinary character.
-/

namespace ExpressLinks.Text.Utf8

/-- The octets of a character. -/
def encodeChar (c : Char) : List UInt8 :=
  let n := c.toNat
  if n < 0x80 then [UInt8.ofNat n]
  else if n < 0x800 then [UInt8.ofNat (0xC0 + n / 0x40), UInt8.ofNat (0x80 + n % 0x40)]
  else if n < 0x10000 then
    [UInt8.ofNat (0xE0 + n / 0x1000), UInt8.ofNat (0x80 + n / 0x40 % 0x40),
     UInt8.ofNat (0x80 + n % 0x40)]
  else
    [UInt8.ofNat (0xF0 + n / 0x40000), UInt8.ofNat (0x80 + n / 0x1000 % 0x40),
     UInt8.ofNat (0x80 + n / 0x40 % 0x40), UInt8.ofNat (0x80 + n % 0x40)]

/-- The octets of a text. -/
def encode (text : List Char) : List UInt8 := text.flatMap encodeChar

/-- A continuation octet. -/
def isTail (b : UInt8) : Bool := 0x80 ≤ b && b ≤ 0xBF

/-- May `b` follow the first octet `a` of a three-octet character? After `E0`
    the low values would be longer than needed, after `ED` the high ones
    would be surrogates. -/
def isSecondOfThree (a b : UInt8) : Bool :=
  if a = 0xE0 then 0xA0 ≤ b && b ≤ 0xBF
  else if a = 0xED then 0x80 ≤ b && b ≤ 0x9F
  else isTail b

/-- May `b` follow the first octet `a` of a four-octet character? After `F0`
    the low values would be longer than needed, after `F4` the high ones
    would pass the last code point. -/
def isSecondOfFour (a b : UInt8) : Bool :=
  if a = 0xF0 then 0x90 ≤ b && b ≤ 0xBF
  else if a = 0xF4 then 0x80 ≤ b && b ≤ 0x8F
  else isTail b

/-- The character whose bits are the low six bits of each continuation octet
    below those of the first octet. -/
def charOf (high : Nat) (tails : List UInt8) : Char :=
  Char.ofNat (tails.foldl (fun n b => n * 0x40 + (b.toNat - 0x80)) high)

/-- The text written by the octets, if they are well formed. -/
def decode : List UInt8 → Option (List Char)
  | [] => some []
  | a :: rest =>
      if a < 0x80 then (decode rest).map (Char.ofNat a.toNat :: ·)
      else if a < 0xC2 then none
      else
        match rest with
        | [] => none
        | b :: rest =>
            if a < 0xE0 then
              if isTail b then (decode rest).map (charOf (a.toNat - 0xC0) [b] :: ·) else none
            else
              match rest with
              | [] => none
              | c :: rest =>
                  if a < 0xF0 then
                    if isSecondOfThree a b && isTail c then
                      (decode rest).map (charOf (a.toNat - 0xE0) [b, c] :: ·)
                    else none
                  else
                    match rest with
                    | [] => none
                    | d :: rest =>
                        if a ≤ 0xF4 && isSecondOfFour a b && isTail c && isTail d then
                          (decode rest).map (charOf (a.toNat - 0xF0) [b, c, d] :: ·)
                        else none

end ExpressLinks.Text.Utf8
