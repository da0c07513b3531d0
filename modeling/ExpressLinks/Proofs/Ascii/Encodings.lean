import ExpressLinks.Proofs.Ascii.Places
import ExpressLinks.Proofs.Text.Digits
import ExpressLinks.Proofs.Text.Utf8

/-!
# What the encodings of a character say

The check shows a character that is not ASCII in three ways: as an encoded string literal, as
a code point and as octets. Each of the three can be read back, the first two as a number and
the last as UTF-8, and what is read is that character and no other. A character is listed once
in a file, so no two entries of a file share any of the three.
-/

namespace ExpressLinks.Ascii

open Text

/-- The octet that two hexadecimal digits behind `0x` write. -/
def readOctet? (text : String) : Option UInt8 :=
  match text.toList with
  | ['0', 'x', high, low] => (readHex? [high, low]).map UInt8.ofNat
  | _ => none

/-- The octets that are listed with a space between each two of them. -/
def readOctets? (listing : String) : Option (List UInt8) :=
  (splitString ' ' listing).mapM readOctet?

section Octets

theorem toList_octet (b : UInt8) :
    (octet b).toList = '0' :: 'x' :: (hexDigits 2 b.toNat).map Char.toLower := by
  simp [octet]

theorem readOctet?_octet (b : UInt8) : readOctet? (octet b) = some b := by
  have read : readHex? ((hexDigits 2 b.toNat).map Char.toLower) = some b.toNat :=
    readHex?_map_hexDigits hexValue?_toLower_hexDigit (by decide) b.toNat_lt
  simp only [hexDigits, List.nil_append, List.cons_append, List.map_cons, List.map_nil] at read
  simp only [readOctet?, toList_octet, hexDigits, List.nil_append, List.cons_append,
    List.map_cons, List.map_nil, read, Option.map_some, UInt8.ofNat_toNat]

theorem space_not_mem_octet (b : UInt8) : ' ' ∉ (octet b).toList := by
  have noSpace : ∀ digit < 16, (hexDigit digit).toLower ≠ ' ' := by decide
  rw [toList_octet]
  intro member
  simp only [List.mem_cons, Char.reduceEq, false_or, List.mem_map] at member
  obtain ⟨c, listed, space⟩ := member
  obtain ⟨digit, small, rfl⟩ := exists_hexDigit_of_mem listed
  exact noSpace digit small space

theorem mapM_readOctet?_map_octet (bytes : List UInt8) :
    (bytes.map octet).mapM readOctet? = some bytes := by
  induction bytes with
  | nil => rfl
  | cons b rest ih => simp [readOctet?_octet, ih]

/-- The octets shown for a character are listed as they are written. -/
theorem readOctets?_octets (c : Char) : readOctets? (octets c) = some (Utf8.encodeChar c) := by
  have joined : octets c = joinStrings ' ' ((Utf8.encodeChar c).map octet) :=
    intercalate_eq_joinStrings ' ' _
  have given : (Utf8.encodeChar c).map octet ≠ [] := by
    simpa using (Utf8.writes_encodeChar c).ne_nil
  have free : ∀ text ∈ (Utf8.encodeChar c).map octet, ' ' ∉ text.toList := by
    intro text member
    obtain ⟨b, -, rfl⟩ := List.mem_map.mp member
    exact space_not_mem_octet b
  rw [readOctets?, joined, splitString_joinStrings given free, mapM_readOctet?_map_octet]

end Octets

/-- The three texts of a summary are for its character: the literal holds eight digits between
    double quotes and the code point four digits or more behind `U+`, which write the number of
    the character, and the octets are those of the character alone. -/
structure CharacterSummary.Identifies (summary : CharacterSummary) : Prop where
  replacement : ∃ digits, summary.replacement = String.ofList ('"' :: digits ++ ['"']) ∧
    digits.length = 8 ∧ (∀ c ∈ digits, isCapitalDigit c = true) ∧
    readHex? digits = some summary.character.toNat
  codePoint : ∃ digits, summary.codePoint = String.ofList ('U' :: '+' :: digits) ∧
    4 ≤ digits.length ∧ (∀ c ∈ digits, isCapitalDigit c = true) ∧
    readHex? digits = some summary.character.toNat
  utf8 : ∃ bytes, readOctets? summary.utf8 = some bytes ∧
    Utf8.decode bytes = some [summary.character]

theorem summarize_identifies (c : Char) (count : Nat) : (summarize c count).Identifies where
  replacement := by
    have small : c.toNat < 16 ^ 6 := by
      have valid : c.toNat < 0xD800 ∨ 0xDFFF < c.toNat ∧ c.toNat < 0x110000 := c.valid
      omega
    have needed : hexWidth c.toNat ≤ 6 := hexWidth_le (by decide) small
    refine ⟨hex 8 c.toNat, rfl, ?_, fun _ => isCapitalDigit_of_mem_hex, readHex?_hex 8 _⟩
    rw [length_hex]
    omega
  codePoint := by
    refine ⟨hex 4 c.toNat, rfl, ?_, fun _ => isCapitalDigit_of_mem_hex, readHex?_hex 4 _⟩
    rw [length_hex]
    omega
  utf8 := by
    refine ⟨Utf8.encodeChar c, readOctets?_octets c, ?_⟩
    have read := Utf8.decode_encode [c]
    rwa [Utf8.encode_cons, Utf8.encode, List.flatMap_nil, List.append_nil] at read

namespace CharacterSummary.Identifies

variable {a b : CharacterSummary} (forA : a.Identifies) (forB : b.Identifies)

include forA forB

theorem character_eq_of_replacement (same : a.replacement = b.replacement) :
    a.character = b.character := by
  obtain ⟨digits, written, -, -, read⟩ := forA.replacement
  obtain ⟨others, written', -, -, read'⟩ := forB.replacement
  rw [written, written', String.ofList_inj, List.cons_append, List.cons_append] at same
  obtain rfl := List.append_cancel_right (List.cons.inj same).2
  exact Char.toNat_inj.mp (Option.some.inj (read.symm.trans read'))

theorem character_eq_of_codePoint (same : a.codePoint = b.codePoint) :
    a.character = b.character := by
  obtain ⟨digits, written, -, -, read⟩ := forA.codePoint
  obtain ⟨others, written', -, -, read'⟩ := forB.codePoint
  rw [written, written', String.ofList_inj] at same
  obtain rfl := (List.cons.inj (List.cons.inj same).2).2
  exact Char.toNat_inj.mp (Option.some.inj (read.symm.trans read'))

theorem character_eq_of_utf8 (same : a.utf8 = b.utf8) : a.character = b.character := by
  obtain ⟨bytes, listed, read⟩ := forA.utf8
  obtain ⟨others, listed', read'⟩ := forB.utf8
  obtain rfl : others = bytes := Option.some.inj (listed'.symm.trans (same ▸ listed))
  exact List.singleton_inj.mp (Option.some.inj (read.symm.trans read'))

end CharacterSummary.Identifies

/-- Texts that say what character they are for are different for different characters. -/
theorem nodup_map_of_tells {summaries : List CharacterSummary} {text : CharacterSummary → String}
    (distinct : (summaries.map (·.character)).Nodup)
    (tells : ∀ a ∈ summaries, ∀ b ∈ summaries, text a = text b → a.character = b.character) :
    (summaries.map text).Nodup := by
  rw [List.Nodup, List.pairwise_map] at distinct ⊢
  apply distinct.imp_of_mem
  intro a b memberA memberB different same
  exact different (tells a memberA b memberB same)

theorem nodup_character_checkText (file : String) (text : List Char) :
    ((checkText file text).characters.map (·.character)).Nodup := by
  have listed : (checkText file text).characters.map (·.character) = (foreign text).eraseDups := by
    rw [characters_checkText, List.map_map]
    exact List.map_id _
  exact listed ▸ nodup_eraseDups _

/-- The literal, the code point and the octets that the check shows for a character are read
    back as that character, so no two entries of a file share any of them. -/
theorem checkText_encodings_identify (file : String) (text : List Char) :
    (∀ summary ∈ (checkText file text).characters, summary.Identifies) ∧
      ((checkText file text).characters.map (·.replacement)).Nodup ∧
      ((checkText file text).characters.map (·.codePoint)).Nodup ∧
      ((checkText file text).characters.map (·.utf8)).Nodup := by
  have distinct := nodup_character_checkText file text
  have identifies : ∀ summary ∈ (checkText file text).characters, summary.Identifies := by
    intro summary member
    rw [characters_checkText] at member
    obtain ⟨c, -, rfl⟩ := List.mem_map.mp member
    exact summarize_identifies c _
  refine ⟨identifies, ?_, ?_, ?_⟩
  · exact nodup_map_of_tells distinct fun a memberA b memberB =>
      (identifies a memberA).character_eq_of_replacement (identifies b memberB)
  · exact nodup_map_of_tells distinct fun a memberA b memberB =>
      (identifies a memberA).character_eq_of_codePoint (identifies b memberB)
  · exact nodup_map_of_tells distinct fun a memberA b memberB =>
      (identifies a memberA).character_eq_of_utf8 (identifies b memberB)

/-- Characters of two, three and four octets are told apart, and the last of all characters
    takes six of the eight digits. -/
theorem checkText_encodings_identify_of_each_length :
    let last := Char.ofNat 0x10FFFF
    let found := (checkText "a.exp" ['é', '≥', 'é', last]).characters
    summarize last 1 ∈ found ∧ (summarize last 1).Identifies ∧
      (summarize last 1).replacement = "\"0010FFFF\"" ∧
      (summarize last 1).codePoint = "U+10FFFF" ∧
      found.map (·.utf8) = ["0xc3 0xa9", "0xe2 0x89 0xa5", "0xf4 0x8f 0xbf 0xbf"] ∧
      (found.map (·.utf8)).Nodup := by
  intro last found
  have listed : summarize last 1 ∈ found := by decide +kernel
  obtain ⟨identifies, -, -, distinct⟩ :=
    checkText_encodings_identify "a.exp" ['é', '≥', 'é', last]
  exact ⟨listed, identifies _ listed, by decide +kernel, by decide +kernel, by decide +kernel,
    distinct⟩

end ExpressLinks.Ascii
