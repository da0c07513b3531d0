import Mathlib.Tactic.ByContra
import ExpressLinks.Text.Utf8

/-!
# What UTF-8 writes and reads

`Writes` lists the octets of the characters by their number. What is written for a character
is in it, and what is in it is read as its character, so writing and reading undo each other:
a text that was written is read again, and octets that were decoded are those of their text.
An octet is below `80` exactly when it writes a character that is ASCII: octets that were
decoded are all below `80` exactly when their text is plain ASCII.
-/

namespace ExpressLinks.Text.Utf8

theorem toNat_ofNat {n : Nat} (valid : n < 0xD800 ∨ 0xDFFF < n ∧ n < 0x110000) :
    (Char.ofNat n).toNat = n := by
  rw [Char.ofNat, dif_pos valid]
  rfl

theorem isTail_iff {b : UInt8} : isTail b = true ↔ 0x80 ≤ b.toNat ∧ b.toNat ≤ 0xBF := by
  simp [isTail, UInt8.le_iff_toNat_le]

/-- The octets that may come second: fewer of them follow the first of the leading octets,
    and fewer the last. -/
theorem second_iff {a b first last least most : UInt8} (apart : first ≠ last)
    (above : 0x80 ≤ least.toNat) (below : most.toNat ≤ 0xBF) :
    (if a = first then decide (least ≤ b) && decide (b ≤ 0xBF)
      else if a = last then decide (0x80 ≤ b) && decide (b ≤ most) else isTail b) = true ↔
      (0x80 ≤ b.toNat ∧ b.toNat ≤ 0xBF) ∧ (a.toNat = first.toNat → least.toNat ≤ b.toNat) ∧
        (a.toNat = last.toNat → b.toNat ≤ most.toNat) := by
  have atFirst : a.toNat = first.toNat ↔ a = first := UInt8.toNat_inj
  have atLast : a.toNat = last.toNat ↔ a = last := UInt8.toNat_inj
  rw [atFirst, atLast]
  by_cases low : a = first
  · subst low
    simp only [if_true, apart, true_imp_iff, false_imp_iff, and_true, Bool.and_eq_true,
      decide_eq_true_eq, UInt8.le_iff_toNat_le, UInt8.reduceToNat]
    omega
  · by_cases high : a = last
    · subst high
      simp only [low, if_true, if_false, true_imp_iff, false_imp_iff, true_and,
        Bool.and_eq_true, decide_eq_true_eq, UInt8.le_iff_toNat_le, UInt8.reduceToNat]
      omega
    · simp [low, high, isTail_iff]

theorem isSecondOfThree_iff {a b : UInt8} :
    isSecondOfThree a b = true ↔ (0x80 ≤ b.toNat ∧ b.toNat ≤ 0xBF) ∧
      (a.toNat = 0xE0 → 0xA0 ≤ b.toNat) ∧ (a.toNat = 0xED → b.toNat ≤ 0x9F) :=
  second_iff (by decide) (by decide) (by decide)

theorem isSecondOfFour_iff {a b : UInt8} :
    isSecondOfFour a b = true ↔ (0x80 ≤ b.toNat ∧ b.toNat ≤ 0xBF) ∧
      (a.toNat = 0xF0 → 0x90 ≤ b.toNat) ∧ (a.toNat = 0xF4 → b.toNat ≤ 0x8F) :=
  second_iff (by decide) (by decide) (by decide)

/-- The octets of a character, by their number. The second of three or four is bounded so
    that no character is written longer than needed, none is a surrogate and none passes the
    last code point. -/
inductive Writes : List UInt8 → Char → Prop
  | one {a : UInt8} (low : a.toNat < 0x80) : Writes [a] (Char.ofNat a.toNat)
  | two {a b : UInt8} (low : 0xC2 ≤ a.toNat) (high : a.toNat < 0xE0)
      (second : isTail b = true) : Writes [a, b] (charOf (a.toNat - 0xC0) [b])
  | three {a b c : UInt8} (low : 0xE0 ≤ a.toNat) (high : a.toNat < 0xF0)
      (second : isSecondOfThree a b = true) (third : isTail c = true) :
      Writes [a, b, c] (charOf (a.toNat - 0xE0) [b, c])
  | four {a b c d : UInt8} (low : 0xF0 ≤ a.toNat) (high : a.toNat ≤ 0xF4)
      (second : isSecondOfFour a b = true) (third : isTail c = true)
      (fourth : isTail d = true) : Writes [a, b, c, d] (charOf (a.toNat - 0xF0) [b, c, d])

section Writes

variable {octets : List UInt8} {c : Char}

theorem charOf_eq {high : Nat} {tails : List UInt8}
    (value : tails.foldl (fun n b => n * 0x40 + (b.toNat - 0x80)) high = c.toNat) :
    charOf high tails = c := by
  rw [charOf, value, Char.ofNat_toNat]

theorem writes_encodeChar (c : Char) : Writes (encodeChar c) c := by
  have valid : c.toNat < 0xD800 ∨ 0xDFFF < c.toNat ∧ c.toNat < 0x110000 := c.valid
  have octet {n : Nat} (small : n < 0x100) : (UInt8.ofNat n).toNat = n :=
    UInt8.toNat_ofNat_of_lt' small
  have tail (n : Nat) : (UInt8.ofNat (0x80 + n % 0x40)).toNat = 0x80 + n % 0x40 :=
    octet (by omega)
  have isTail_tail (n : Nat) : isTail (UInt8.ofNat (0x80 + n % 0x40)) = true := by
    rw [isTail_iff, tail]
    omega
  unfold encodeChar
  by_cases one : c.toNat < 0x80
  · have first := octet (n := c.toNat) (by omega)
    have written : Writes [UInt8.ofNat c.toNat] _ := .one (by omega)
    rw [first, Char.ofNat_toNat] at written
    simpa only [one, if_true] using written
  by_cases two : c.toNat < 0x800
  · have first := octet (n := 0xC0 + c.toNat / 0x40) (by omega)
    have written := Writes.two (by omega) (by omega) (isTail_tail c.toNat)
      (a := UInt8.ofNat (0xC0 + c.toNat / 0x40))
    rw [charOf_eq (c := c) (by simp only [List.foldl_cons, List.foldl_nil, first, tail]; omega)]
      at written
    simpa only [one, two, if_true, if_false] using written
  by_cases three : c.toNat < 0x10000
  · have first := octet (n := 0xE0 + c.toNat / 0x1000) (by omega)
    have second := tail (c.toNat / 0x40)
    -- `E0` leads from `800` on only, and `ED` not to the surrogates
    have bounded : isSecondOfThree (UInt8.ofNat (0xE0 + c.toNat / 0x1000))
        (UInt8.ofNat (0x80 + c.toNat / 0x40 % 0x40)) = true := by
      rw [isSecondOfThree_iff, first, second]
      omega
    have written := Writes.three (by omega) (by omega) bounded (isTail_tail c.toNat)
    rw [charOf_eq (c := c) (by simp only [List.foldl_cons, List.foldl_nil, first, tail]; omega)]
      at written
    simpa only [one, two, three, if_true, if_false] using written
  · have first := octet (n := 0xF0 + c.toNat / 0x40000) (by omega)
    have second := tail (c.toNat / 0x1000)
    -- `F0` leads from `10000` on only, and `F4` not past `10FFFF`
    have bounded : isSecondOfFour (UInt8.ofNat (0xF0 + c.toNat / 0x40000))
        (UInt8.ofNat (0x80 + c.toNat / 0x1000 % 0x40)) = true := by
      rw [isSecondOfFour_iff, first, second]
      omega
    have written := Writes.four (by omega) (by omega) bounded (isTail_tail (c.toNat / 0x40))
      (isTail_tail c.toNat)
    rw [charOf_eq (c := c) (by simp only [List.foldl_cons, List.foldl_nil, first, tail]; omega)]
      at written
    simpa only [one, two, three, if_false] using written

theorem ofNat_eq {n : Nat} {b : UInt8} (value : n = b.toNat) : UInt8.ofNat n = b := by
  rw [value, UInt8.ofNat_toNat]

/-- A character is written in one way only. -/
theorem Writes.encodeChar_eq (written : Writes octets c) : encodeChar c = octets := by
  cases written with
  | one low =>
      rw [encodeChar, toNat_ofNat (by omega)]
      simp [low]
  | @two a b low high second =>
      rw [isTail_iff] at second
      have value : (charOf (a.toNat - 0xC0) [b]).toNat =
          (a.toNat - 0xC0) * 0x40 + (b.toNat - 0x80) := toNat_ofNat (by simp; omega)
      simp only [encodeChar, value]
      rw [if_neg (by omega), if_pos (by omega), ofNat_eq (b := a) (by omega),
        ofNat_eq (b := b) (by omega)]
  | @three a b c low high second third =>
      rw [isSecondOfThree_iff] at second
      rw [isTail_iff] at third
      have value : (charOf (a.toNat - 0xE0) [b, c]).toNat =
          ((a.toNat - 0xE0) * 0x40 + (b.toNat - 0x80)) * 0x40 + (c.toNat - 0x80) :=
        toNat_ofNat (by simp; omega)
      simp only [encodeChar, value]
      rw [if_neg (by omega), if_neg (by omega), if_pos (by omega), ofNat_eq (b := a) (by omega),
        ofNat_eq (b := b) (by omega), ofNat_eq (b := c) (by omega)]
  | @four a b c d low high second third fourth =>
      rw [isSecondOfFour_iff] at second
      rw [isTail_iff] at third fourth
      have value : (charOf (a.toNat - 0xF0) [b, c, d]).toNat =
          (((a.toNat - 0xF0) * 0x40 + (b.toNat - 0x80)) * 0x40 + (c.toNat - 0x80)) * 0x40
            + (d.toNat - 0x80) := toNat_ofNat (by simp; omega)
      simp only [encodeChar, value]
      rw [if_neg (by omega), if_neg (by omega), if_neg (by omega), ofNat_eq (b := a) (by omega),
        ofNat_eq (b := b) (by omega), ofNat_eq (b := c) (by omega), ofNat_eq (b := d) (by omega)]

/-- The octets of a character in front of others are read as that character in front of what
    the others are read as. -/
theorem Writes.decode_append (written : Writes octets c) (rest : List UInt8) :
    decode (octets ++ rest) = (decode rest).map (c :: ·) := by
  cases written with
  | one low =>
      rw [List.cons_append, List.nil_append, decode.eq_def]
      simp only [UInt8.lt_iff_toNat_lt, UInt8.reduceToNat, low, if_true]
  | @two a b low high second =>
      have notOne : ¬ a.toNat < 0x80 := by omega
      rw [List.cons_append, List.cons_append, List.nil_append, decode.eq_def]
      simp only [UInt8.lt_iff_toNat_lt, UInt8.reduceToNat, notOne, Nat.not_lt.mpr low, high,
        second, if_true, if_false]
  | @three a b c low high second third =>
      have notOne : ¬ a.toNat < 0x80 := by omega
      have lead : ¬ a.toNat < 0xC2 := by omega
      simp only [List.cons_append, List.nil_append]
      rw [decode.eq_def]
      simp only [UInt8.lt_iff_toNat_lt, UInt8.reduceToNat, notOne, lead, Nat.not_lt.mpr low, high,
        second, third, Bool.and_self, if_true, if_false]
  | @four a b c d low high second third fourth =>
      have notOne : ¬ a.toNat < 0x80 := by omega
      have lead : ¬ a.toNat < 0xC2 := by omega
      have notTwo : ¬ a.toNat < 0xE0 := by omega
      simp only [List.cons_append, List.nil_append]
      rw [decode.eq_def]
      simp only [UInt8.lt_iff_toNat_lt, UInt8.le_iff_toNat_le, UInt8.reduceToNat, notOne, lead,
        notTwo, Nat.not_lt.mpr low, high, second, third, fourth, decide_true, Bool.and_self,
        if_true, if_false]

/-- All octets of a character that is not ASCII are at least `80`. -/
theorem Writes.le_of_mem (written : Writes octets c) (foreign : 0x80 ≤ c.toNat) {octet : UInt8}
    (member : octet ∈ octets) : 0x80 ≤ octet.toNat := by
  cases written with
  | one low =>
      rw [toNat_ofNat (by omega)] at foreign
      omega
  | two low high second =>
      rw [isTail_iff] at second
      simp only [List.mem_cons, List.not_mem_nil, or_false] at member
      rcases member with rfl | rfl <;> omega
  | three low high second third =>
      rw [isSecondOfThree_iff] at second
      rw [isTail_iff] at third
      simp only [List.mem_cons, List.not_mem_nil, or_false] at member
      rcases member with rfl | rfl | rfl <;> omega
  | four low high second third fourth =>
      rw [isSecondOfFour_iff] at second
      rw [isTail_iff] at third fourth
      simp only [List.mem_cons, List.not_mem_nil, or_false] at member
      rcases member with rfl | rfl | rfl | rfl <;> omega

theorem Writes.ne_nil (written : Writes octets c) : octets ≠ [] := by
  cases written <;> exact List.cons_ne_nil _ _

end Writes

theorem encode_cons (c : Char) (cs : List Char) : encode (c :: cs) = encodeChar c ++ encode cs :=
  List.flatMap_cons

/-- Reading what was written gives the text back. -/
theorem decode_encode (text : List Char) : decode (encode text) = some text := by
  induction text with
  | nil => rfl
  | cons c cs ih => rw [encode_cons, (writes_encodeChar c).decode_append, ih, Option.map_some]

/-- Different texts are written differently. -/
theorem encode_inj {first second : List Char} : encode first = encode second ↔ first = second := by
  constructor
  · intro same
    have read := decode_encode first
    rw [same, decode_encode] at read
    exact (Option.some.inj read).symm
  · exact congrArg encode

/-- A character in front of a text is written in front of its octets. -/
theorem encode_of_map_cons {own rest : List UInt8} {c : Char} {later : Option (List Char)}
    {text : List Char} (written : Writes own c)
    (ih : ∀ {tail}, later = some tail → encode tail = rest)
    (read : later.map (c :: ·) = some text) : encode text = own ++ rest := by
  obtain ⟨tail, decoded, rfl⟩ := Option.map_eq_some_iff.mp read
  rw [encode_cons, written.encodeChar_eq, ih decoded]

/-- Writing what was read gives the octets back. -/
theorem encode_of_decode_eq_some {octets : List UInt8} {text : List Char}
    (decoded : decode octets = some text) : encode text = octets := by
  fun_induction decode octets generalizing text with
  | case1 =>
      obtain rfl : [] = text := Option.some.inj decoded
      rfl
  | case2 a rest first ih =>
      exact encode_of_map_cons (.one (UInt8.lt_iff_toNat_lt.mp first)) ih decoded
  | case5 a _ low b rest high second ih =>
      have written := Writes.two (UInt8.le_iff_toNat_le.mp (UInt8.not_lt.mp low))
        (UInt8.lt_iff_toNat_lt.mp high) second
      exact encode_of_map_cons written ih decoded
  | case8 a _ _ b low c rest high followed ih =>
      obtain ⟨second, third⟩ := Bool.and_eq_true_iff.mp followed
      have written := Writes.three (UInt8.le_iff_toNat_le.mp (UInt8.not_lt.mp low))
        (UInt8.lt_iff_toNat_lt.mp high) second third
      exact encode_of_map_cons written ih decoded
  | case11 a _ _ b _ c low d rest followed ih =>
      obtain ⟨⟨⟨high, second⟩, third⟩, fourth⟩ : ((a ≤ 0xF4 ∧ isSecondOfFour a b) ∧ isTail c) ∧
          isTail d := by
        simpa only [Bool.and_eq_true, decide_eq_true_eq] using followed
      have written := Writes.four (UInt8.le_iff_toNat_le.mp (UInt8.not_lt.mp low))
        (UInt8.le_iff_toNat_le.mp high) second third fourth
      exact encode_of_map_cons written ih decoded
  | _ => cases decoded

theorem encodeChar_of_lt {c : Char} (ascii : c.toNat < 0x80) :
    encodeChar c = [UInt8.ofNat c.toNat] := by
  unfold encodeChar
  simp only [ascii, if_true]

/-- A character is written with octets below `80` exactly when it is ASCII. -/
theorem encodeChar_lt_iff {c : Char} : (∀ octet ∈ encodeChar c, octet < 0x80) ↔ c.toNat < 0x80 := by
  constructor
  · intro low
    by_contra high
    obtain ⟨octet, member⟩ := List.exists_mem_of_ne_nil _ (writes_encodeChar c).ne_nil
    have large := (writes_encodeChar c).le_of_mem (Nat.not_lt.mp high) member
    have small := UInt8.lt_iff_toNat_lt.mp (low octet member)
    exact absurd small (Nat.not_lt.mpr large)
  · intro ascii octet member
    rw [encodeChar_of_lt ascii, List.mem_singleton] at member
    rw [member, UInt8.lt_iff_toNat_lt, UInt8.toNat_ofNat']
    show c.toNat % 2 ^ 8 < 0x80
    omega

/-- The octets of a text are below `80` exactly when all its characters are ASCII. -/
theorem encode_lt_iff {text : List Char} :
    (∀ octet ∈ encode text, octet < 0x80) ↔ ∀ c ∈ text, c.toNat < 0x80 := by
  simp only [encode, List.mem_flatMap, forall_exists_index, and_imp]
  constructor
  · intro low c member
    exact encodeChar_lt_iff.mp fun octet written => low octet c member written
  · intro ascii octet c member written
    exact encodeChar_lt_iff.mpr (ascii c member) octet written

/-- Octets below `80` are a text. -/
theorem exists_decode_of_lt {octets : List UInt8} (low : ∀ octet ∈ octets, octet < 0x80) :
    ∃ text, decode octets = some text := by
  induction octets with
  | nil => exact ⟨[], rfl⟩
  | cons a rest ih =>
      obtain ⟨first, others⟩ := List.forall_mem_cons.mp low
      obtain ⟨text, decoded⟩ := ih others
      rw [decode.eq_def]
      simp only [first, if_true, decoded]
      exact ⟨_, rfl⟩

end ExpressLinks.Text.Utf8
