import Mathlib.Data.List.Forall2
import ExpressLinks.Proofs.Resolution.LetterCase
import ExpressLinks.Proofs.Text.Utf8

/-!
# The two comparisons of names

Schemas are filed under their folded names, everything else is compared with a name letter
by letter, and a path is cut into names before either. So a path means one thing only if the
two comparisons agree and folding keeps the names of a path apart.

What folding does is seen on the octets of a name: it folds each of them. The octets of a
character that is not ASCII are no letters, so an accented letter stays as it is, and names
are the same exactly when they have as many octets and these agree one by one.
-/

namespace ExpressLinks

namespace Text.Utf8

/-- The octets of the capitals move up by the distance between the two alphabets. -/
theorem toNat_toAsciiLower (octet : UInt8) :
    octet.toAsciiLower.toNat =
      if 65 ≤ octet.toNat ∧ octet.toNat ≤ 90 then octet.toNat + 32 else octet.toNat := by
  have bound := octet.toNat_lt
  have isCapital : octet - 65 < 26 ↔ 65 ≤ octet.toNat ∧ octet.toNat ≤ 90 := by
    simp only [UInt8.lt_iff_toNat_lt, UInt8.toNat_sub, UInt8.reduceToNat]
    omega
  by_cases capital : 65 ≤ octet.toNat ∧ octet.toNat ≤ 90
  · have distance : true.toUInt8 <<< 5 = 32 := rfl
    have moved : octet.toAsciiLower = octet + 32 := by
      rw [UInt8.toAsciiLower, decide_eq_true (isCapital.mpr capital), distance]
    simp only [moved, UInt8.toNat_add, UInt8.reduceToNat, if_pos capital]
    omega
  · have nothing : false.toUInt8 <<< 5 = 0 := rfl
    rw [UInt8.toAsciiLower, decide_eq_false (mt isCapital.mp capital), nothing, UInt8.add_zero,
      if_neg capital]

theorem toAsciiLower_eq_self {octet : UInt8} (other : ¬ (65 ≤ octet.toNat ∧ octet.toNat ≤ 90)) :
    octet.toAsciiLower = octet := by
  rw [← UInt8.toNat_inj, toNat_toAsciiLower, if_neg other]

/-- Folding a character folds its octets. -/
theorem encodeChar_toLower (c : Char) :
    encodeChar c.toLower = (encodeChar c).map UInt8.toAsciiLower := by
  by_cases capital : 65 ≤ c.toNat ∧ c.toNat ≤ 90
  · have moved := Ident.toNat_toLower_of_capital capital.1 capital.2
    have own : (UInt8.ofNat c.toNat).toNat = c.toNat :=
      UInt8.toNat_ofNat_of_lt' (show c.toNat < 0x100 by omega)
    rw [encodeChar_of_lt (c := c.toLower) (by omega), encodeChar_of_lt (c := c) (by omega), moved,
      List.map_singleton, ofNat_eq]
    rw [toNat_toAsciiLower, own, if_pos capital]
  · -- a character that is no capital is ASCII itself or has no octet that is
    have unmoved : ∀ octet ∈ encodeChar c, octet.toAsciiLower = octet := by
      intro octet member
      apply toAsciiLower_eq_self
      by_cases ascii : c.toNat < 0x80
      · rw [encodeChar_of_lt ascii, List.mem_singleton] at member
        rwa [member, UInt8.toNat_ofNat_of_lt' (show c.toNat < 0x100 by omega)]
      · have high := (writes_encodeChar c).le_of_mem (Nat.not_lt.mp ascii) member
        omega
    rw [Ident.toLower_of_not_capital capital, List.map_congr_left unmoved, List.map_id']

/-- Folding a text folds its octets. -/
theorem encode_map_toLower (text : List Char) :
    encode (text.map Char.toLower) = (encode text).map UInt8.toAsciiLower := by
  induction text with
  | nil => rfl
  | cons c cs ih =>
      rw [List.map_cons, encode_cons, encode_cons, encodeChar_toLower, ih, List.map_append]

end Text.Utf8

namespace Ident

/-- The octets of a name. -/
def octets (name : String) : List UInt8 := Text.Utf8.encode name.toList

/-- Folding a name folds its octets. -/
theorem octets_folded (name : String) :
    octets (folded name) = (octets name).map UInt8.toAsciiLower := by
  rw [octets, toList_folded, Text.Utf8.encode_map_toLower]
  rfl

/-- Names are the same exactly when they have as many octets and each two of these that stand
    at one place are the same but for letter case. -/
theorem same_iff_forall₂_octets (a b : String) :
    same a b = true ↔
      List.Forall₂ (fun x y => x.toAsciiLower = y.toAsciiLower) (octets a) (octets b) := by
  have written : folded a = folded b ↔ octets (folded a) = octets (folded b) := by
    rw [octets, octets, Text.Utf8.encode_inj, String.toList_inj]
  rw [same_iff_folded_eq, written, octets_folded, octets_folded, ← List.forall₂_eq_eq_eq,
    List.forall₂_map_left_iff, List.forall₂_map_right_iff]

/-- Comparing names letter by letter, comparing their octets one by one and comparing their
    folded spellings is the same, and what folding does to a name it does to its octets. So
    to be the same is an equivalence, a folded spelling is folded no further, and the names
    in a folded path are the folded names in the path. -/
theorem comparisons_agree :
    (∀ a b, same a b = true ↔ folded a = folded b) ∧
      (∀ a b, same a b = true ↔
        List.Forall₂ (fun x y => x.toAsciiLower = y.toAsciiLower) (octets a) (octets b)) ∧
      (∀ name, octets (folded name) = (octets name).map UInt8.toAsciiLower) ∧
      Equivalence (fun a b => same a b = true) ∧
      (∀ name, folded (folded name) = folded name) ∧
      ∀ path, Corpus.pathSegments (folded path) = (Corpus.pathSegments path).map folded := by
  have equivalence : Equivalence (fun a b => same a b = true) :=
    ⟨same_refl, same_symm, same_trans⟩
  exact ⟨same_iff_folded_eq, same_iff_forall₂_octets, octets_folded, equivalence, folded_folded,
    Corpus.pathSegments_folded⟩

/-- Only the ASCII letters have two cases: neither accented letters nor the signs in their
    neighbourhood do. -/
example : same "aZ" "Az" = true ∧ same "É" "é" = false ∧ same "[" "\x7b" = false ∧
    same "é" "e\u0301" = false := by
  decide

end Ident

end ExpressLinks
