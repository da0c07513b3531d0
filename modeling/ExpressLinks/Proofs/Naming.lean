import ExpressLinks.Ident

/-!
# What a name refers to

Two names are the same exactly when their folded spellings are equal, so being
the same is an equivalence; folding moves nothing but capitals, and a folded spelling
no further. A name refers to the first declaration that bears it:
`FirstNamed` says so without a search, and the search by `Ident.same` finds
exactly that declaration.
-/

namespace ExpressLinks

namespace Ident

theorem sameLetters_iff_map_eq (as bs : List Char) :
    sameLetters as bs = true ↔ as.map Char.toLower = bs.map Char.toLower := by
  induction as generalizing bs with
  | nil => cases bs <;> simp [sameLetters]
  | cons a as ih =>
      cases bs with
      | nil => simp [sameLetters]
      | cons b bs => simp [sameLetters, ih]

/-- Comparing two names letter by letter compares their folded spellings. -/
theorem same_iff_folded_eq (a b : String) : same a b = true ↔ folded a = folded b := by
  rw [same, sameLetters_iff_map_eq, ← String.toList_inj, toList_folded, toList_folded]

theorem same_refl (name : String) : same name name = true :=
  (same_iff_folded_eq name name).mpr rfl

theorem same_symm {a b : String} (equal : same a b = true) : same b a = true := by
  rw [same_iff_folded_eq] at equal ⊢
  exact equal.symm

theorem same_trans {a b c : String} (first : same a b = true) (second : same b c = true) :
    same a c = true := by
  rw [same_iff_folded_eq] at first second ⊢
  exact first.trans second

/-- A capital moves up by the distance between the two alphabets. -/
theorem toNat_toLower_of_capital {c : Char} (above : 65 ≤ c.toNat) (below : c.toNat ≤ 90) :
    c.toLower.toNat = c.toNat + 32 := by
  have capital : c.val ≥ 'A'.val ∧ c.val ≤ 'Z'.val :=
    ⟨UInt32.le_iff_toNat_le.mpr above, UInt32.le_iff_toNat_le.mpr below⟩
  have moved : c.toLower.val = c.val + ('a'.val - 'A'.val) := congrArg Char.val (dif_pos capital)
  rw [← Char.toNat_val, moved, UInt32.toNat_add, Char.toNat_val]
  exact Nat.mod_eq_of_lt (by simp; omega)

/-- Nothing but the capitals moves. -/
theorem toLower_of_not_capital {c : Char} (other : ¬ (65 ≤ c.toNat ∧ c.toNat ≤ 90)) :
    c.toLower = c := by
  refine dif_neg fun capital => other ?_
  exact ⟨UInt32.le_iff_toNat_le.mp capital.1, UInt32.le_iff_toNat_le.mp capital.2⟩

theorem toLower_eq_self_or_capital (c : Char) :
    c.toLower = c ∨ 65 ≤ c.toNat ∧ c.toNat ≤ 90 ∧ c.toLower.toNat = c.toNat + 32 := by
  by_cases capital : 65 ≤ c.toNat ∧ c.toNat ≤ 90
  · exact .inr ⟨capital.1, capital.2, toNat_toLower_of_capital capital.1 capital.2⟩
  · exact .inl (toLower_of_not_capital capital)

theorem toLower_toLower (c : Char) : c.toLower.toLower = c.toLower := by
  rcases toLower_eq_self_or_capital c with same | ⟨above, -, moved⟩
  · rw [same, same]
  · rcases toLower_eq_self_or_capital c.toLower with same | ⟨-, below, -⟩
    · exact same
    · omega

/-- Folding leads to a sign before the letters only from that sign. -/
theorem toLower_eq_iff_of_lt {c sign : Char} (before : sign.toNat < 65) :
    c.toLower = sign ↔ c = sign := by
  rcases toLower_eq_self_or_capital c with same | ⟨above, -, moved⟩
  · rw [same]
  · constructor
    · intro equal
      rw [equal] at moved
      omega
    · rintro rfl
      omega

@[simp] theorem folded_folded (name : String) : folded (folded name) = folded name := by
  have letters : Char.toLower ∘ Char.toLower = Char.toLower := funext toLower_toLower
  rw [← String.toList_inj, toList_folded, toList_folded, List.map_map, letters]

@[simp] theorem same_folded_folded (a b : String) : same (folded a) (folded b) = same a b := by
  rw [Bool.eq_iff_iff, same_iff_folded_eq, same_iff_folded_eq, folded_folded, folded_folded]

@[simp] theorem folded_eq_empty_iff {name : String} : folded name = "" ↔ name = "" := by
  rw [← String.toList_inj, ← String.toList_inj, toList_folded]
  simp

/-- Nothing but the empty name is the same as the empty name. -/
@[simp] theorem same_empty_iff {name : String} : same name "" ↔ name = "" := by
  rw [same_iff_folded_eq, ← folded_eq_empty_iff]
  rfl

/-- Names that are the same have the same signs. -/
theorem mem_toList_iff_of_same {sign : Char} (before : sign.toNat < 65) {a b : String}
    (equal : same a b) : sign ∈ a.toList ↔ sign ∈ b.toList := by
  have kept (name : String) : sign ∈ (folded name).toList ↔ sign ∈ name.toList := by
    simp [toLower_eq_iff_of_lt before]
  rw [← kept a, ← kept b, (same_iff_folded_eq a b).mp equal]

end Ident

/-- Among the declared, `found` is the first whose own name is the given one. -/
def FirstNamed {α : Type} (id : α → String) (name : String) (declared : List α) (found : α) :
    Prop :=
  ∃ before after, declared = before ++ found :: after ∧ Ident.same (id found) name ∧
    ∀ other ∈ before, ¬ Ident.same (id other) name

section FirstNamed

variable {α : Type} {id : α → String} {name : String} {declared : List α} {found : α}

/-- The search for a name finds what the name refers to. -/
theorem find?_same_eq_some_iff :
    declared.find? (fun a => Ident.same (id a) name) = some found ↔
      FirstNamed id name declared found := by
  rw [List.find?_eq_some_iff_append]
  constructor
  · rintro ⟨same, before, after, split, others⟩
    refine ⟨before, after, split, same, ?_⟩
    intro other member
    simpa using others other member
  · rintro ⟨before, after, split, same, others⟩
    refine ⟨same, before, after, split, ?_⟩
    intro other member
    simpa using others other member

/-- Where all names are folded, the search finds what it found before, folded. -/
theorem find?_same_map_folded (id : α → String) (fold : α → α)
    (spelled : ∀ a, id (fold a) = Ident.folded (id a)) (declared : List α) (name : String) :
    (declared.map fold).find? (fun a => Ident.same (id a) (Ident.folded name)) =
      (declared.find? fun a => Ident.same (id a) name).map fold := by
  have unmoved : (fun a => Ident.same (id a) (Ident.folded name)) ∘ fold =
      fun a => Ident.same (id a) name := by
    funext a
    simp [spelled]
  rw [List.find?_map, unmoved]

theorem FirstNamed.mem (h : FirstNamed id name declared found) : found ∈ declared := by
  obtain ⟨before, after, split, -, -⟩ := h
  rw [split]
  exact List.mem_append_right before List.mem_cons_self

theorem FirstNamed.same (h : FirstNamed id name declared found) : Ident.same (id found) name := by
  obtain ⟨before, after, -, same, -⟩ := h
  exact same

/-- What a name refers to is also what its own name refers to. -/
theorem FirstNamed.own (h : FirstNamed id name declared found) :
    FirstNamed id (id found) declared found := by
  obtain ⟨before, after, split, same, others⟩ := h
  refine ⟨before, after, split, Ident.same_refl (id found), ?_⟩
  intro other member equal
  exact others other member (Ident.same_trans equal same)

/-- A name refers to one declaration at most. -/
theorem FirstNamed.unique {other : α} (h : FirstNamed id name declared found)
    (h' : FirstNamed id name declared other) : found = other := by
  rw [← find?_same_eq_some_iff] at h h'
  exact Option.some.inj (h.symm.trans h')

/-- A name refers to something as soon as one declaration bears it. -/
theorem exists_firstNamed_iff :
    (∃ a, FirstNamed id name declared a) ↔ ∃ a ∈ declared, Ident.same (id a) name := by
  constructor
  · rintro ⟨a, first⟩
    exact ⟨a, first.mem, first.same⟩
  · rintro ⟨a, member, same⟩
    have isFound : (declared.find? fun a => Ident.same (id a) name).isSome :=
      List.find?_isSome.mpr ⟨a, member, same⟩
    obtain ⟨b, found⟩ := Option.isSome_iff_exists.mp isFound
    exact ⟨b, find?_same_eq_some_iff.mp found⟩

end FirstNamed

end ExpressLinks
