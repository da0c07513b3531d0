import ExpressLinks.FirstUse

/-!
# What first uses are

The first uses of a list are the elements before which no element of the same key
stands, and their keys are the keys of the list without repetitions. The search
carries the keys it has seen; the two statements are proved with these set aside.
-/

namespace ExpressLinks

variable {α κ : Type} [BEq κ] [LawfulBEq κ] (key : α → κ)

/-- An element stays when its key has not been seen and comes up for the first time. -/
theorem mem_firstUsesAfter_iff {seen : List κ} {elements : List α} {a : α} :
    a ∈ firstUsesAfter key seen elements ↔
      key a ∉ seen ∧ ∃ before after, elements = before ++ a :: after ∧
        ∀ earlier ∈ before, key earlier ≠ key a := by
  induction elements generalizing seen with
  | nil => simp [firstUsesAfter]
  | cons first rest ih =>
      rw [firstUsesAfter]
      constructor
      · split
        next known =>
          intro member
          obtain ⟨fresh, before, after, rfl, others⟩ := ih.mp member
          have different : key first ≠ key a := by
            rintro same
            exact fresh (same ▸ by simpa using known)
          exact ⟨fresh, first :: before, after, rfl, by simpa [different] using others⟩
        next unknown =>
          intro member
          rcases List.mem_cons.mp member with rfl | member
          · exact ⟨by simpa using unknown, [], rest, rfl, by simp⟩
          · obtain ⟨fresh, before, after, rfl, others⟩ := ih.mp member
            obtain ⟨different, unseen⟩ := not_or.mp (mt List.mem_cons.mpr fresh)
            exact ⟨unseen, first :: before, after, rfl,
              by simpa [Ne.symm different] using others⟩
      · rintro ⟨fresh, before, after, split, others⟩
        cases before with
        | nil =>
            obtain ⟨rfl, rfl⟩ := List.cons.inj split
            simp [fresh]
        | cons earlier before =>
            obtain ⟨rfl, rfl⟩ := List.cons.inj split
            have different : key first ≠ key a := others first List.mem_cons_self
            have later : ∀ b ∈ before, key b ≠ key a :=
              fun b member => others b (List.mem_cons_of_mem first member)
            by_cases known : seen.contains (key first)
            · rw [if_pos known]
              exact ih.mpr ⟨fresh, before, after, rfl, later⟩
            · rw [if_neg known]
              refine List.mem_cons_of_mem first (ih.mpr ⟨?_, before, after, rfl, later⟩)
              simp [Ne.symm different, fresh]

/-- The keys of what stays are the unseen keys without repetitions. -/
theorem map_firstUsesAfter (seen : List κ) (elements : List α) :
    (firstUsesAfter key seen elements).map key =
      ((elements.map key).filter fun k => !seen.contains k).eraseDups := by
  induction elements generalizing seen with
  | nil => rfl
  | cons first rest ih =>
      rw [firstUsesAfter]
      by_cases known : seen.contains (key first)
      · rw [if_pos known, ih, List.map_cons, List.filter_cons_of_neg (by simpa using known)]
      · rw [if_neg known, List.map_cons, ih, List.map_cons,
          List.filter_cons_of_pos (by simpa using known), List.eraseDups_cons, List.filter_filter]
        simp only [List.contains_cons, Bool.not_or]

/-- What stays has pairwise different keys. -/
theorem nodup_map_firstUsesAfter (seen : List κ) (elements : List α) :
    ((firstUsesAfter key seen elements).map key).Nodup := by
  induction elements generalizing seen with
  | nil => exact List.nodup_nil
  | cons first rest ih =>
      rw [firstUsesAfter]
      split
      · exact ih seen
      · rw [List.map_cons]
        refine List.nodup_cons.mpr ⟨?_, ih _⟩
        intro member
        obtain ⟨other, later, same⟩ := List.mem_map.mp member
        have fresh := ((mem_firstUsesAfter_iff key).mp later).1
        exact fresh (same ▸ List.mem_cons_self)

omit [LawfulBEq κ] in
/-- What stays keeps its order. -/
theorem firstUsesAfter_sublist (seen : List κ) (elements : List α) :
    (firstUsesAfter key seen elements).Sublist elements := by
  induction elements generalizing seen with
  | nil => exact List.Sublist.refl []
  | cons first rest ih =>
      rw [firstUsesAfter]
      split
      · exact (ih seen).cons first
      · exact (ih (key first :: seen)).cons_cons first

omit [LawfulBEq κ] in
theorem firstUses_sublist (elements : List α) : (firstUses key elements).Sublist elements :=
  firstUsesAfter_sublist key [] elements

/-- An element is a first use when no earlier element has its key. -/
theorem mem_firstUses_iff {elements : List α} {a : α} :
    a ∈ firstUses key elements ↔
      ∃ before after, elements = before ++ a :: after ∧
        ∀ earlier ∈ before, key earlier ≠ key a := by
  rw [firstUses, mem_firstUsesAfter_iff]
  simp

/-- The keys of the first uses are all keys, each once, in the order of their first uses. -/
theorem map_firstUses (elements : List α) :
    (firstUses key elements).map key = (elements.map key).eraseDups := by
  rw [firstUses, map_firstUsesAfter, List.filter_eq_self.mpr (by simp)]

/-- Different first uses have different keys. -/
theorem nodup_map_firstUses (elements : List α) : ((firstUses key elements).map key).Nodup :=
  nodup_map_firstUsesAfter key [] elements

theorem nodup_eraseDups (keys : List κ) : keys.eraseDups.Nodup := by
  have distinct := nodup_map_firstUses id keys
  rwa [map_firstUses, List.map_id] at distinct

end ExpressLinks
