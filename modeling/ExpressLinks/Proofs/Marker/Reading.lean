import Mathlib.Data.List.Basic
import Mathlib.Data.List.TakeWhile
import ExpressLinks.Marker

/-!
# Reading markers

Reading undoes writing at the front of a text: a text starts with a marker exactly
when it is a well-formed marker as written, followed by whatever remains. From
this follows what the search through a text does: it passes over characters where
no marker starts, and after a marker it goes on behind it.
-/

namespace ExpressLinks.Marker

/-- The path is not empty and holds neither commas nor greater-than signs; a render
    text is not empty and holds no greater-than signs. -/
structure WellFormed (marker : Marker) : Prop where
  path_ne_nil : marker.path.toList ≠ []
  path_chars : ∀ c ∈ marker.path.toList, isPathChar c = true
  render_ne_nil : ∀ render, marker.render = some render → render.toList ≠ []
  render_chars : ∀ render, marker.render = some render →
    ∀ c ∈ render.toList, isRenderChar c = true

/-- What stands between the opening and the closing of a written marker. -/
def body (marker : Marker) : List Char :=
  match marker.render with
  | none => marker.path.toList
  | some render => marker.path.toList ++ ',' :: render.toList

theorem write_eq (marker : Marker) :
    marker.write = opening ++ (marker.body ++ '>' :: '>' :: []) := by
  unfold write body
  cases marker.render <;> simp [closing]

theorem all_isPathChar_iff {span : List Char} :
    (∀ c ∈ span, isPathChar c = true) ↔ ',' ∉ span ∧ '>' ∉ span := by
  constructor
  · intro all
    refine ⟨?_, ?_⟩ <;> intro member <;> simpa [isPathChar] using all _ member
  · rintro ⟨noComma, noSign⟩ c member
    have notComma : c ≠ ',' := fun same => noComma (same ▸ member)
    have notSign : c ≠ '>' := fun same => noSign (same ▸ member)
    simp [isPathChar, notComma, notSign]

theorem all_isRenderChar_iff {span : List Char} :
    (∀ c ∈ span, isRenderChar c = true) ↔ '>' ∉ span := by
  constructor
  · intro all member
    simpa [isRenderChar] using all _ member
  · intro noSign c member
    have notSign : c ≠ '>' := fun same => noSign (same ▸ member)
    simp [isRenderChar, notSign]

theorem WellFormed.not_mem_body {marker : Marker} (h : marker.WellFormed) : '>' ∉ marker.body := by
  have path := (all_isPathChar_iff.mp h.path_chars).2
  unfold body
  cases written : marker.render with
  | none => exact path
  | some render =>
      have text := all_isRenderChar_iff.mp (h.render_chars render written)
      simp [path, text]

section Spans

variable {p : Char → Bool} {span rest : List Char} {stop : Char}

/-- A span ends at the first character that does not belong to it. -/
theorem takeWhile_span (all : ∀ c ∈ span, p c = true) (ends : p stop = false) :
    (span ++ stop :: rest).takeWhile p = span := by
  rw [List.takeWhile_append_of_pos all, List.takeWhile_cons_of_neg (by simp [ends]),
    List.append_nil]

theorem dropWhile_span (all : ∀ c ∈ span, p c = true) (ends : p stop = false) :
    (span ++ stop :: rest).dropWhile p = stop :: rest := by
  rw [List.dropWhile_append_of_pos all, List.dropWhile_cons_of_neg (by simp [ends])]

/-- Where a text leaves its first span, and with what, is determined. -/
theorem span_unique {span' rest' : List Char} (all : ∀ c ∈ span, p c = true)
    (all' : ∀ c ∈ span', p c = true) (ends : p stop = false)
    (same : span ++ stop :: rest = span' ++ stop :: rest') : span = span' ∧ rest = rest' := by
  have taken := congrArg (List.takeWhile p) same
  have dropped := congrArg (List.dropWhile p) same
  rw [takeWhile_span all ends, takeWhile_span all' ends] at taken
  rw [dropWhile_span all ends, dropWhile_span all' ends] at dropped
  exact ⟨taken, (List.cons.inj dropped).2⟩

theorem mem_takeWhile_toList (text : List Char) :
    ∀ c ∈ (String.ofList (text.takeWhile p)).toList, p c = true := by
  intro c member
  rw [String.toList_ofList] at member
  exact List.mem_takeWhile_imp member

end Spans

/-- What is read is well formed, and stands at the front of the text as written. -/
theorem of_read?_eq_some {text rest : List Char} {marker : Marker}
    (h : read? text = some (marker, rest)) : marker.WellFormed ∧ text = marker.write ++ rest := by
  unfold read? at h
  cases opened : opening.isPrefixOf? text with
  | none => simp [opened] at h
  | some body =>
      have text_eq : opening ++ body = text := List.isPrefixOf?_eq_some_iff_append_eq.mp opened
      simp only [opened] at h
      split at h
      · simp at h
      next nonempty =>
        split at h
        · next after closed =>
            simp only [Option.some.injEq, Prod.mk.injEq] at h
            obtain ⟨rfl, rfl⟩ := h
            refine ⟨⟨by simpa using nonempty, mem_takeWhile_toList body, by simp, by simp⟩, ?_⟩
            calc
              text = opening ++ body := text_eq.symm
              _ = opening ++ (body.takeWhile isPathChar ++ '>' :: '>' :: after) := by
                rw [← closed, List.takeWhile_append_dropWhile]
              _ = _ := by simp [write_eq, Marker.body]
        · next tail comma =>
            split at h
            · simp at h
            next rendered =>
              split at h
              · next after closed =>
                  simp only [Option.some.injEq, Prod.mk.injEq] at h
                  obtain ⟨rfl, rfl⟩ := h
                  refine ⟨⟨by simpa using nonempty, mem_takeWhile_toList body, ?_, ?_⟩, ?_⟩
                  · intro render written
                    obtain rfl := Option.some.inj written
                    simpa using rendered
                  · intro render written
                    obtain rfl := Option.some.inj written
                    exact mem_takeWhile_toList tail
                  · calc
                      text = opening ++ body := text_eq.symm
                      _ = opening ++ (body.takeWhile isPathChar ++ ',' :: tail) := by
                        rw [← comma, List.takeWhile_append_dropWhile]
                      _ = opening ++ (body.takeWhile isPathChar ++
                          ',' :: (tail.takeWhile isRenderChar ++ '>' :: '>' :: after)) := by
                        rw [← closed, List.takeWhile_append_dropWhile]
                      _ = _ := by simp [write_eq, Marker.body]
              · simp at h
        · simp at h

/-- A well-formed marker is read back, whatever follows it. -/
theorem read?_write_append {marker : Marker} (h : marker.WellFormed) (rest : List Char) :
    read? (marker.write ++ rest) = some (marker, rest) := by
  obtain ⟨path, render⟩ := marker
  have opened (tail : List Char) : opening.isPrefixOf? (opening ++ tail) = some tail :=
    List.isPrefixOf?_eq_some_iff_append_eq.mpr rfl
  have comma : isPathChar ',' = false := rfl
  have sign : isPathChar '>' = false := rfl
  have path_ne_nil : path.toList ≠ [] := h.path_ne_nil
  have path_chars : ∀ c ∈ path.toList, isPathChar c = true := h.path_chars
  rw [write_eq, List.append_assoc, read?]
  simp only [opened]
  cases render with
  | none =>
      simp only [body, List.append_assoc, List.cons_append, List.nil_append]
      rw [takeWhile_span path_chars sign, dropWhile_span path_chars sign]
      simp [path_ne_nil]
  | some render =>
      have render_ne_nil : render.toList ≠ [] := h.render_ne_nil render rfl
      have render_chars : ∀ c ∈ render.toList, isRenderChar c = true := h.render_chars render rfl
      simp only [body, List.append_assoc, List.cons_append, List.nil_append]
      rw [takeWhile_span path_chars comma, dropWhile_span path_chars comma]
      simp only [path_ne_nil, if_false]
      rw [takeWhile_span render_chars rfl, dropWhile_span render_chars rfl]
      simp [render_ne_nil]

/-- A text starts with a marker exactly when it is a written marker and a rest. -/
theorem read?_eq_some_iff {text rest : List Char} {marker : Marker} :
    read? text = some (marker, rest) ↔ marker.WellFormed ∧ text = marker.write ++ rest := by
  constructor
  · exact of_read?_eq_some
  · rintro ⟨wellFormed, rfl⟩
    exact read?_write_append wellFormed rest

/-- Nothing is read where no well-formed marker is written. -/
theorem read?_eq_none_iff {text : List Char} :
    read? text = none ↔ ∀ marker : Marker, marker.WellFormed → ¬ marker.write <+: text := by
  rw [Option.eq_none_iff_forall_ne_some]
  constructor
  · rintro nothing marker wellFormed ⟨rest, rfl⟩
    exact nothing (marker, rest) (read?_write_append wellFormed rest)
  · rintro nothing ⟨marker, rest⟩ reads
    obtain ⟨wellFormed, rfl⟩ := of_read?_eq_some reads
    exact nothing marker wellFormed (List.prefix_append _ _)

/-- Where a longer text starts with no marker, neither does its beginning. -/
theorem read?_eq_none_of_append {text later : List Char} (nothing : read? (text ++ later) = none) :
    read? text = none := by
  rw [read?_eq_none_iff] at nothing ⊢
  intro marker wellFormed written
  exact nothing marker wellFormed (written.trans (List.prefix_append text later))

theorem length_write_pos (marker : Marker) : 0 < marker.write.length := by
  rw [write_eq]
  exact Nat.zero_lt_succ _

/-- A written marker begins with an opening. -/
theorem opening_prefix_write (marker : Marker) : opening <+: marker.write := by
  rw [write_eq]
  exact List.prefix_append _ _

end ExpressLinks.Marker
