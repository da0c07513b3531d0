import ExpressLinks.Proofs.Text.Lines

/-!
# Line endings

Putting a carriage return in front of every line feed changes how lines end. A line then
may keep a carriage return that it lost before, or it is the same. The characters other
than carriage returns stay, and a text so written is taken apart wherever it is not cut
between a carriage return and its line feed.
-/

namespace ExpressLinks.Text

/-- The text with a carriage return in front of every line feed. -/
def withCarriages (text : List Char) : List Char :=
  text.flatMap fun c => if c = '\n' then ['\r', '\n'] else [c]

@[simp] theorem withCarriages_nil : withCarriages [] = [] := rfl

@[simp] theorem withCarriages_append (first second : List Char) :
    withCarriages (first ++ second) = withCarriages first ++ withCarriages second :=
  List.flatMap_append

@[simp] theorem withCarriages_feed_cons (cs : List Char) :
    withCarriages ('\n' :: cs) = '\r' :: '\n' :: withCarriages cs := rfl

theorem withCarriages_cons_of_ne {c : Char} (other : c ≠ '\n') (cs : List Char) :
    withCarriages (c :: cs) = c :: withCarriages cs := by
  rw [withCarriages, List.flatMap_cons, if_neg other]
  rfl

theorem withCarriages_of_not_mem {text : List Char} (free : '\n' ∉ text) :
    withCarriages text = text := by
  induction text with
  | nil => rfl
  | cons c cs ih =>
      obtain ⟨other, rest⟩ := not_or.mp (mt List.mem_cons.mpr free)
      rw [withCarriages_cons_of_ne (Ne.symm other), ih rest]

/-- Only carriage returns are added. -/
theorem mem_withCarriages_iff {c : Char} (other : c ≠ '\r') {text : List Char} :
    c ∈ withCarriages text ↔ c ∈ text := by
  induction text with
  | nil => rfl
  | cons d cs ih =>
      by_cases feed : d = '\n'
      · subst feed
        simp [other, ih]
      · simp [withCarriages_cons_of_ne feed, ih]

theorem withCarriages_eq_nil_iff {text : List Char} : withCarriages text = [] ↔ text = [] := by
  cases text with
  | nil => simp
  | cons c cs =>
      by_cases feed : c = '\n'
      · simp [feed]
      · simp [withCarriages_cons_of_ne feed]

theorem lineFeeds_withCarriages (text : List Char) :
    lineFeeds (withCarriages text) = lineFeeds text := by
  induction text with
  | nil => rfl
  | cons c cs ih =>
      by_cases feed : c = '\n'
      · subst feed
        rw [withCarriages_feed_cons, lineFeeds_cons_of_ne (by decide), lineFeeds_cons, ih,
          ← lineFeeds_cons]
      · rw [withCarriages_cons_of_ne feed, lineFeeds_cons_of_ne feed, lineFeeds_cons_of_ne feed, ih]

/-- A front without carriage returns stood in front before, too. -/
theorem exists_rest_of_withCarriages {text front rest : List Char} (free : '\r' ∉ front)
    (split : withCarriages text = front ++ rest) :
    ∃ later, text = front ++ later ∧ withCarriages later = rest := by
  induction front generalizing text with
  | nil => exact ⟨text, rfl, split⟩
  | cons c front ih =>
      obtain ⟨notReturn, frontFree⟩ := not_or.mp (mt List.mem_cons.mpr free)
      cases text with
      | nil => simp at split
      | cons d cs =>
          by_cases feed : d = '\n'
          · subst feed
            exact absurd (List.cons.inj split).1 notReturn
          · rw [withCarriages_cons_of_ne feed, List.cons_append] at split
            obtain ⟨rfl, tail⟩ := List.cons.inj split
            obtain ⟨later, rfl, later_eq⟩ := ih frontFree tail
            exact ⟨later, rfl, later_eq⟩

/-- Where it is cut elsewhere than in front of a line feed, both parts come from parts of
    the text before. -/
theorem exists_parts_of_withCarriages {text front rest : List Char}
    (split : withCarriages text = front ++ rest) (cut : rest.head? ≠ some '\n') :
    ∃ first second, text = first ++ second ∧ withCarriages first = front ∧
      withCarriages second = rest := by
  induction text generalizing front with
  | nil =>
      obtain ⟨rfl, rfl⟩ := List.append_eq_nil_iff.mp split.symm
      exact ⟨[], [], rfl, rfl, rfl⟩
  | cons c cs ih =>
      cases front with
      | nil => exact ⟨[], c :: cs, rfl, rfl, split⟩
      | cons d front =>
          by_cases feed : c = '\n'
          · subst feed
            rw [withCarriages_feed_cons, List.cons_append] at split
            obtain ⟨rfl, ended⟩ := List.cons.inj split
            cases front with
            | nil =>
                rw [List.nil_append] at ended
                exact absurd (ended ▸ rfl) cut
            | cons e front =>
                obtain ⟨rfl, tail⟩ := List.cons.inj ended
                obtain ⟨first, second, rfl, first_eq, second_eq⟩ := ih tail
                exact ⟨'\n' :: first, second, rfl, by rw [withCarriages_feed_cons, first_eq],
                  second_eq⟩
          · rw [withCarriages_cons_of_ne feed, List.cons_append] at split
            obtain ⟨rfl, tail⟩ := List.cons.inj split
            obtain ⟨first, second, rfl, first_eq, second_eq⟩ := ih tail
            exact ⟨c :: first, second, rfl, by rw [withCarriages_cons_of_ne feed, first_eq],
              second_eq⟩

/-- What does not look at a carriage return at the end of a line finds the same in the
    lines of both texts. -/
theorem map_lines_withCarriages {α : Type} {f : List Char → α}
    (ignores : ∀ line, f (line ++ ['\r']) = f line) (text : List Char) :
    (lines (withCarriages text)).map f = (lines text).map f := by
  have dropped (line : List Char) : f (dropCarriage line) = f line := by
    rcases eq_dropCarriage_or line with same | ended
    · rw [← same]
    · conv => rhs; rw [ended, ignores]
  induction text using line_induction with
  | last text free => rw [withCarriages_of_not_mem free]
  | line first rest free ih =>
      have written : withCarriages (first ++ '\n' :: rest) =
          (first ++ ['\r']) ++ '\n' :: withCarriages rest := by
        rw [withCarriages_append, withCarriages_of_not_mem free, withCarriages_feed_cons,
          List.append_assoc, List.singleton_append]
      have firstFree : '\n' ∉ first ++ ['\r'] := by simp [free]
      rw [written, lines_append_feed firstFree, lines_append_feed free, List.map_cons,
        List.map_cons, ih, dropped, dropped, ignores]

end ExpressLinks.Text
