import ExpressLinks.Proofs.Text.Pieces

/-!
# Lines of a text

The first line feed of a text ends its first line, together with a carriage return
before it; the lines after it are those of the rest. A text without line feeds is
one line, or none if it is empty.
-/

namespace ExpressLinks.Text

theorem lines_append_feed {first : List Char} (free : '\n' ∉ first) (rest : List Char) :
    lines (first ++ '\n' :: rest) = dropCarriage first :: lines rest := by
  obtain ⟨piece, pieces, cut⟩ := List.exists_cons_of_ne_nil (splitAt_ne_nil '\n' rest)
  rw [lines, lines, splitAt_append_cons, splitAt_of_not_mem free, cut]
  rfl

theorem lines_of_not_mem {text : List Char} (free : '\n' ∉ text) :
    lines text = if text = [] then [] else [text] := by
  rw [lines, splitAt_of_not_mem free]
  rfl

/-- A line loses nothing but one carriage return, and that at its end. -/
theorem eq_dropCarriage_or (text : List Char) :
    text = dropCarriage text ∨ text = dropCarriage text ++ ['\r'] := by
  fun_induction dropCarriage text with
  | case1 => exact .inl rfl
  | case2 => exact .inr rfl
  | case3 c cs _ ih =>
      rcases ih with same | dropped
      · exact .inl (congrArg (c :: ·) same)
      · exact .inr (congrArg (c :: ·) dropped)

/-- What holds of texts without line feeds, and of a line and a rest if it holds of the
    rest, holds of all texts. -/
theorem line_induction {motive : List Char → Prop}
    (last : ∀ text, '\n' ∉ text → motive text)
    (line : ∀ first rest, '\n' ∉ first → motive rest → motive (first ++ '\n' :: rest))
    (text : List Char) : motive text :=
  piece_induction '\n' last line text

theorem not_mem_of_mem_lines {text line : List Char} (member : line ∈ lines text) :
    '\n' ∉ line := by
  induction text using line_induction with
  | last text free =>
      rw [lines_of_not_mem free] at member
      split at member
      · simp at member
      · rwa [List.mem_singleton.mp member]
  | line first rest free ih =>
      rw [lines_append_feed free] at member
      rcases List.mem_cons.mp member with rfl | later
      · intro feed
        apply free
        rcases eq_dropCarriage_or first with same | dropped
        · exact same ▸ feed
        · exact dropped ▸ List.mem_append_left _ feed
      · exact ih later

/-- The last line of a text: all of it, or what follows its last line feed. -/
def lastLine (text : List Char) : List Char :=
  (splitAt '\n' text).getLast (splitAt_ne_nil '\n' text)

theorem lastLine_of_not_mem {text : List Char} (free : '\n' ∉ text) : lastLine text = text := by
  simp [lastLine, splitAt_of_not_mem free]

/-- What stands before a line feed does not belong to the last line. -/
theorem lastLine_append_feed (before rest : List Char) :
    lastLine (before ++ '\n' :: rest) = lastLine rest := by
  simp [lastLine, splitAt_append_cons, List.getLast_append_of_ne_nil _ (splitAt_ne_nil '\n' rest)]

/-- Where there is a line feed, nothing before it belongs to the last line. -/
theorem lastLine_append_of_mem (before : List Char) {text : List Char} (feed : '\n' ∈ text) :
    lastLine (before ++ text) = lastLine text := by
  obtain ⟨first, rest, rfl⟩ := List.append_of_mem feed
  rw [← List.append_assoc, lastLine_append_feed, lastLine_append_feed]

theorem not_mem_lastLine (text : List Char) : '\n' ∉ lastLine text :=
  not_mem_of_mem_splitAt (List.getLast_mem (splitAt_ne_nil '\n' text))

/-- A text is its last line, or a line feed stands in front of its last line. -/
theorem eq_lastLine_or (text : List Char) :
    text = lastLine text ∨ ∃ before, text = before ++ '\n' :: lastLine text := by
  induction text using line_induction with
  | last text free => exact .inl (lastLine_of_not_mem free).symm
  | line first rest free ih =>
      right
      rw [lastLine_append_feed]
      rcases ih with whole | ⟨before, split⟩
      · exact ⟨first, congrArg (first ++ '\n' :: ·) whole⟩
      · refine ⟨first ++ '\n' :: before, ?_⟩
        rw [List.append_assoc, List.cons_append, ← split]

theorem lastLine_suffix (text : List Char) : lastLine text <:+ text := by
  rcases eq_lastLine_or text with whole | ⟨before, split⟩
  · exact ⟨[], whole.symm⟩
  · exact ⟨before ++ ['\n'], by simpa using split.symm⟩

/-- What is added behind a text without a line feed is added to its last line. -/
theorem lastLine_append (text : List Char) {added : List Char} (free : '\n' ∉ added) :
    lastLine (text ++ added) = lastLine text ++ added := by
  rcases eq_lastLine_or text with whole | ⟨before, split⟩
  · have own : '\n' ∉ text := whole ▸ not_mem_lastLine text
    rw [lastLine_of_not_mem own, lastLine_of_not_mem (by simp [own, free])]
  · conv => lhs; rw [split, List.append_assoc, List.cons_append, lastLine_append_feed]
    exact lastLine_of_not_mem (by simp [not_mem_lastLine, free])

end ExpressLinks.Text
