import ExpressLinks.Proofs.Marker.Reading
import ExpressLinks.Proofs.Text.Pieces

/-!
# The search for markers

`occurrencesFrom` goes through a text character by character and counts lines on
its way. Seen from outside it takes two steps: it passes over a stretch in which
no marker starts, and where a marker starts it reports the marker and goes on
behind it. In both steps the line moves on by the line feeds passed. A whole search is
an induction over these steps: an occurrence tells apart the text in front of its marker,
where the earlier ones were found, and the text behind it.
-/

namespace ExpressLinks.Marker

open Text (lineFeeds)

theorem lineAfter_eq (line : Nat) (c : Char) : lineAfter line c = line + lineFeeds [c] := by
  unfold lineAfter
  by_cases feed : c = '\n' <;> simp [feed, lineFeeds]

/-- Characters that belong to a marker already read are passed over. -/
theorem occurrencesFrom_skip (line : Nat) (skipped rest : List Char) :
    occurrencesFrom line skipped.length (skipped ++ rest) =
      occurrencesFrom (line + lineFeeds skipped) 0 rest := by
  induction skipped generalizing line with
  | nil => simp
  | cons c cs ih =>
      rw [List.length_cons, List.cons_append, occurrencesFrom, ih, lineAfter_eq,
        Text.lineFeeds_cons c cs, Nat.add_assoc]

/-- A stretch in which no marker starts is passed over. -/
theorem occurrencesFrom_pass (line : Nat) (passed rest : List Char)
    (noMarker : ∀ start < passed.length, read? ((passed ++ rest).drop start) = none) :
    occurrencesFrom line 0 (passed ++ rest) =
      occurrencesFrom (line + lineFeeds passed) 0 rest := by
  induction passed generalizing line with
  | nil => simp
  | cons c cs ih =>
      have first : read? (c :: (cs ++ rest)) = none := noMarker 0 (by simp)
      have later : ∀ start < cs.length, read? ((cs ++ rest).drop start) = none := by
        intro start bound
        simpa using noMarker (start + 1) (by simpa using bound)
      rw [List.cons_append, occurrencesFrom, first]
      simp only
      rw [ih (lineAfter line c) later, lineAfter_eq, Text.lineFeeds_cons c cs, Nat.add_assoc]

/-- A marker is reported, and the search goes on behind it. -/
theorem occurrencesFrom_write_append (line : Nat) {marker : Marker} (h : marker.WellFormed)
    (rest : List Char) :
    occurrencesFrom line 0 (marker.write ++ rest) =
      ⟨marker, line⟩ :: occurrencesFrom (line + lineFeeds marker.write) 0 rest := by
  have read := read?_write_append h rest
  obtain ⟨c, cs, written⟩ : ∃ c cs, marker.write = c :: cs := by
    rw [write_eq]
    exact ⟨_, _, rfl⟩
  rw [written, List.cons_append] at read ⊢
  rw [occurrencesFrom, read]
  simp only
  rw [written, List.length_cons, Nat.add_sub_cancel, occurrencesFrom_skip, lineAfter_eq,
    Text.lineFeeds_cons c cs, Nat.add_assoc]

/-- Where no marker starts the search goes on at the next character. -/
theorem occurrencesFrom_cons_of_none (line : Nat) {c : Char} {cs : List Char}
    (nothing : read? (c :: cs) = none) :
    occurrencesFrom line 0 (c :: cs) = occurrencesFrom (lineAfter line c) 0 cs := by
  rw [occurrencesFrom, nothing]

/-- What holds of the empty text, of a text whose first character starts no marker if it
    holds of what follows, and of a text behind a marker if it holds of what follows, holds
    of all texts, each on the line to which the search has come. -/
theorem search_induction {motive : Nat → List Char → Prop} (nil : ∀ line, motive line [])
    (pass : ∀ line c cs, read? (c :: cs) = none → motive (lineAfter line c) cs →
      motive line (c :: cs))
    (found : ∀ line (marker : Marker) rest, marker.WellFormed →
      motive (line + lineFeeds marker.write) rest → motive line (marker.write ++ rest))
    (line : Nat) (text : List Char) : motive line text := by
  induction length : text.length using Nat.strong_induction_on generalizing line text with
  | h size ih =>
      subst length
      cases text with
      | nil => exact nil line
      | cons c cs =>
          cases reads : read? (c :: cs) with
          | none => exact pass line c cs reads (ih cs.length (by simp) _ cs rfl)
          | some read =>
              obtain ⟨marker, rest⟩ := read
              obtain ⟨wellFormed, front⟩ := of_read?_eq_some reads
              have shorter : rest.length < (c :: cs).length := by
                have positive := marker.length_write_pos
                rw [front, List.length_append]
                omega
              rw [front]
              exact found line marker rest wellFormed (ih rest.length shorter _ rest rfl)

/-- An occurrence is a marker of the text, on the line to which the text in front of it
    leads; the occurrences before it are those of that text, and those after it are found in
    the text behind the marker. -/
theorem exists_front_of_occurrencesFrom {line : Nat} {text : List Char}
    {before after : List Occurrence} {occurrence : Occurrence}
    (split : occurrencesFrom line 0 text = before ++ occurrence :: after) :
    ∃ front rest, occurrence.marker.WellFormed ∧ text = front ++ (occurrence.marker.write ++ rest) ∧
      occurrence.line = line + lineFeeds front ∧ occurrencesFrom line 0 front = before ∧
      after = occurrencesFrom (occurrence.line + lineFeeds occurrence.marker.write) 0 rest := by
  induction line, text using search_induction generalizing before with
  | nil line => simp [occurrencesFrom] at split
  | pass line c cs nothing ih =>
      rw [occurrencesFrom_cons_of_none line nothing] at split
      obtain ⟨front, rest, wellFormed, rfl, place, earlier, later⟩ := ih split
      have none_before : read? (c :: front) = none := read?_eq_none_of_append nothing
      refine ⟨c :: front, rest, wellFormed, rfl, ?_, ?_, later⟩
      · rw [place, lineAfter_eq, Text.lineFeeds_cons c front, Nat.add_assoc]
      · rw [occurrencesFrom_cons_of_none line none_before, earlier]
  | found line marker rest wellFormed ih =>
      rw [occurrencesFrom_write_append line wellFormed] at split
      cases before with
      | nil =>
          obtain ⟨rfl, rfl⟩ := List.cons.inj split
          exact ⟨[], rest, wellFormed, rfl, rfl, rfl, rfl⟩
      | cons first before =>
          obtain ⟨rfl, tail⟩ := List.cons.inj split
          obtain ⟨front, rest, own, rfl, place, earlier, later⟩ := ih tail
          refine ⟨marker.write ++ front, rest, own, by simp, ?_, ?_, later⟩
          · rw [place, Text.lineFeeds_append, Nat.add_assoc]
          · rw [occurrencesFrom_write_append line wellFormed, earlier]

theorem wellFormed_of_mem_occurrencesFrom {line : Nat} {text : List Char}
    {occurrence : Occurrence} (member : occurrence ∈ occurrencesFrom line 0 text) :
    occurrence.marker.WellFormed := by
  obtain ⟨before, after, split⟩ := List.append_of_mem member
  obtain ⟨front, rest, wellFormed, -⟩ := exists_front_of_occurrencesFrom split
  exact wellFormed

/-- The search never goes back to an earlier line. -/
theorem pairwise_line_occurrencesFrom (line : Nat) (text : List Char) :
    (occurrencesFrom line 0 text).Pairwise fun earlier later => earlier.line ≤ later.line := by
  have ahead (number : Nat) (text : List Char) :
      ∀ occurrence ∈ occurrencesFrom number 0 text, number ≤ occurrence.line := by
    intro occurrence member
    obtain ⟨before, after, split⟩ := List.append_of_mem member
    obtain ⟨front, rest, -, -, place, -⟩ := exists_front_of_occurrencesFrom split
    omega
  induction line, text using search_induction with
  | nil line => exact List.Pairwise.nil
  | pass line c cs nothing ih =>
      rw [occurrencesFrom_cons_of_none line nothing]
      exact ih
  | found line marker rest wellFormed ih =>
      rw [occurrencesFrom_write_append line wellFormed, List.pairwise_cons]
      refine ⟨?_, ih⟩
      intro later member
      exact (Nat.le_add_right line _).trans (ahead _ _ later member)

/-- A text in which no marker starts has no occurrences. -/
theorem occurrencesFrom_eq_nil (line : Nat) (text : List Char)
    (noMarker : ∀ start < text.length, read? (text.drop start) = none) :
    occurrencesFrom line 0 text = [] := by
  have passed := occurrencesFrom_pass line text [] (by simpa using noMarker)
  simpa [occurrencesFrom] using passed

/-- A text without greater-than signs holds no marker. -/
theorem occurrencesFrom_of_not_mem_sign (line : Nat) {text : List Char} (free : '>' ∉ text) :
    occurrencesFrom line 0 text = [] := by
  apply occurrencesFrom_eq_nil
  intro start _
  rw [read?_eq_none_iff]
  intro marker _ written
  have member : '>' ∈ marker.write := by simp [write_eq]
  exact free (List.mem_of_mem_drop (written.subset member))

end ExpressLinks.Marker
