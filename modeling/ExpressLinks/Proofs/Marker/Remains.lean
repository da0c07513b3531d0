import ExpressLinks.Proofs.Marker.Grammar
import ExpressLinks.Proofs.Text.Lines

/-!
# What markers leave on their last lines

Going through a text line by line finds other markers than going through the whole text:
a marker that is broken across lines is not found, but its last line may hold the opening
of another, which is then read up to the closing of the broken one. These are the only
differences. Line by line, the search finds for each marker of the text what the last line
of the marker holds when it is read by itself, on the line on which the marker ends.

Both searches are followed from one greater-than sign to the next.
-/

namespace ExpressLinks

/-- What the search finds in the last line of a marker, on the line on which it ends. -/
def Occurrence.remains (occurrence : Occurrence) : List Occurrence :=
  Marker.occurrencesFrom (occurrence.line + Text.lineFeeds occurrence.marker.write) 0
    (Text.lastLine occurrence.marker.write)

namespace Marker

open Text (lineFeeds lastLine)

variable {piece later : List Char} {marker : Marker} {start line : Nat}

/-- With two signs behind it, and nothing else, a piece shows its leftmost marker. -/
theorem occurrencesFrom_closing (line : Nat) (free : '>' ∉ piece)
    (leftmost : LeftmostAt piece start marker) :
    occurrencesFrom line 0 (piece ++ closing) = [⟨marker, line + lineFeeds (piece.take start)⟩] :=
  occurrencesFrom_closed free leftmost

theorem occurrencesFrom_closing_eq_nil (line : Nat) (free : '>' ∉ piece)
    (nothing : ∀ start marker, ¬ StartsAt piece start marker) :
    occurrencesFrom line 0 (piece ++ closing) = [] := by
  have closing_eq : closing = '>' :: '>' :: [] := rfl
  rw [closing_eq, occurrencesFrom_open free fun _ _ => nothing, occurrencesFrom_sign,
    occurrencesFrom]

/-- Up to a sign the search finds what it finds in the piece with two signs behind it,
    provided that a second sign follows, and then it goes on. -/
theorem occurrencesFrom_piece (line : Nat) (free : '>' ∉ piece) (later : List Char) :
    occurrencesFrom line 0 (piece ++ '>' :: later) =
      (if later.head? = some '>' then occurrencesFrom line 0 (piece ++ closing) else []) ++
        occurrencesFrom (line + lineFeeds piece) 0 later := by
  by_cases closed : later.head? = some '>'
  · obtain ⟨rest, rfl⟩ := List.head?_eq_some_iff.mp closed
    rw [if_pos closed, occurrencesFrom_sign]
    by_cases marked : ∃ start marker, StartsAt piece start marker
    · obtain ⟨start, marker, starts⟩ := marked
      obtain ⟨first, found, leftmost⟩ := exists_leftmostAt starts
      rw [occurrencesFrom_closed free leftmost, occurrencesFrom_closing line free leftmost,
        List.singleton_append]
    · have nothing : ∀ start marker, ¬ StartsAt piece start marker :=
        fun start marker starts => marked ⟨start, marker, starts⟩
      rw [occurrencesFrom_open free fun _ _ => nothing, occurrencesFrom_sign,
        occurrencesFrom_closing_eq_nil line free nothing, List.nil_append]
  · rw [if_neg closed, List.nil_append]
    apply occurrencesFrom_open free
    rintro after rfl
    exact absurd rfl closed

/-- A tail without greater-than signs neither completes a marker nor holds one. -/
theorem occurrencesFrom_append_of_not_mem (line : Nat) (text : List Char) {tail : List Char}
    (free : '>' ∉ tail) : occurrencesFrom line 0 (text ++ tail) = occurrencesFrom line 0 text := by
  induction text using Text.piece_induction '>' generalizing line with
  | last text own =>
      rw [occurrencesFrom_of_not_mem_sign line own,
        occurrencesFrom_of_not_mem_sign line (by simp [own, free])]
  | piece first rest own ih =>
      have second : (rest ++ tail).head? = some '>' ↔ rest.head? = some '>' := by
        cases rest with
        | nil =>
            rw [List.nil_append]
            constructor
            · intro sign
              exact absurd (List.mem_of_head? sign) free
            · intro sign
              cases sign
        | cons c cs => simp
      rw [List.append_assoc, List.cons_append, occurrencesFrom_piece line own,
        occurrencesFrom_piece line own, ih]
      simp only [second]

/-- The carriage return at the end of a line belongs to no marker. -/
theorem occurrencesFrom_dropCarriage (line : Nat) (text : List Char) :
    occurrencesFrom line 0 (Text.dropCarriage text) = occurrencesFrom line 0 text := by
  rcases Text.eq_dropCarriage_or text with same | dropped
  · rw [← same]
  · have free : '>' ∉ ['\r'] := by decide
    conv => rhs; rw [dropped]
    rw [occurrencesFrom_append_of_not_mem line _ free]

/-- A marker that starts in a piece is written from there to the two signs behind it. -/
theorem StartsAt.write_eq (starts : StartsAt piece start marker) (free : '>' ∉ piece) :
    marker.write = piece.drop start ++ closing := by
  have inside := starts.lt_length.le
  have reads : read? ((piece ++ closing).drop start) = some (marker, []) :=
    (read?_drop_eq_some_iff free inside).mpr ⟨starts, rfl⟩
  have written := (of_read?_eq_some reads).2
  rwa [List.drop_append_of_le_length inside, List.append_nil, eq_comm] at written

/-- Behind the front of a piece the markers start that start in the rest of it. -/
theorem startsAt_append_iff {front rest : List Char} :
    StartsAt (front ++ rest) (front.length + start) marker ↔ StartsAt rest start marker := by
  simp only [StartsAt, List.drop_append, List.drop_eq_nil_of_le (Nat.le_add_right _ start),
    List.nil_append, Nat.add_sub_cancel_left]

/-- The leftmost marker of a piece is the leftmost of every rest of the piece in which it
    still starts. -/
theorem LeftmostAt.of_append (front : List Char) {rest : List Char}
    (leftmost : LeftmostAt (front ++ rest) (front.length + start) marker) :
    LeftmostAt rest start marker := by
  refine ⟨startsAt_append_iff.mp leftmost.1, ?_⟩
  intro earlier before other starts
  exact leftmost.2 (front.length + earlier) (by omega) other (startsAt_append_iff.mpr starts)

/-- From its leftmost marker on, a piece with two signs behind it shows on its last line
    what the whole piece shows there. -/
theorem occurrencesFrom_lastLine_drop (line : Nat) (free : '>' ∉ piece)
    (leftmost : LeftmostAt piece start marker) :
    occurrencesFrom line 0 (lastLine (piece.drop start) ++ closing) =
      occurrencesFrom line 0 (lastLine piece ++ closing) := by
  have whole : piece.take start ++ piece.drop start = piece := List.take_append_drop start piece
  by_cases feed : '\n' ∈ piece.drop start
  · have same := Text.lastLine_append_of_mem (piece.take start) feed
    rw [whole] at same
    rw [same]
  · -- The marker starts on the last line. No other starts before it there, as none starts
    -- before it in the piece.
    obtain ⟨front, split⟩ := Text.lastLine_suffix (piece.take start)
    have last : lastLine piece = lastLine (piece.take start) ++ piece.drop start := by
      conv => lhs; rw [← whole]
      exact Text.lastLine_append _ feed
    have place : start = front.length + (lastLine (piece.take start)).length := by
      rw [← List.length_append, split, List.length_take, Nat.min_eq_left leftmost.1.lt_length.le]
    have onLine : LeftmostAt (lastLine piece) (lastLine (piece.take start)).length marker := by
      apply LeftmostAt.of_append front
      rwa [last, ← List.append_assoc, split, whole, ← place]
    have alone : LeftmostAt (piece.drop start) 0 marker := by
      rw [last] at onLine
      exact LeftmostAt.of_append (lastLine (piece.take start)) onLine
    have lastFree : '>' ∉ lastLine piece := fun member =>
      free ((Text.lastLine_suffix piece).subset member)
    have dropFree : '>' ∉ piece.drop start := fun member => free (List.mem_of_mem_drop member)
    have noFeed : lineFeeds (lastLine (piece.take start)) = 0 :=
      List.count_eq_zero.mpr (Text.not_mem_lastLine _)
    rw [Text.lastLine_of_not_mem feed, occurrencesFrom_closing line dropFree alone,
      occurrencesFrom_closing line lastFree onLine, last, List.take_left, noFeed]
    rfl

/-- What is left of the marker of a piece is what the last line of the piece holds. -/
theorem flatMap_remains_closing (line : Nat) (free : '>' ∉ piece) :
    (occurrencesFrom line 0 (piece ++ closing)).flatMap Occurrence.remains =
      occurrencesFrom (line + lineFeeds piece) 0 (lastLine piece ++ closing) := by
  by_cases marked : ∃ start marker, StartsAt piece start marker
  · obtain ⟨start, marker, leftmost⟩ : ∃ start marker, LeftmostAt piece start marker := by
      obtain ⟨start, marker, starts⟩ := marked
      exact exists_leftmostAt starts
    have onLine : '\n' ∉ closing := by decide
    have feeds : lineFeeds (piece.take start) + lineFeeds (piece.drop start ++ closing) =
        lineFeeds piece := by
      have noFeeds : lineFeeds closing = 0 := rfl
      rw [Text.lineFeeds_append, noFeeds, Nat.add_zero, ← Text.lineFeeds_append,
        List.take_append_drop]
    rw [occurrencesFrom_closing line free leftmost, List.flatMap_singleton, Occurrence.remains,
      leftmost.1.write_eq free, Nat.add_assoc, feeds, Text.lastLine_append _ onLine,
      occurrencesFrom_lastLine_drop _ free leftmost]
  · have nothing : ∀ start marker, ¬ StartsAt piece start marker :=
      fun start marker starts => marked ⟨start, marker, starts⟩
    obtain ⟨front, split⟩ := Text.lastLine_suffix piece
    have lastFree : '>' ∉ lastLine piece := fun member =>
      free ((Text.lastLine_suffix piece).subset member)
    rw [occurrencesFrom_closing_eq_nil line free nothing, List.flatMap_nil,
      occurrencesFrom_closing_eq_nil _ lastFree]
    intro start marker starts
    apply nothing (front.length + start) marker
    rw [← split]
    exact startsAt_append_iff.mpr starts

/-- What the markers of a text leave on their last lines, in order. -/
def remainsFrom (line : Nat) (text : List Char) : List Occurrence :=
  (occurrencesFrom line 0 text).flatMap Occurrence.remains

theorem remainsFrom_of_not_mem_sign (line : Nat) {text : List Char} (free : '>' ∉ text) :
    remainsFrom line text = [] := by
  rw [remainsFrom, occurrencesFrom_of_not_mem_sign line free, List.flatMap_nil]

/-- Up to a sign the last line of the piece counts, provided that a second sign follows. -/
theorem remainsFrom_piece (line : Nat) (free : '>' ∉ piece) (later : List Char) :
    remainsFrom line (piece ++ '>' :: later) =
      (if later.head? = some '>' then
        occurrencesFrom (line + lineFeeds piece) 0 (lastLine piece ++ closing)
      else []) ++ remainsFrom (line + lineFeeds piece) later := by
  rw [remainsFrom, occurrencesFrom_piece line free, List.flatMap_append]
  split
  · rw [flatMap_remains_closing line free]
    rfl
  · rfl

/-- A line without signs does not matter to what is left behind it. -/
theorem remainsFrom_line_of_not_mem_sign (line : Nat) {first rest : List Char}
    (onLine : '\n' ∉ first) (free : '>' ∉ first) :
    remainsFrom line (first ++ '\n' :: rest) = remainsFrom (line + 1) rest := by
  have noFeed : lineFeeds first = 0 := List.count_eq_zero.mpr onLine
  by_cases signed : '>' ∈ rest
  · obtain ⟨piece, later, rfl, pieceFree⟩ := List.eq_append_cons_of_mem signed
    have longerFree : '>' ∉ first ++ '\n' :: piece := by simp [free, pieceFree]
    have feeds : line + lineFeeds (first ++ '\n' :: piece) = line + 1 + lineFeeds piece := by
      have feed : lineFeeds ['\n'] = 1 := rfl
      rw [Text.lineFeeds_append, Text.lineFeeds_cons, noFeed, feed]
      omega
    have regroup : first ++ '\n' :: (piece ++ '>' :: later) =
        (first ++ '\n' :: piece) ++ '>' :: later := by simp
    rw [regroup, remainsFrom_piece line longerFree, remainsFrom_piece (line + 1) pieceFree,
      feeds, Text.lastLine_append_feed]
  · rw [remainsFrom_of_not_mem_sign _ signed,
      remainsFrom_of_not_mem_sign _ (by simp [free, signed])]

/-- On a line what is left is what the search finds in the line by itself. -/
theorem remainsFrom_line (line : Nat) {first : List Char} (onLine : '\n' ∉ first)
    (rest : List Char) :
    remainsFrom line (first ++ '\n' :: rest) =
      occurrencesFrom line 0 first ++ remainsFrom (line + 1) rest := by
  induction first using Text.piece_induction '>' with
  | last first free =>
      rw [remainsFrom_line_of_not_mem_sign line onLine free,
        occurrencesFrom_of_not_mem_sign line free, List.nil_append]
  | piece piece more free ih =>
      obtain ⟨pieceOnLine, moreOnLine⟩ : '\n' ∉ piece ∧ '\n' ∉ more := by simpa using onLine
      have noFeed : lineFeeds piece = 0 := List.count_eq_zero.mpr pieceOnLine
      have second : (more ++ '\n' :: rest).head? = some '>' ↔ more.head? = some '>' := by
        cases more <;> simp
      rw [List.append_assoc, List.cons_append, remainsFrom_piece line free,
        occurrencesFrom_piece line free, noFeed, Nat.add_zero, ih moreOnLine,
        Text.lastLine_of_not_mem pieceOnLine, List.append_assoc]
      simp only [second]

/-- Line by line the search finds what the markers of the text leave on their last lines. -/
theorem remainsFrom_eq_flatMap_lines (line : Nat) (text : List Char) :
    remainsFrom line text =
      ((Text.lines text).zipIdx line).flatMap fun numbered =>
        occurrencesFrom numbered.2 0 numbered.1 := by
  induction text using Text.line_induction generalizing line with
  | last text free =>
      have fed : remainsFrom line (text ++ ['\n']) = remainsFrom line text := by
        rw [remainsFrom, occurrencesFrom_append_of_not_mem line text (by decide), remainsFrom]
      have empty : remainsFrom (line + 1) [] = [] := rfl
      rw [← fed, remainsFrom_line line free, empty, List.append_nil, Text.lines_of_not_mem free]
      split
      next nothing => simp [nothing, occurrencesFrom]
      next => simp
  | line first rest free ih =>
      rw [remainsFrom_line line free, ih (line + 1), Text.lines_append_feed free, List.zipIdx_cons,
        List.flatMap_cons, occurrencesFrom_dropCarriage]

end Marker

end ExpressLinks
