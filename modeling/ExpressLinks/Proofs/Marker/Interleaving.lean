import ExpressLinks.Proofs.Marker.Lines

/-!
# Reading back written markers

Markers written one after another, with texts between them that hold no opening, are
read back: no marker starts in such a text, not even one that is completed by the
marker behind it, as no beginning of the opening is also an end of it. The references
of the whole are the paths in the order of their first uses, with the render texts of
these uses, and where no marker is broken across lines they stand where these start.
-/

namespace ExpressLinks

namespace Marker

open Text (lineFeeds)

/-- The text of markers, each behind a separator, and of what follows the last. -/
def interleave : List (List Char × Marker) → List Char → List Char
  | [], last => last
  | (separator, marker) :: rest, last => separator ++ (marker.write ++ interleave rest last)

/-- The occurrences of markers that are written behind their separators from a line on. -/
def placedFrom (line : Nat) : List (List Char × Marker) → List Occurrence
  | [] => []
  | (separator, marker) :: rest =>
      ⟨marker, line + lineFeeds separator⟩ ::
        placedFrom (line + lineFeeds separator + lineFeeds marker.write) rest

/-- No proper end of the opening is a beginning of it. -/
theorem opening_unbordered {before ending : List Char} (split : opening = before ++ ending)
    (proper : before ≠ []) (given : ending ≠ []) : ¬ ending <+: opening := by
  have none_of_length : ∀ count < opening.length, 0 < count →
      ¬ opening.drop count <+: opening := by decide
  have ending_eq : ending = opening.drop before.length := by simp [split]
  have shorter : before.length < opening.length := by
    have positive := List.length_pos_of_ne_nil given
    rw [split, List.length_append]
    omega
  rw [ending_eq]
  exact none_of_length before.length shorter (List.length_pos_of_ne_nil proper)

/-- An opening that starts in a text before an opening lies in the text. -/
theorem opening_prefix_of_append {text later : List Char} (given : text ≠ [])
    (starts : opening <+: text ++ (opening ++ later)) : opening <+: text := by
  obtain ⟨rest, same⟩ := starts
  rcases List.append_eq_append_iff.mp same with ⟨ending, longer, -⟩ | ⟨ending, split, begins⟩
  · exact ⟨ending, longer.symm⟩
  · -- The first opening would end in the second one, with a beginning of it.
    by_cases nothing : ending = []
    · exact ⟨[], by simpa [nothing] using split⟩
    · have shorter : ending.length ≤ opening.length := by
        rw [split, List.length_append]
        omega
      have ahead : ending <+: opening := List.prefix_of_prefix_length_le
        ⟨rest, begins.symm⟩ (List.prefix_append opening later) shorter
      exact absurd ahead (opening_unbordered split given nothing)

/-- A text without an opening is passed over when nothing or an opening follows it. -/
theorem occurrencesFrom_separator (line : Nat) {separator : List Char}
    (free : ¬ opening <:+: separator) (rest : List Char)
    (follows : rest = [] ∨ opening <+: rest) :
    occurrencesFrom line 0 (separator ++ rest) =
      occurrencesFrom (line + lineFeeds separator) 0 rest := by
  apply occurrencesFrom_pass
  intro start inside
  rw [read?_eq_none_iff, List.drop_append_of_le_length inside.le]
  intro marker _ written
  have starts := marker.opening_prefix_write.trans written
  have given : separator.drop start ≠ [] := by simpa using inside
  have own : opening <+: separator.drop start := by
    rcases follows with rfl | ⟨later, rfl⟩
    · simpa using starts
    · exact opening_prefix_of_append given starts
  exact free (own.isInfix.trans (List.drop_suffix start separator).isInfix)

/-- Written markers are found where they were written, and no others. -/
theorem occurrencesFrom_interleave (line : Nat) {pieces : List (List Char × Marker)}
    {last : List Char} (wellFormed : ∀ piece ∈ pieces, piece.2.WellFormed)
    (separators : ∀ piece ∈ pieces, ¬ opening <:+: piece.1) (ending : ¬ opening <:+: last) :
    occurrencesFrom line 0 (interleave pieces last) = placedFrom line pieces := by
  induction pieces generalizing line with
  | nil =>
      have passed := occurrencesFrom_separator line ending [] (.inl rfl)
      simpa [interleave, placedFrom, occurrencesFrom] using passed
  | cons piece rest ih =>
      obtain ⟨separator, marker⟩ := piece
      have own : marker.WellFormed := wellFormed _ List.mem_cons_self
      have opens : opening <+: marker.write ++ interleave rest last :=
        marker.opening_prefix_write.trans (List.prefix_append _ _)
      have others := fun number => ih number
        (fun piece member => wellFormed piece (List.mem_cons_of_mem _ member))
        (fun piece member => separators piece (List.mem_cons_of_mem _ member))
      have passed := occurrencesFrom_separator line (separators _ List.mem_cons_self) _ (.inr opens)
      rw [interleave, passed, occurrencesFrom_write_append _ own, others, placedFrom]

theorem map_marker_placedFrom (line : Nat) (pieces : List (List Char × Marker)) :
    (placedFrom line pieces).map (·.marker) = pieces.map (·.2) := by
  induction pieces generalizing line with
  | nil => rfl
  | cons piece rest ih => rw [placedFrom, List.map_cons, List.map_cons, ih]

/-- An occurrence belongs to the marker at its position, and stands on the line to which
    the text before that marker leads. -/
theorem exists_piece_of_placedFrom {line : Nat} {pieces : List (List Char × Marker)}
    {before after : List Occurrence} {occurrence : Occurrence}
    (split : placedFrom line pieces = before ++ occurrence :: after) :
    ∃ earlier separator later, pieces = earlier ++ (separator, occurrence.marker) :: later ∧
      earlier.map (·.2) = before.map (·.marker) ∧
      occurrence.line = line + lineFeeds (interleave earlier separator) := by
  induction before generalizing line pieces with
  | nil =>
      cases pieces with
      | nil => cases split
      | cons piece rest =>
          obtain ⟨rfl, -⟩ := List.cons.inj split
          exact ⟨[], piece.1, rest, rfl, rfl, rfl⟩
  | cons first before ih =>
      cases pieces with
      | nil => cases split
      | cons piece rest =>
          obtain ⟨rfl, tail⟩ := List.cons.inj split
          obtain ⟨earlier, separator, later, rfl, same, line_eq⟩ := ih tail
          refine ⟨piece :: earlier, separator, later, rfl, by simp [same], ?_⟩
          rw [line_eq, interleave, Text.lineFeeds_append, Text.lineFeeds_append]
          omega

end Marker

namespace Reference

open Marker Text

/-- Reading undoes writing: the references of markers written between separators without
    an opening are their paths, each once and in the order of their first uses, with the
    render text of the first use; and if no path or render text holds a line feed, each
    stands on the line on which the first marker of its path starts. -/
theorem ofText_interleave (pieces : List (List Char × Marker)) (last : List Char) (file : String)
    (wellFormed : ∀ piece ∈ pieces, piece.2.WellFormed)
    (separators : ∀ piece ∈ pieces, ¬ opening <:+: piece.1) (ending : ¬ opening <:+: last) :
    (ofText (interleave pieces last) file).map (·.rawPath) =
        (pieces.map (·.2.path)).eraseDups ∧
      ∀ reference ∈ ofText (interleave pieces last) file,
        reference.sourceFile = file ∧ ∃ earlier separator later,
          pieces = earlier ++
            (separator, ⟨reference.rawPath, reference.renderText⟩) :: later ∧
          (∀ piece ∈ earlier, piece.2.path ≠ reference.rawPath) ∧
          ((∀ piece ∈ pieces, piece.2.Unbroken) →
            reference.lineNumber = 1 + lineFeeds (interleave earlier separator)) := by
  have found : occurrences (interleave pieces last) = placedFrom 1 pieces :=
    occurrencesFrom_interleave 1 wellFormed separators ending
  have markers := map_marker_placedFrom 1 pieces
  refine ⟨?_, ?_⟩
  · have paths : (placedFrom 1 pieces).map (·.marker.path) = pieces.map (·.2.path) := by
      simpa [Function.comp_def] using congrArg (List.map Marker.path) markers
    rw [map_rawPath_ofText, paths_eq_eraseDups, found, paths]
  · intro reference member
    obtain ⟨before, occurrence, after, split, marker_eq, others, line_eq⟩ :=
      exists_first_with_line member
    rw [found] at split line_eq
    obtain ⟨earlier, separator, later, pieces_eq, same, placed⟩ := exists_piece_of_placedFrom split
    refine ⟨(exists_first_of_mem_ofText member).1, earlier, separator, later, ?_, ?_, ?_⟩
    · rw [pieces_eq, marker_eq]
    · intro piece inside
      have listed : piece.2 ∈ before.map (·.marker) := same ▸ List.mem_map_of_mem inside
      obtain ⟨other, inBefore, other_eq⟩ := List.mem_map.mp listed
      rw [← other_eq]
      exact others other inBefore
    · -- Being unbroken is said of the written markers, and is needed of those found.
      intro unbroken
      rw [← placed]
      apply line_eq
      intro other inside
      have listed : other.marker ∈ pieces.map (·.2) := markers ▸ List.mem_map_of_mem inside
      obtain ⟨piece, inPieces, piece_eq⟩ := List.mem_map.mp listed
      exact piece_eq ▸ unbroken piece inPieces

/-- Beginnings of openings and single signs between markers, an opening in a path and a
    carriage return before a line feed do not matter; of two uses the first counts. -/
theorem ofText_interleave_partial_openings :
    let pieces : List (List Char × Marker) :=
      [("<<expres\r\n".toList, ⟨"a.b", none⟩), (">,".toList, ⟨"c<<express:d", some "x,y"⟩),
        ("\n<".toList, ⟨"a.b", some "z"⟩)]
    let text := interleave pieces ">>".toList
    (∀ piece ∈ pieces, piece.2.WellFormed) ∧ (∀ piece ∈ pieces, ¬ opening <:+: piece.1) ∧
      ¬ opening <:+: ">>".toList ∧ (∀ piece ∈ pieces, piece.2.Unbroken) ∧
      (ofText text "a.adoc").map (·.rawPath) = ["a.b", "c<<express:d"] ∧
      ∀ reference ∈ ofText text "a.adoc", ∃ earlier separator later,
        pieces = earlier ++ (separator, ⟨reference.rawPath, reference.renderText⟩) :: later ∧
        reference.lineNumber = 1 + lineFeeds (interleave earlier separator) := by
  intro pieces text
  have wellFormed : ∀ piece ∈ pieces, piece.2.WellFormed := by
    simp only [pieces, List.forall_mem_cons]
    refine ⟨⟨?_, ?_, ?_, ?_⟩, ⟨?_, ?_, ?_, ?_⟩, ⟨?_, ?_, ?_, ?_⟩, ?_⟩ <;>
      simp [isPathChar, isRenderChar]
  have unbroken : ∀ piece ∈ pieces, piece.2.Unbroken := by
    simp only [pieces, List.forall_mem_cons]
    refine ⟨⟨?_, ?_⟩, ⟨?_, ?_⟩, ⟨?_, ?_⟩, ?_⟩ <;> simp
  have separators : ∀ piece ∈ pieces, ¬ opening <:+: piece.1 := by decide
  have ending : ¬ opening <:+: ">>".toList := by decide
  obtain ⟨paths, references⟩ :=
    ofText_interleave pieces ">>".toList "a.adoc" wellFormed separators ending
  refine ⟨wellFormed, separators, ending, unbroken, ?_, ?_⟩
  · exact paths
  · intro reference member
    obtain ⟨-, earlier, separator, later, split, -, line⟩ := references reference member
    exact ⟨earlier, separator, later, split, line unbroken⟩

end Reference

end ExpressLinks
