import ExpressLinks.Proofs.Marker.Lines

/-!
# Where references stand

A reference shows the first marker for its path, and should stand on the line on which
that starts. Its line is looked up line by line, so it is the line of the first marker
for the path that is left when the text is taken line by line, if any is left; only
otherwise is it the line of the first marker for sure. The two lines agree when this
marker and those before it are unbroken. They differ when the first marker is broken
across lines and a later one is not, or when a broken marker before the first one hides
an opening on its last line. Without any broken markers both ways of going through the
text find the same, and references come in the order of their lines.
-/

namespace ExpressLinks

open Text (lineFeeds)

/-- The marker that a reference shows. -/
def Reference.marker (reference : Reference) : Marker :=
  ⟨reference.rawPath, reference.renderText⟩

namespace Marker

/-- Taking the lines one by one does not change which paths are found in them. -/
theorem map_path_flatMap_lines (number : Nat) {lines : List (List Char)}
    (free : ∀ text ∈ lines, '\n' ∉ text) :
    ((lines.zipIdx number).flatMap fun numbered =>
        occurrencesFrom numbered.2 0 numbered.1).map (·.marker.path) =
      lines.flatMap fun text => (occurrences text).map (·.marker.path) := by
  have each : ∀ numbered ∈ lines.zipIdx number,
      (occurrencesFrom numbered.2 0 numbered.1).map (·.marker.path) =
        (occurrences numbered.1).map (·.marker.path) := by
    intro numbered member
    have own := free numbered.1 (List.fst_mem_of_mem_zipIdx member)
    rw [occurrencesFrom_of_not_mem_feed numbered.2 0 own, List.map_map]
    rfl
  rw [List.map_flatMap, List.flatMap_congr each]
  conv => rhs; rw [← List.zipIdx_map_fst number lines, List.flatMap_map]

end Marker

namespace Reference

open Marker

/-- Without broken markers each reference stands where its first marker starts, and so the
    references come in the order of their lines. -/
theorem pairwise_lineNumber_of_unbroken {text : List Char} (file : String)
    (unbroken : ∀ occurrence ∈ occurrences text, occurrence.marker.Unbroken) :
    ((ofText text file).map (·.lineNumber)).Pairwise (· ≤ ·) := by
  have lines : (ofText text file).map (·.lineNumber) =
      (firstUses (·.marker.path) (occurrences text)).map (·.line) := by
    rw [ofText, List.map_map]
    apply List.map_congr_left
    intro occurrence first
    simp [findLine?_eq_firstLeft?, firstLeft?_of_mem_firstUses first unbroken]
  rw [lines, List.pairwise_map]
  exact (pairwise_line_occurrencesFrom 1 text).sublist (firstUses_sublist _ _)

/-- A reference shows the first marker for its path. It stands on the line on which this
    marker starts exactly when that is the line of the first marker for the path that is
    left on a single line, if one is left at all. That is so when neither this marker nor one
    before it is broken across lines. -/
theorem lineNumber_eq_start_iff {text : List Char} {file : String} {reference : Reference}
    (member : reference ∈ ofText text file) :
    ∃ front rest, text = front ++ (reference.marker.write ++ rest) ∧
      occurrences text = occurrences front ++ ⟨reference.marker, 1 + lineFeeds front⟩ ::
        occurrencesFrom (1 + lineFeeds (front ++ reference.marker.write)) 0 rest ∧
      (∀ earlier ∈ occurrences front, earlier.marker.path ≠ reference.rawPath) ∧
      (reference.lineNumber = 1 + lineFeeds front ↔
        ∀ left, firstLeft? text reference.rawPath = some left → left.line = 1 + lineFeeds front) ∧
      (reference.marker.Unbroken → (∀ earlier ∈ occurrences front, earlier.marker.Unbroken) →
        reference.lineNumber = 1 + lineFeeds front) := by
  obtain ⟨occurrence, first, rfl⟩ := List.mem_map.mp member
  obtain ⟨before, after, split, others⟩ := (mem_firstUses_iff _).mp first
  obtain ⟨front, rest, -, text_eq, place, earlier, later⟩ := exists_front_of_occurrencesFrom split
  have line_iff : (findLine? text occurrence.marker.path).getD occurrence.line = 1 + lineFeeds front ↔
      ∀ left, firstLeft? text occurrence.marker.path = some left →
        left.line = 1 + lineFeeds front := by
    rw [findLine?_eq_firstLeft?, place]
    cases firstLeft? text occurrence.marker.path <;> simp
  refine ⟨front, rest, text_eq, ?_, ?_, line_iff, ?_⟩
  · rw [split, later, place, Text.lineFeeds_append, ← Nat.add_assoc, ← earlier]
    obtain ⟨marker, line⟩ := occurrence
    obtain rfl : line = 1 + lineFeeds front := place
    rfl
  · rw [← earlier] at others
    exact others
  · intro own unbroken
    refine line_iff.mpr ?_
    intro left found
    rw [← earlier] at split others
    rw [firstLeft?_of_unbroken split others unbroken own] at found
    rw [← Option.some.inj found, place]

/-- A broken marker hides an opening on its last line, where the path of the second marker
    is looked up with success; that marker itself starts one line below. -/
theorem lineNumber_eq_start_iff_hidden_opening :
    let text := "<<express:a,x\n<<express:b>>\n<<express:b>>".toList
    let reference : Reference := ⟨"b", none, "a.adoc", 2⟩
    reference ∈ ofText text "a.adoc" ∧
      ∃ front rest, text = front ++ (reference.marker.write ++ rest) ∧ 1 + lineFeeds front = 3 ∧
        ∃ left, firstLeft? text "b" = some left ∧ left.line ≠ 1 + lineFeeds front := by
  intro text reference
  have member : reference ∈ ofText text "a.adoc" := by decide +kernel
  obtain ⟨front, rest, text_eq, found, -, line_iff, -⟩ := lineNumber_eq_start_iff member
  have start : 1 + lineFeeds front = 3 := by
    have every : ∀ occurrence ∈ occurrences text,
        occurrence.marker = ⟨"b", none⟩ → occurrence.line = 3 := by decide +kernel
    exact every ⟨reference.marker, 1 + lineFeeds front⟩ (found ▸ by simp) rfl
  have elsewhere : ¬ reference.lineNumber = 1 + lineFeeds front := by
    rw [start]
    decide
  rw [line_iff] at elsewhere
  push Not at elsewhere
  exact ⟨member, front, rest, text_eq, start, elsewhere⟩

/-- A reference shows the first marker for its path, at the front of the text, but where the
    render text of this marker is broken across lines the reference stands on the line of
    the next one. -/
theorem lineNumber_ne_start_of_broken_render_text :
    let text := "<<express:plant,the\nplant>>\n<<express:plant>>".toList
    let reference : Reference := ⟨"plant", some "the\nplant", "a.adoc", 3⟩
    reference ∈ ofText text "a.adoc" ∧ reference.marker.write <+: text ∧
      (occurrences text).head? = some ⟨reference.marker, 1 + lineFeeds []⟩ ∧
      reference.lineNumber ≠ 1 + lineFeeds [] := by
  decide +kernel

/-- Where no marker of a text is broken across lines, going through the text and going
    through its lines one by one come to the same: the paths of the text are those of the
    lines, each kept once, a line is found for exactly these paths, and the references come
    in the order of their lines. -/
theorem scans_agree_of_unbroken {text : List Char} (file : String)
    (unbroken : ∀ occurrence ∈ occurrences text, occurrence.marker.Unbroken) :
    paths text =
        ((Text.lines text).flatMap fun line => (occurrences line).map (·.marker.path)).eraseDups ∧
      (∀ path, (findLine? text path).isSome ↔ path ∈ paths text) ∧
      ((ofText text file).map (·.lineNumber)).Pairwise (· ≤ ·) := by
  have same : remainsFrom 1 text = occurrences text :=
    flatMap_remains_of_unbroken (List.Subset.refl _) unbroken
  refine ⟨?_, ?_, pairwise_lineNumber_of_unbroken file unbroken⟩
  · rw [paths_eq_eraseDups, ← same, remainsFrom_eq_flatMap_lines,
      map_path_flatMap_lines 1 fun line => Text.not_mem_of_mem_lines]
  · intro path
    rw [findLine?_eq_find? path unbroken, Option.isSome_map, List.find?_isSome, mem_paths_iff]
    simp

/-- An opening that a single sign ends, two markers on a line, a carriage return before a
    line feed and one at the end of the text make no difference. -/
theorem scans_agree_of_unbroken_partial_openings :
    let text := "<<express:x>\n<<express:b>>\r\n<<express:c,y>><<express:b>>\r".toList
    (∀ occurrence ∈ occurrences text, occurrence.marker.Unbroken) ∧
      paths text =
        ((Text.lines text).flatMap fun line => (occurrences line).map (·.marker.path)).eraseDups ∧
      (findLine? text "c").isSome ∧ ¬ (findLine? text "x").isSome ∧
      ((ofText text "a.adoc").map (·.lineNumber)).Pairwise (· ≤ ·) := by
  intro text
  have unbroken : ∀ occurrence ∈ occurrences text, occurrence.marker.Unbroken := by
    simp only [unbroken_iff]
    decide +kernel
  obtain ⟨paths_eq, found_iff, inOrder⟩ := scans_agree_of_unbroken "a.adoc" unbroken
  exact ⟨unbroken, paths_eq, (found_iff "c").mpr (by decide +kernel),
    mt (found_iff "x").mp (by decide +kernel), inOrder⟩

end Reference

end ExpressLinks
