import ExpressLinks.Proofs.Marker.Remains

/-!
# Markers line by line

An unbroken marker is all that is left of it when the text is taken line by line. So where
no marker of a text is broken across lines, going through the text line by line finds the
markers that going through the whole text finds, and the first line on which a marker for
a path stands is the line on which the first marker for it starts.
-/

namespace ExpressLinks

namespace Marker

open Text (lineFeeds)

/-- Neither the path nor the render text holds a line feed. -/
structure Unbroken (marker : Marker) : Prop where
  path : '\n' ∉ marker.path.toList
  render : ∀ render, marker.render = some render → '\n' ∉ render.toList

theorem unbroken_iff {marker : Marker} : marker.Unbroken ↔ '\n' ∉ marker.write := by
  obtain ⟨path, render⟩ := marker
  have written : '\n' ∉ opening := by decide
  constructor
  · intro unbroken
    cases render with
    | none => simp [write, closing, written, unbroken.path]
    | some render => simp [write, closing, written, unbroken.path, unbroken.render render rfl]
  · intro free
    cases render with
    | none => exact ⟨by simp_all [write], by rintro _ ⟨⟩⟩
    | some render =>
        refine ⟨by simp_all [write], ?_⟩
        rintro _ ⟨⟩
        simp_all [write]

/-- An unbroken marker leaves itself. -/
theorem remains_of_unbroken {occurrence : Occurrence} (wellFormed : occurrence.marker.WellFormed)
    (unbroken : occurrence.marker.Unbroken) : occurrence.remains = [occurrence] := by
  have onLine := unbroken_iff.mp unbroken
  have noFeed : lineFeeds occurrence.marker.write = 0 := List.count_eq_zero.mpr onLine
  have read := occurrencesFrom_write_append occurrence.line wellFormed []
  rw [List.append_nil, occurrencesFrom] at read
  rw [Occurrence.remains, Text.lastLine_of_not_mem onLine, noFeed, Nat.add_zero, read]

/-- Where no marker is broken the markers of the text are what is left of them. -/
theorem flatMap_remains_of_unbroken {line : Nat} {text : List Char} {found : List Occurrence}
    (within : found ⊆ occurrencesFrom line 0 text)
    (unbroken : ∀ occurrence ∈ found, occurrence.marker.Unbroken) :
    found.flatMap Occurrence.remains = found := by
  have alone : ∀ occurrence ∈ found, occurrence.remains = [occurrence] := fun occurrence member =>
    remains_of_unbroken (wellFormed_of_mem_occurrencesFrom (within member))
      (unbroken occurrence member)
  rw [List.flatMap_congr alone, List.flatMap_singleton']

/-- On a single line every marker found is counted on it, and the number of the line does
    not matter to the search. -/
theorem occurrencesFrom_of_not_mem_feed (line skip : Nat) {text : List Char} (free : '\n' ∉ text) :
    occurrencesFrom line skip text =
      (occurrencesFrom 1 skip text).map fun occurrence => ⟨occurrence.marker, line⟩ := by
  induction text generalizing skip with
  | nil => cases skip <;> rfl
  | cons c cs ih =>
      obtain ⟨noFeed, rest⟩ := not_or.mp (mt List.mem_cons.mpr free)
      have stays (number : Nat) : lineAfter number c = number := by
        simp [lineAfter, Ne.symm noFeed]
      cases skip with
      | succ skip => rw [occurrencesFrom, occurrencesFrom, stays, stays, ih skip rest]
      | zero =>
          rw [occurrencesFrom, occurrencesFrom, stays, stays]
          cases read? (c :: cs) with
          | none => exact ih 0 rest
          | some found => exact congrArg _ (ih (found.1.write.length - 1) rest)

/-- The number of the first of some lines that holds a marker for a path is the line of
    the first marker for it in them. -/
theorem find?_path_flatMap_lines (path : String) (number : Nat) {lines : List (List Char)}
    (free : ∀ text ∈ lines, '\n' ∉ text) :
    (((lines.zipIdx number).flatMap fun numbered => occurrencesFrom numbered.2 0 numbered.1).find?
        fun occurrence => occurrence.marker.path == path).map (·.line) =
      (lines.findIdx? fun text =>
        (occurrences text).any fun occurrence => occurrence.marker.path == path).map
          (· + number) := by
  induction lines generalizing number with
  | nil => rfl
  | cons text rest ih =>
      have here : occurrencesFrom number 0 text =
          (occurrences text).map fun occurrence => ⟨occurrence.marker, number⟩ :=
        occurrencesFrom_of_not_mem_feed number 0 (free text List.mem_cons_self)
      have others := ih (number + 1) fun other member =>
        free other (List.mem_cons_of_mem text member)
      have samePath : ((fun occurrence : Occurrence => occurrence.marker.path == path) ∘
          fun occurrence : Occurrence => (⟨occurrence.marker, number⟩ : Occurrence)) =
            fun occurrence => occurrence.marker.path == path := rfl
      rw [List.zipIdx_cons, List.flatMap_cons, List.find?_append, List.findIdx?_cons, here,
        List.find?_map, samePath]
      cases first : (occurrences text).find? fun occurrence => occurrence.marker.path == path with
      | none =>
          have absent : ((occurrences text).any fun occurrence =>
              occurrence.marker.path == path) = false := by
            simpa using first
          rw [absent, Option.map_none, Option.none_or, others]
          simp [Function.comp_def, Nat.add_assoc, Nat.add_comm 1 number]
      | some occurrence =>
          have present : ((occurrences text).any fun occurrence =>
              occurrence.marker.path == path) = true := by
            have named := List.find?_some first
            exact List.any_eq_true.mpr ⟨occurrence, List.mem_of_find?_eq_some first, named⟩
          simp [present]

/-- The first marker for a path that is left when the text is taken line by line. -/
def firstLeft? (text : List Char) (path : String) : Option Occurrence :=
  (remainsFrom 1 text).find? fun left => left.marker.path == path

/-- The line looked up for a path is that of the first marker left for it. -/
theorem findLine?_eq_firstLeft? (text : List Char) (path : String) :
    findLine? text path = (firstLeft? text path).map (·.line) := by
  rw [findLine?, firstLeft?, remainsFrom_eq_flatMap_lines,
    find?_path_flatMap_lines path 1 fun line => Text.not_mem_of_mem_lines]

/-- Behind unbroken markers for other paths an unbroken marker is what is left first. -/
theorem firstLeft?_of_unbroken {text : List Char} {before after : List Occurrence}
    {occurrence : Occurrence} (split : occurrences text = before ++ occurrence :: after)
    (others : ∀ earlier ∈ before, earlier.marker.path ≠ occurrence.marker.path)
    (unbroken : ∀ earlier ∈ before, earlier.marker.Unbroken)
    (own : occurrence.marker.Unbroken) :
    firstLeft? text occurrence.marker.path = some occurrence := by
  have searched : occurrencesFrom 1 0 text = before ++ occurrence :: after := split
  have within : before ⊆ occurrencesFrom 1 0 text := fun earlier member =>
    searched ▸ List.mem_append_left _ member
  have wellFormed : occurrence.marker.WellFormed := by
    apply wellFormed_of_mem_occurrencesFrom
    exact searched ▸ List.mem_append_right before List.mem_cons_self
  have remains : remainsFrom 1 text = before ++ occurrence :: after.flatMap Occurrence.remains := by
    rw [remainsFrom, searched, List.flatMap_append, List.flatMap_cons,
      flatMap_remains_of_unbroken within unbroken, remains_of_unbroken wellFormed own,
      List.singleton_append]
  have absent : (before.find? fun earlier => earlier.marker.path == occurrence.marker.path) =
      none := by
    simpa using others
  rw [firstLeft?, remains, List.find?_append, absent]
  simp

/-- Without broken markers the first marker for a path is what is left first. -/
theorem firstLeft?_of_mem_firstUses {text : List Char} {occurrence : Occurrence}
    (first : occurrence ∈ firstUses (·.marker.path) (occurrences text))
    (unbroken : ∀ other ∈ occurrences text, other.marker.Unbroken) :
    firstLeft? text occurrence.marker.path = some occurrence := by
  obtain ⟨before, after, split, others⟩ := (mem_firstUses_iff _).mp first
  rw [split] at unbroken
  apply firstLeft?_of_unbroken split others
  · intro earlier member
    exact unbroken earlier (List.mem_append_left _ member)
  · exact unbroken occurrence (List.mem_append_right before List.mem_cons_self)

/-- Without broken markers the line looked up for a path is that of its first marker. -/
theorem findLine?_eq_find? {text : List Char} (path : String)
    (unbroken : ∀ occurrence ∈ occurrences text, occurrence.marker.Unbroken) :
    findLine? text path =
      ((occurrences text).find? fun occurrence => occurrence.marker.path == path).map (·.line) := by
  have same : remainsFrom 1 text = occurrences text :=
    flatMap_remains_of_unbroken (List.Subset.refl _) unbroken
  rw [findLine?_eq_firstLeft?, firstLeft?, same]

end Marker

namespace Reference

/-- A reference comes from the first occurrence of its path; without broken markers it
    stands where that starts. -/
theorem exists_first_with_line {text : List Char} {file : String} {reference : Reference}
    (member : reference ∈ ofText text file) :
    ∃ before occurrence after, Marker.occurrences text = before ++ occurrence :: after ∧
      occurrence.marker = ⟨reference.rawPath, reference.renderText⟩ ∧
      (∀ earlier ∈ before, earlier.marker.path ≠ reference.rawPath) ∧
      ((∀ occurrence ∈ Marker.occurrences text, occurrence.marker.Unbroken) →
        reference.lineNumber = occurrence.line) := by
  obtain ⟨occurrence, first, rfl⟩ := List.mem_map.mp member
  obtain ⟨before, after, split, others⟩ := (mem_firstUses_iff _).mp first
  refine ⟨before, occurrence, after, split, rfl, others, ?_⟩
  intro unbroken
  rw [Marker.findLine?_eq_firstLeft?, Marker.firstLeft?_of_mem_firstUses first unbroken]
  rfl

end Reference

end ExpressLinks
