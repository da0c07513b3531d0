import ExpressLinks.Ascii
import ExpressLinks.Proofs.Marker.LineEndings
import ExpressLinks.Validation

/-!
# What line endings do not change

Files come with line feeds or with carriage returns and line feeds at the ends of their
lines. The ASCII check reports the same on both, whatever the text, as a carriage return is
ASCII and stands behind all that is on its line. Validation finds the same in both as long
as no marker is broken across lines: such a marker has a carriage return more in its path
or render text.
-/

namespace ExpressLinks

open Text (withCarriages)

namespace Ascii

/-- A carriage return at the end of a line is no violation and shifts none. -/
theorem lineViolations_append_return (line : List Char) (number : Nat) :
    lineViolations (line ++ ['\r']) number = lineViolations line number := by
  have ascii : isAscii '\r' = true := by decide
  simp [lineViolations, List.zipIdx_append, ascii]

theorem violations_withCarriages (text : List Char) :
    violations (withCarriages text) = violations text := by
  have listed (text : List Char) : violations text =
      ((Text.lines text).map lineViolations).zipIdx.flatMap fun numbered =>
        numbered.1 (numbered.2 + 1) := by
    rw [List.zipIdx_map, List.flatMap_map]
    rfl
  have ignores (line : List Char) : lineViolations (line ++ ['\r']) = lineViolations line :=
    funext (lineViolations_append_return line)
  rw [listed, listed, Text.map_lines_withCarriages ignores]

theorem checkText_withCarriages (file : String) (text : List Char) :
    checkText file (withCarriages text) = checkText file text := by
  rw [checkText, checkText, violations_withCarriages]

end Ascii

/-- Writing each line feed of a text as a carriage return and a line feed leaves the findings
    of the ASCII check as they are. If no marker of the text is broken across lines, it also
    leaves the references as they are, with their paths, render texts and lines, and so the
    outcome of validating the text. -/
theorem withCarriages_changes_nothing (corpus : Corpus) (file : String) (text : List Char) :
    Ascii.checkText file (withCarriages text) = Ascii.checkText file text ∧
      ((∀ occurrence ∈ Marker.occurrences text, occurrence.marker.Unbroken) →
        Reference.ofText (withCarriages text) file = Reference.ofText text file ∧
          FileOutcome.ofText corpus file (withCarriages text) =
            FileOutcome.ofText corpus file text) := by
  refine ⟨Ascii.checkText_withCarriages file text, ?_⟩
  intro unbroken
  have references := Reference.ofText_withCarriages file unbroken
  refine ⟨references, ?_⟩
  rw [FileOutcome.ofText, FileOutcome.ofText, references]

/-- Lines that end in carriage returns already get a second one, an opening that is never
    closed and a single sign behind a line feed stay what they are. -/
theorem withCarriages_changes_nothing_mixed_endings :
    let text := "é <<express:x\r\n> <<express:s.a,y>>\n\n≥<<express:t>>\r".toList
    withCarriages text ≠ text ∧
      (∀ occurrence ∈ Marker.occurrences text, occurrence.marker.Unbroken) ∧
      (Ascii.checkText "a.adoc" (withCarriages text)).occurrences = [⟨1, 1, 'é'⟩, ⟨4, 1, '≥'⟩] ∧
      Reference.ofText (withCarriages text) "a.adoc" =
        [⟨"s.a", some "y", "a.adoc", 2⟩, ⟨"t", none, "a.adoc", 4⟩] ∧
      ∀ corpus, FileOutcome.ofText corpus "a.adoc" (withCarriages text) =
        FileOutcome.ofText corpus "a.adoc" text := by
  intro text
  have unbroken : ∀ occurrence ∈ Marker.occurrences text, occurrence.marker.Unbroken := by
    simp only [Marker.unbroken_iff]
    decide +kernel
  have unchanged (corpus : Corpus) := withCarriages_changes_nothing corpus "a.adoc" text
  refine ⟨by decide +kernel, unbroken, ?_, ?_, fun corpus => ((unchanged corpus).2 unbroken).2⟩
  · rw [(unchanged .empty).1]
    decide +kernel
  · rw [((unchanged .empty).2 unbroken).1]
    decide +kernel

end ExpressLinks
