import ExpressLinks.Ascii
import ExpressLinks.Proofs.Text.Lines

/-!
# What the ASCII check reports

Going through the lines of a text loses no character that is not ASCII, since what ends
a line is ASCII: the characters reported are those characters of the text, in order. So
a text is clean exactly when it is plain ASCII.
-/

namespace ExpressLinks.Ascii

theorem isAscii_iff {c : Char} : isAscii c = true ↔ c.toNat < 0x80 := by
  simp [isAscii]

/-- The characters of a text that are not ASCII. -/
def foreign (text : List Char) : List Char := text.filter fun c => !isAscii c

@[simp] theorem foreign_append (first second : List Char) :
    foreign (first ++ second) = foreign first ++ foreign second :=
  List.filter_append first second

theorem foreign_eq_nil_iff {text : List Char} : foreign text = [] ↔ ∀ c ∈ text, c.toNat < 0x80 := by
  simp [foreign, List.filter_eq_nil_iff, isAscii_iff]

/-- In a line the characters that are not ASCII are reported, wherever counting starts. -/
theorem map_character_lineViolations (line : List Char) (number : Nat) :
    (lineViolations line number).map (·.character) = foreign line := by
  have counted (report : Char × Nat → Option Violation)
      (reports : ∀ c column, report (c, column) =
        if isAscii c then none else some ⟨number, column + 1, c⟩) (start : Nat) :
      ((line.zipIdx start).filterMap report).map (·.character) = foreign line := by
    induction line generalizing start with
    | nil => rfl
    | cons c cs ih =>
        have rest := ih (start + 1)
        rw [List.zipIdx_cons]
        by_cases ascii : isAscii c = true
        · rw [List.filterMap_cons_none (by simp [reports, ascii]), rest, foreign, foreign,
            List.filter_cons_of_neg (by simp [ascii])]
        · rw [List.filterMap_cons_some (by simp only [reports, ascii]; rfl), List.map_cons, rest,
            foreign, foreign, List.filter_cons_of_pos (by simp [ascii])]
  exact counted _ (fun _ _ => rfl) 0

/-- What ends a line is ASCII, so the lines hold all the characters that are not. -/
theorem flatMap_foreign_lines (text : List Char) :
    (Text.lines text).flatMap foreign = foreign text := by
  induction text using Text.line_induction with
  | last text free =>
      rw [Text.lines_of_not_mem free]
      by_cases empty : text = []
      · rw [if_pos empty, empty]
        rfl
      · rw [if_neg empty, List.flatMap_singleton]
  | line first rest free ih =>
      have kept : foreign (Text.dropCarriage first) = foreign first := by
        rcases Text.eq_dropCarriage_or first with same | dropped
        · rw [← same]
        · have ended := congrArg foreign dropped
          rw [foreign_append] at ended
          exact (ended.trans (List.append_nil _)).symm
      rw [Text.lines_append_feed free, List.flatMap_cons, ih, kept, foreign_append]
      rfl

/-- The characters reported are those of the text that are not ASCII, in order. -/
theorem map_character_violations (text : List Char) :
    (violations text).map (·.character) = foreign text := by
  have numbered (report : List Char × Nat → List Violation)
      (reports : ∀ line index, report (line, index) = lineViolations line (index + 1))
      (lines : List (List Char)) (start : Nat) :
      ((lines.zipIdx start).flatMap report).map (·.character) = lines.flatMap foreign := by
    induction lines generalizing start with
    | nil => rfl
    | cons line others ih =>
        rw [List.zipIdx_cons, List.flatMap_cons, List.map_append, ih (start + 1), reports,
          map_character_lineViolations, List.flatMap_cons]
  rw [violations, numbered _ fun _ _ => rfl, flatMap_foreign_lines]

/-- A text is clean exactly when all its characters are ASCII. -/
theorem isClean_checkText_iff {file : String} {text : List Char} :
    (checkText file text).isClean = true ↔ ∀ c ∈ text, c.toNat < 0x80 := by
  rw [← foreign_eq_nil_iff, ← map_character_violations, List.map_eq_nil_iff,
    FileViolations.isClean, List.isEmpty_iff]
  rfl

end ExpressLinks.Ascii
