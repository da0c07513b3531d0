import Mathlib.Algebra.BigOperators.Group.List.Lemmas
import Mathlib.Algebra.GroupWithZero.Nat
import ExpressLinks.Proofs.Ascii.Violations
import ExpressLinks.Proofs.FirstUse

/-!
# Where the ASCII check finds characters, and how often

The check goes through a text line by line and counts columns in each line. Neither the
carriage return that a line loses nor the line feed that ends it shifts a place: each
violation stands as many lines below the first one as there are line feeds in front of its
character, and as many columns behind the first one as there are characters in front of it
on its own line. The characters are counted over the whole text, so their counts add up to
the number of places.
-/

namespace ExpressLinks.Ascii

open Text (lineFeeds lastLine)

/-- The violation that a character with the text `before` in front of it is. -/
def Violation.behind (before : List Char) (c : Char) : Violation :=
  ⟨1 + lineFeeds before, 1 + (lastLine before).length, c⟩

/-- The violations of a text that stands behind `before`, each placed by all the text in
    front of it. -/
def violationsBehind (before : List Char) : List Char → List Violation
  | [] => []
  | c :: cs =>
      (if isAscii c then [] else [.behind before c]) ++ violationsBehind (before ++ [c]) cs

theorem violationsBehind_append (before first second : List Char) :
    violationsBehind before (first ++ second) =
      violationsBehind before first ++ violationsBehind (before ++ first) second := by
  induction first generalizing before with
  | nil => simp [violationsBehind]
  | cons c cs ih =>
      rw [List.cons_append, violationsBehind, violationsBehind, ih, List.append_assoc,
        List.append_assoc, List.singleton_append]

theorem violationsBehind_singleton (before : List Char) {c : Char} (ascii : isAscii c = true) :
    violationsBehind before [c] = [] := by
  simp [violationsBehind, ascii]

/-- On a line the columns go on from the characters that stand on it already. -/
theorem violationsBehind_of_not_mem (before : List Char) {line : List Char} (free : '\n' ∉ line) :
    violationsBehind before line =
      (line.zipIdx (lastLine before).length).filterMap fun (c, column) =>
        if isAscii c then none else some ⟨1 + lineFeeds before, column + 1, c⟩ := by
  induction line generalizing before with
  | nil => rfl
  | cons c cs ih =>
      obtain ⟨other, rest⟩ := not_or.mp (mt List.mem_cons.mpr free)
      have sameLine : lineFeeds (before ++ [c]) = lineFeeds before := by
        rw [Text.lineFeeds_append, Text.lineFeeds_cons_of_ne (Ne.symm other), Text.lineFeeds_nil,
          Nat.add_zero]
      have nextColumn : (lastLine (before ++ [c])).length = (lastLine before).length + 1 := by
        rw [Text.lastLine_append before (by simpa using other), List.length_append,
          List.length_singleton]
      rw [violationsBehind, ih (before ++ [c]) rest, sameLine, nextColumn, List.zipIdx_cons]
      by_cases ascii : isAscii c = true
      · simp [ascii]
      · simp [ascii, Violation.behind, Nat.add_comm]

/-- Where a line begins its violations are those of the line by itself. -/
theorem violationsBehind_line {before line : List Char} (begins : lastLine before = [])
    (free : '\n' ∉ line) :
    violationsBehind before line = lineViolations line (1 + lineFeeds before) := by
  rw [violationsBehind_of_not_mem before free, begins]
  rfl

/-- The carriage return that a line loses is ASCII and has nothing behind it. -/
theorem violationsBehind_dropCarriage (before line : List Char) :
    violationsBehind before (Text.dropCarriage line) = violationsBehind before line := by
  rcases Text.eq_dropCarriage_or line with same | dropped
  · rw [← same]
  · conv => rhs; rw [dropped]
    rw [violationsBehind_append, violationsBehind_singleton _ (by decide), List.append_nil]

/-- Line by line the check finds the violations of the text, also when the text stands
    behind other lines and their number is counted on. -/
theorem flatMap_lineViolations_lines (before text : List Char) (begins : lastLine before = []) :
    ((Text.lines text).zipIdx (lineFeeds before)).flatMap
        (fun numbered => lineViolations numbered.1 (numbered.2 + 1)) =
      violationsBehind before text := by
  induction text using Text.line_induction generalizing before with
  | last text free =>
      rw [Text.lines_of_not_mem free, violationsBehind_line begins free]
      by_cases empty : text = []
      · simp [empty, lineViolations]
      · simp [empty, Nat.add_comm]
  | line first rest free ih =>
      have dropFree : '\n' ∉ Text.dropCarriage first := by
        intro feed
        rcases Text.eq_dropCarriage_or first with same | dropped
        · exact free (same ▸ feed)
        · exact free (dropped ▸ List.mem_append_left _ feed)
      have feeds : lineFeeds (before ++ (first ++ ['\n'])) = lineFeeds before + 1 := by
        have onLine : lineFeeds first = 0 := List.count_eq_zero.mpr free
        have feed : lineFeeds ['\n'] = 1 := rfl
        rw [Text.lineFeeds_append, Text.lineFeeds_append, onLine, feed]
      have again : lastLine (before ++ (first ++ ['\n'])) = [] := by
        rw [← List.append_assoc, Text.lastLine_append_feed]
        rfl
      have others := ih (before ++ (first ++ ['\n'])) again
      rw [feeds] at others
      have regroup : first ++ '\n' :: rest = (first ++ ['\n']) ++ rest := by simp
      rw [Text.lines_append_feed free, List.zipIdx_cons, List.flatMap_cons, others, regroup,
        violationsBehind_append, violationsBehind_append,
        violationsBehind_singleton _ (by decide), List.append_nil,
        ← violationsBehind_dropCarriage before first, violationsBehind_line begins dropFree,
        Nat.add_comm]

theorem violations_eq_violationsBehind (text : List Char) :
    violations text = violationsBehind [] text :=
  flatMap_lineViolations_lines [] text rfl

/-- A violation in its place among the others tells apart the text in front of its
    character, where the earlier ones are found, and the text behind it. -/
theorem exists_front_of_violationsBehind {front text : List Char} {earlier later : List Violation}
    {violation : Violation} (split : violationsBehind front text = earlier ++ violation :: later) :
    ∃ before after, text = before ++ violation.character :: after ∧
      violation = .behind (front ++ before) violation.character ∧
      earlier = violationsBehind front before := by
  induction text generalizing front earlier with
  | nil => simp [violationsBehind] at split
  | cons c cs ih =>
      rw [violationsBehind] at split
      by_cases ascii : isAscii c = true
      · rw [if_pos ascii, List.nil_append] at split
        obtain ⟨before, after, rfl, place, others⟩ := ih split
        refine ⟨c :: before, after, rfl, by simpa using place, ?_⟩
        rw [violationsBehind, if_pos ascii, List.nil_append, others]
      · rw [if_neg ascii, List.singleton_append] at split
        cases earlier with
        | nil =>
            obtain ⟨rfl, -⟩ := List.cons.inj split
            exact ⟨[], cs, rfl, by rw [List.append_nil]; rfl, rfl⟩
        | cons first earlier =>
            obtain ⟨rfl, tail⟩ := List.cons.inj split
            obtain ⟨before, after, rfl, place, others⟩ := ih tail
            refine ⟨c :: before, after, rfl, by simpa using place, ?_⟩
            rw [violationsBehind, if_neg ascii, List.singleton_append, others]

/-- Among the characters that are not ASCII one of them occurs as often as in the text. -/
theorem count_foreign {text : List Char} {c : Char} (member : c ∈ foreign text) :
    (foreign text).count c = text.count c :=
  List.count_filter (List.mem_filter.mp member).2

/-- How often the different elements of a list occur adds up to its length. -/
theorem sum_count_eraseDups (elements : List Char) :
    (elements.eraseDups.map elements.count).sum = elements.length := by
  have same : elements.eraseDups.Perm elements.dedup :=
    (List.perm_ext_iff_of_nodup (nodup_eraseDups elements) (List.nodup_dedup elements)).mpr
      fun c => by rw [List.mem_eraseDups, List.mem_dedup]
  rw [(same.map elements.count).sum_eq]
  exact List.sum_map_count_dedup_eq_length elements

/-- The summaries are for the different characters found, in the order in which these come
    up first. -/
theorem characters_checkText (file : String) (text : List Char) :
    (checkText file text).characters =
      (foreign text).eraseDups.map fun c => summarize c (text.count c) := by
  have uses : firstUses id (foreign text) = (foreign text).eraseDups := by
    simpa using map_firstUses id (foreign text)
  have found : (checkText file text).characters =
      (foreign text).eraseDups.map fun c => summarize c ((foreign text).count c) := by
    rw [← uses, ← map_character_violations text]
    rfl
  rw [found]
  apply List.map_congr_left
  intro c member
  rw [count_foreign (List.mem_eraseDups.mp member)]

/-- The check reports the characters of a text that are not ASCII, in order, each where it
    stands: its line is one more than the line feeds in front of it, its column one more than
    the characters in front of it on its line. Each different one is listed once, where it
    comes up first, with the number of times it occurs in the text, and these numbers add up
    to the number of places. A text is clean exactly when it is plain ASCII. -/
theorem checkText_places_and_counts (file : String) (text : List Char) :
    (checkText file text).occurrences.map (·.character) = foreign text ∧
      (∀ earlier violation later,
        (checkText file text).occurrences = earlier ++ violation :: later →
          ∃ before after, text = before ++ violation.character :: after ∧
            earlier.map (·.character) = foreign before ∧
            violation.line = 1 + lineFeeds before ∧
            violation.column = 1 + (lastLine before).length) ∧
      (checkText file text).characters.map (·.character) = (foreign text).eraseDups ∧
      (∀ summary ∈ (checkText file text).characters,
        summary.occurrenceCount = text.count summary.character) ∧
      ((checkText file text).characters.map (·.occurrenceCount)).sum =
        (checkText file text).count ∧
      ((checkText file text).isClean = true ↔ ∀ c ∈ text, c.toNat < 0x80) := by
  have listed := characters_checkText file text
  refine ⟨map_character_violations text, ?_, ?_, ?_, ?_, isClean_checkText_iff⟩
  · intro earlier violation later split
    have found : violationsBehind [] text = earlier ++ violation :: later :=
      (violations_eq_violationsBehind text).symm.trans split
    obtain ⟨before, after, text_eq, place, others⟩ := exists_front_of_violationsBehind found
    rw [← violations_eq_violationsBehind] at others
    refine ⟨before, after, text_eq, ?_, congrArg (·.line) place, congrArg (·.column) place⟩
    rw [others, map_character_violations]
  · rw [listed, List.map_map]
    exact List.map_id _
  · intro summary member
    rw [listed] at member
    obtain ⟨c, -, rfl⟩ := List.mem_map.mp member
    rfl
  · have counts : (checkText file text).characters.map (·.occurrenceCount) =
        (foreign text).eraseDups.map (foreign text).count := by
      rw [listed, List.map_map]
      apply List.map_congr_left
      intro c member
      exact (count_foreign (List.mem_eraseDups.mp member)).symm
    have places : (checkText file text).count = (foreign text).length := by
      rw [← map_character_violations text, List.length_map]
      rfl
    rw [counts, sum_count_eraseDups, places]

/-- A lone carriage return stands in a column like any other character, one before a line
    feed does not, and a line separator is a character on its line. -/
theorem checkText_places_behind_carriage_returns :
    let text := "\ré\r\n\u2028é".toList
    let found := checkText "a.exp" text
    found.occurrences = [⟨1, 2, 'é'⟩] ++ ⟨2, 1, '\u2028'⟩ :: [⟨2, 2, 'é'⟩] ∧
      (∃ before after, text = before ++ '\u2028' :: after ∧ ['é'] = foreign before ∧
        2 = 1 + lineFeeds before ∧ 1 = 1 + (lastLine before).length) ∧
      summarize 'é' 2 ∈ found.characters ∧ (summarize 'é' 2).occurrenceCount = text.count 'é' ∧
      (found.characters.map (·.occurrenceCount)).sum = 3 := by
  intro text found
  have places : found.occurrences = [⟨1, 2, 'é'⟩] ++ ⟨2, 1, '\u2028'⟩ :: [⟨2, 2, 'é'⟩] := by
    decide +kernel
  have listed : summarize 'é' 2 ∈ found.characters := by decide +kernel
  obtain ⟨-, placed, -, counted, total, -⟩ := checkText_places_and_counts "a.exp" text
  exact ⟨places, placed _ _ _ places, listed, counted _ listed,
    total.trans (congrArg List.length places)⟩

end ExpressLinks.Ascii
