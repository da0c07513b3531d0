import ExpressLinks.Text.Line

/-!
# Pieces of a text

Cutting a text at a separator gives pieces without the separator, one at least,
which joined again are the text; pieces without the separator are cut apart again
once they are joined. Line feeds are counted piece by piece.
-/

namespace ExpressLinks.Text

/-- No piece holds the separator. -/
theorem not_mem_of_mem_splitAt {sep : Char} {text piece : List Char}
    (member : piece ∈ splitAt sep text) : sep ∉ piece := by
  induction text generalizing piece with
  | nil => simp_all [splitAt]
  | cons c cs ih =>
      simp only [splitAt] at member
      split at member
      · rcases List.mem_cons.mp member with rfl | member
        · exact List.not_mem_nil
        · exact ih member
      next different =>
        cases pieces : splitAt sep cs with
        | nil => exact absurd pieces (splitAt_ne_nil sep cs)
        | cons first others =>
            rw [pieces] at member ih
            rcases List.mem_cons.mp member with rfl | member
            · have absent := ih List.mem_cons_self
              simp [Ne.symm different, absent]
            · exact ih (List.mem_cons_of_mem first member)

/-- A text without the separator is one piece. -/
theorem splitAt_of_not_mem {sep : Char} {text : List Char} (free : sep ∉ text) :
    splitAt sep text = [text] := by
  induction text with
  | nil => rfl
  | cons c cs ih =>
      obtain ⟨different, rest⟩ := not_or.mp (mt List.mem_cons.mpr free)
      rw [splitAt, if_neg (Ne.symm different), ih rest]

/-- A separator ends a piece. -/
theorem splitAt_append_cons (sep : Char) (first second : List Char) :
    splitAt sep (first ++ sep :: second) = splitAt sep first ++ splitAt sep second := by
  induction first with
  | nil => simp [splitAt]
  | cons c cs ih =>
      rw [List.cons_append, splitAt, splitAt, ih]
      split
      · rfl
      · cases pieces : splitAt sep cs with
        | nil => exact absurd pieces (splitAt_ne_nil sep cs)
        | cons piece others => rfl

/-- What is done to the characters of a text is done to those of its pieces, as long as
    it neither moves the separator nor moves anything to it. -/
theorem splitAt_map {sep : Char} {f : Char → Char} (keeps : ∀ c, f c = sep ↔ c = sep)
    (text : List Char) : splitAt sep (text.map f) = (splitAt sep text).map (List.map f) := by
  induction text with
  | nil => rfl
  | cons c cs ih =>
      rw [List.map_cons, splitAt, splitAt, ih]
      by_cases ends : c = sep
      · simp [ends, keeps]
      · rw [if_neg ends, if_neg (mt (keeps c).mp ends)]
        cases pieces : splitAt sep cs with
        | nil => rfl
        | cons piece others => rfl

theorem joinWith_cons_cons (sep : Char) (piece next : List Char) (others : List (List Char)) :
    joinWith [sep] (piece :: next :: others) = piece ++ sep :: joinWith [sep] (next :: others) := by
  simp [joinWith]

/-- What is done to the characters of joined pieces is done piece by piece, as long as the
    separator stays. -/
theorem map_joinWith {sep : Char} {f : Char → Char} (kept : f sep = sep)
    (pieces : List (List Char)) :
    (joinWith [sep] pieces).map f = joinWith [sep] (pieces.map (List.map f)) := by
  induction pieces with
  | nil => rfl
  | cons piece others ih =>
      cases others with
      | nil => rfl
      | cons next others =>
          rw [List.map_cons] at ih
          simp only [joinWith_cons_cons, List.map_append, List.map_cons, kept, ih]

/-- What holds of texts without the separator, and of a piece and a rest if it holds of the
    rest, holds of all texts. -/
theorem piece_induction (sep : Char) {motive : List Char → Prop}
    (last : ∀ text, sep ∉ text → motive text)
    (piece : ∀ first rest, sep ∉ first → motive rest → motive (first ++ sep :: rest))
    (text : List Char) : motive text := by
  have joined (pieces : List (List Char)) (free : ∀ piece ∈ pieces, sep ∉ piece) :
      motive (joinWith [sep] pieces) := by
    induction pieces with
    | nil => exact last [] List.not_mem_nil
    | cons first others ih =>
        have own := free first List.mem_cons_self
        cases others with
        | nil => exact last first own
        | cons next others =>
            rw [joinWith_cons_cons]
            apply piece first _ own
            exact ih fun other member => free other (List.mem_cons_of_mem first member)
  rw [← joinWith_splitAt sep text]
  exact joined _ fun piece => not_mem_of_mem_splitAt

/-- Joining undoes cutting, too: pieces without the separator are cut apart again. -/
theorem splitAt_joinWith {sep : Char} {pieces : List (List Char)} (given : pieces ≠ [])
    (free : ∀ piece ∈ pieces, sep ∉ piece) : splitAt sep (joinWith [sep] pieces) = pieces := by
  induction pieces with
  | nil => exact absurd rfl given
  | cons piece others ih =>
      have whole : splitAt sep piece = [piece] := splitAt_of_not_mem (free piece List.mem_cons_self)
      cases others with
      | nil => exact whole
      | cons next others =>
          have rest := ih (by simp) fun other member =>
            free other (List.mem_cons_of_mem piece member)
          rw [joinWith_cons_cons, splitAt_append_cons, whole, rest, List.singleton_append]

theorem mem_joinWith {sep c : Char} {pieces : List (List Char)} {piece : List Char}
    (member : piece ∈ pieces) (letter : c ∈ piece) : c ∈ joinWith [sep] pieces := by
  induction pieces with
  | nil => simp at member
  | cons first others ih =>
      cases others with
      | nil =>
          rw [List.mem_singleton.mp member] at letter
          exact letter
      | cons next others =>
          rw [joinWith_cons_cons, List.mem_append]
          rcases List.mem_cons.mp member with rfl | later
          · exact .inl letter
          · exact .inr (List.mem_cons_of_mem sep (ih later))

/-- Strings joined by a character between each two of them. -/
def joinStrings (sep : Char) (pieces : List String) : String :=
  String.ofList (joinWith [sep] (pieces.map String.toList))

theorem not_mem_of_mem_splitString {sep : Char} {s piece : String}
    (member : piece ∈ splitString sep s) : sep ∉ piece.toList := by
  obtain ⟨letters, cut, rfl⟩ := List.mem_map.mp member
  rw [String.toList_ofList]
  exact not_mem_of_mem_splitAt cut

theorem splitString_joinStrings {sep : Char} {pieces : List String} (given : pieces ≠ [])
    (free : ∀ piece ∈ pieces, sep ∉ piece.toList) :
    splitString sep (joinStrings sep pieces) = pieces := by
  rw [splitString, joinStrings, String.toList_ofList, splitAt_joinWith (by simpa using given)]
  · simp [List.map_map, Function.comp_def]
  · intro letters member
    obtain ⟨piece, listed, rfl⟩ := List.mem_map.mp member
    exact free piece listed

theorem mem_of_mem_splitString {sep c : Char} {s piece : String}
    (member : piece ∈ splitString sep s) (letter : c ∈ piece.toList) : c ∈ s.toList := by
  obtain ⟨letters, cut, rfl⟩ := List.mem_map.mp member
  rw [String.toList_ofList] at letter
  rw [← joinWith_splitAt sep s.toList]
  exact mem_joinWith cut letter

theorem splitString_of_not_mem {sep : Char} {s : String} (free : sep ∉ s.toList) :
    splitString sep s = [s] := by
  rw [splitString, splitAt_of_not_mem free, List.map_singleton, String.ofList_toList]

theorem splitString_append (sep : Char) (first second : String) :
    splitString sep (first ++ String.singleton sep ++ second) =
      splitString sep first ++ splitString sep second := by
  have cut := splitAt_append_cons sep first.toList second.toList
  simp [splitString, cut]

/-- Pieces that the separator ends are cut off one after the other. -/
theorem splitString_join_append {sep : Char} {pieces : List String}
    (free : ∀ piece ∈ pieces, sep ∉ piece.toList) (rest : String) :
    splitString sep (String.join (pieces.map (· ++ String.singleton sep)) ++ rest) =
      pieces ++ splitString sep rest := by
  induction pieces with
  | nil => simp
  | cons piece others ih =>
      have own := splitString_of_not_mem (free piece List.mem_cons_self)
      have later := ih fun other member => free other (List.mem_cons_of_mem piece member)
      rw [List.map_cons, String.join_cons, String.append_assoc, splitString_append, own, later]
      rfl

theorem intercalate_eq_joinStrings (sep : Char) (pieces : List String) :
    (String.singleton sep).intercalate pieces = joinStrings sep pieces := by
  induction pieces with
  | nil => rfl
  | cons piece others ih =>
      cases others with
      | nil => simp [joinStrings, joinWith]
      | cons next others =>
          rw [String.intercalate_cons_cons, ih, ← String.toList_inj]
          simp [joinStrings, joinWith]

@[simp] theorem lineFeeds_nil : lineFeeds [] = 0 := rfl

@[simp] theorem lineFeeds_append (first second : List Char) :
    lineFeeds (first ++ second) = lineFeeds first + lineFeeds second := by
  simp [lineFeeds]

theorem lineFeeds_cons (c : Char) (cs : List Char) :
    lineFeeds (c :: cs) = lineFeeds [c] + lineFeeds cs :=
  lineFeeds_append [c] cs

theorem lineFeeds_cons_of_ne {c : Char} (other : c ≠ '\n') (cs : List Char) :
    lineFeeds (c :: cs) = lineFeeds cs :=
  List.count_cons_of_ne other

end ExpressLinks.Text
