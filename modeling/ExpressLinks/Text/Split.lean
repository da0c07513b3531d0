/-!
# Cutting text at a character

`Text.splitAt sep` cuts a text at every occurrence of `sep`; there is always
one more piece than there are separators, so the empty text has one empty
piece. `Text.joinWith` puts the pieces back together.
-/

namespace ExpressLinks.Text

/-- The pieces between the occurrences of `sep`, which belong to none of them. -/
def splitAt (sep : Char) : List Char → List (List Char)
  | [] => [[]]
  | c :: cs =>
      if c = sep then [] :: splitAt sep cs
      else
        match splitAt sep cs with
        | [] => [[c]]
        | piece :: pieces => (c :: piece) :: pieces

/-- The pieces in order with `sep` between each two of them. -/
def joinWith (sep : List Char) : List (List Char) → List Char
  | [] => []
  | [piece] => piece
  | piece :: pieces => piece ++ sep ++ joinWith sep pieces

theorem splitAt_ne_nil (sep : Char) (text : List Char) : splitAt sep text ≠ [] := by
  cases text with
  | nil => simp [splitAt]
  | cons c cs =>
      simp only [splitAt]
      split
      · simp
      · split <;> simp

/-- Nothing is lost: the pieces joined by the separator are the text. -/
theorem joinWith_splitAt (sep : Char) (text : List Char) :
    joinWith [sep] (splitAt sep text) = text := by
  induction text with
  | nil => rfl
  | cons c cs ih =>
      have hne := splitAt_ne_nil sep cs
      simp only [splitAt]
      cases hs : splitAt sep cs with
      | nil => exact absurd hs hne
      | cons piece pieces =>
          rw [hs] at ih
          split
          · next h => simp [joinWith, ih, h]
          · cases pieces with
            | nil => simpa [joinWith] using ih
            | cons p ps => simpa [joinWith] using ih

/-- Strings cut at a character. -/
def splitString (sep : Char) (s : String) : List String :=
  (splitAt sep s.toList).map String.ofList

end ExpressLinks.Text
