import ExpressLinks.Text.Split

/-!
# Lines

A line ends at a line feed. One carriage return directly before that line feed
belongs to the ending; a last line without a line feed keeps its carriage
return, and no line follows a final line feed. No other character breaks lines.
-/

namespace ExpressLinks.Text

/-- Drops one carriage return at the end. -/
def dropCarriage : List Char → List Char
  | [] => []
  | ['\r'] => []
  | c :: cs => c :: dropCarriage cs

/-- Turns the pieces between line feeds into lines: every piece but the last
    was ended by a line feed. -/
def closeLines : List (List Char) → List (List Char)
  | [] => []
  | [last] => if last = [] then [] else [last]
  | piece :: pieces => dropCarriage piece :: closeLines pieces

/-- The lines of a text, without their endings. -/
def lines (text : List Char) : List (List Char) := closeLines (splitAt '\n' text)

/-- The number of line feeds, so `1 + lineFeeds before` is the number of the line
    on which the character after `before` stands. -/
def lineFeeds (text : List Char) : Nat := text.count '\n'

end ExpressLinks.Text
