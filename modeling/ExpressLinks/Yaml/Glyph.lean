import ExpressLinks.Yaml.Character

/-!
# Glyphs

A glyph is a character of a document with its place. The three ways to end a
line are one glyph, a line feed; the two Unicode separators end lines too and
stay what they are. A byte-order mark at the start is no glyph.
-/

namespace ExpressLinks.Yaml

/-- A character and where it stands; all counts start at zero. -/
structure Glyph where
  char : Char
  index : Nat
  line : Nat
  column : Nat
  deriving DecidableEq, Repr

namespace Glyph

/-- The glyphs of a text that starts at the given place. -/
def placed (index line column : Nat) : List Char → List Glyph
  | [] => []
  | '\r' :: '\n' :: rest => ⟨'\n', index, line, column⟩ :: placed (index + 2) (line + 1) 0 rest
  | c :: rest =>
      if isBreak c then
        let c := if c = '\r' ∨ c = '\u0085' then '\n' else c
        ⟨c, index, line, column⟩ :: placed (index + 1) (line + 1) 0 rest
      else ⟨c, index, line, column⟩ :: placed (index + 1) line (column + 1) rest

/-- Drops a byte-order mark at the start. -/
def dropMark : List Glyph → List Glyph
  | glyph :: rest => if glyph.char = '\ufeff' then rest else glyph :: rest
  | [] => []

/-- The glyphs of a document, if it holds allowed characters only. A byte-order
    mark takes no place, a second one takes a column. -/
def ofText? (text : List Char) : Option (List Glyph) :=
  let text := match text with
    | '\ufeff' :: rest => rest
    | text => text
  if text.all isAllowed then some (dropMark (placed 0 0 0 text)) else none

/-- Is the glyph this character? -/
def is (glyph : Glyph) (c : Char) : Bool := glyph.char == c

/-- Does a word end here: at a blank, at a break or at the end? -/
def endsWord : List Glyph → Bool
  | [] => true
  | glyph :: _ => isBlank glyph.char || isBreak glyph.char

/-- Do the glyphs start with that character? -/
def startsWith (c : Char) : List Glyph → Bool
  | [] => false
  | glyph :: _ => glyph.is c

/-- Do the glyphs start with one of those characters? -/
def startsWithAny (chars : List Char) : List Glyph → Bool
  | [] => false
  | glyph :: _ => chars.contains glyph.char

/-- Does a line start here with that character three times, as a word? -/
def isRule (c : Char) : List Glyph → Bool
  | x :: y :: z :: rest => x.column == 0 && x.is c && y.is c && z.is c && endsWord rest
  | _ => false

/-- Does a document begin or end here? -/
def atDocumentMark (glyphs : List Glyph) : Bool := isRule '-' glyphs || isRule '.' glyphs

/-- The glyphs from the next break on. -/
def skipLine (glyphs : List Glyph) : List Glyph :=
  glyphs.dropWhile fun glyph => !isBreak glyph.char

/-- The glyphs after blanks. -/
def skipBlanks (glyphs : List Glyph) : List Glyph :=
  glyphs.dropWhile fun glyph => isBlank glyph.char

/-- The glyphs after a comment, if there is one. -/
def skipComment (glyphs : List Glyph) : List Glyph :=
  if startsWith '#' glyphs then skipLine glyphs else glyphs

/-- The glyphs after the break that must end the line here, blanks and a comment
    aside. -/
def afterLine? (glyphs : List Glyph) : Option (List Glyph) :=
  match skipComment (skipBlanks glyphs) with
  | [] => some []
  | glyph :: rest => if isBreak glyph.char then some rest else none

/-- The characters of glyphs. -/
def chars (glyphs : List Glyph) : List Char := glyphs.map Glyph.char

end Glyph

end ExpressLinks.Yaml
