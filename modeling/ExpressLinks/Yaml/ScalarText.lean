import ExpressLinks.Text.Digits
import ExpressLinks.Yaml.Glyph

/-!
# The text of scalars

Scalars are plain, quoted or blocks. In the first two a run of blanks stands
for itself, and a run with breaks is folded: one line feed is a space, more are
one fewer. Blocks keep their lines apart from the indentation; a folded block
joins lines that start with no blank. What is read is the text and what follows
it.
-/

namespace ExpressLinks.Yaml

open Glyph

/-- A run of blanks and breaks inside a scalar: the blanks, as long as no break
    has come; then the first break and the others. -/
structure Gap where
  blanks : List Char := []
  broken : Bool := false
  firstBreak : List Char := []
  moreBreaks : List Char := []
  deriving Repr

namespace Gap

/-- One more blank, which counts only before the first break. -/
def addBlank (gap : Gap) (c : Char) : Gap :=
  if gap.broken then gap else { gap with blanks := gap.blanks ++ [c] }

/-- One more break. -/
def addBreak (gap : Gap) (c : Char) : Gap :=
  if gap.broken then { gap with moreBreaks := gap.moreBreaks ++ [c] }
  else { gap with broken := true, firstBreak := [c] }

/-- Has anything been added? -/
def isOpen (gap : Gap) : Bool := gap.broken || gap.blanks != []

/-- What the run stands for. -/
def text (gap : Gap) : List Char :=
  if !gap.broken then gap.blanks
  else if gap.firstBreak = ['\n'] then
    if gap.moreBreaks = [] then [' '] else gap.moreBreaks
  else gap.firstBreak ++ gap.moreBreaks

end Gap

/-- The character of an escape without digits. -/
def simpleEscape? : Char → Option Char
  | '0' => some '\x00'
  | 'a' => some '\x07'
  | 'b' => some '\x08'
  | 't' => some '\t'
  | '\t' => some '\t'
  | 'n' => some '\n'
  | 'v' => some '\x0b'
  | 'f' => some '\x0c'
  | 'r' => some '\r'
  | 'e' => some '\x1b'
  | ' ' => some ' '
  | '"' => some '"'
  | '/' => some '/'
  | '\\' => some '\\'
  | 'N' => some '\u0085'
  | '_' => some '\u00a0'
  | 'L' => some '\u2028'
  | 'P' => some '\u2029'
  | _ => none

/-- The character with the code point of these hexadecimal digits. -/
def coded? (digits : List Glyph) : Option Char := do
  let value ← Text.readHex? (chars digits)
  if (0xD800 ≤ value ∧ value ≤ 0xDFFF) ∨ 0x10FFFF < value then none else some (Char.ofNat value)

/-- A scalar's text with something in front. -/
def prepend (text : List Char) : Option (List Char × List Glyph) → Option (List Char × List Glyph)
  | none => none
  | some (more, rest) => some (text ++ more, rest)

/-- Reads to the closing single quote. Two quotes are one. -/
def singleQuotedText? (gap : Gap) : List Glyph → Option (List Char × List Glyph)
  | [] => none
  | glyph :: rest =>
      if isBlank glyph.char then singleQuotedText? (gap.addBlank glyph.char) rest
      else if isBreak glyph.char then singleQuotedText? (gap.addBreak glyph.char) rest
      else if atDocumentMark (glyph :: rest) then none
      else if glyph.is '\'' then
        match rest with
        | [] => some (gap.text, [])
        | next :: after =>
            if next.is '\'' then prepend (gap.text ++ ['\'']) (singleQuotedText? {} after)
            else some (gap.text, next :: after)
      else prepend (gap.text ++ [glyph.char]) (singleQuotedText? {} rest)

/-- Reads to the closing double quote. A break after a backslash is nothing. -/
def doubleQuotedText? (gap : Gap) : List Glyph → Option (List Char × List Glyph)
  | [] => none
  | glyph :: rest =>
      if isBlank glyph.char then doubleQuotedText? (gap.addBlank glyph.char) rest
      else if isBreak glyph.char then doubleQuotedText? (gap.addBreak glyph.char) rest
      else if atDocumentMark (glyph :: rest) then none
      else if glyph.is '"' then some (gap.text, rest)
      else if glyph.is '\\' then
        match rest with
        | [] => none
        | escape :: rest =>
            if isBreak escape.char then
              prepend gap.text (doubleQuotedText? { broken := true } rest)
            else if escape.is 'x' then
              match rest with
              | a :: b :: rest =>
                  match coded? [a, b] with
                  | none => none
                  | some c => prepend (gap.text ++ [c]) (doubleQuotedText? {} rest)
              | _ => none
            else if escape.is 'u' then
              match rest with
              | a :: b :: c :: d :: rest =>
                  match coded? [a, b, c, d] with
                  | none => none
                  | some char => prepend (gap.text ++ [char]) (doubleQuotedText? {} rest)
              | _ => none
            else if escape.is 'U' then
              match rest with
              | a :: b :: c :: d :: e :: f :: g :: h :: rest =>
                  match coded? [a, b, c, d, e, f, g, h] with
                  | none => none
                  | some char => prepend (gap.text ++ [char]) (doubleQuotedText? {} rest)
              | _ => none
            else
              match simpleEscape? escape.char with
              | none => none
              | some c => prepend (gap.text ++ [c]) (doubleQuotedText? {} rest)
      else prepend (gap.text ++ [glyph.char]) (doubleQuotedText? {} rest)

/-- Does plain text end before these glyphs? A colon ends it at the end of a
    word, and inside brackets a bracket or comma does. -/
def endsPlain (inFlow : Bool) : List Glyph → Bool
  | [] => true
  | glyph :: rest =>
      (glyph.is ':' && endsWord rest)
        || (inFlow && [',', '[', ']', '\x7b', '\x7d'].contains glyph.char)

/-- Is there a colon that plain text inside brackets may not hold? -/
def hasBadColon (inFlow : Bool) : List Glyph → Bool
  | [] => false
  | glyph :: rest =>
      inFlow && glyph.is ':' && startsWithAny [',', '?', '[', ']', '\x7b', '\x7d'] rest

/-- Plain text that has been read: the text, whether a break followed it, and
    the glyphs after blanks and breaks. -/
structure PlainText where
  text : List Char
  broken : Bool
  rest : List Glyph
  deriving Repr

/-- Reads plain text. Outside brackets it goes on only at or right of the
    column `least`, and a tab left of that column is refused. -/
def plainText? (inFlow : Bool) (least : Nat) (gap : Gap) : List Glyph → Option PlainText
  | [] => some ⟨[], gap.broken, []⟩
  | glyph :: rest =>
      if isBlank glyph.char then
        if gap.broken && glyph.column < least && glyph.is '\t' then none
        else plainText? inFlow least (gap.addBlank glyph.char) rest
      else if isBreak glyph.char then
        plainText? inFlow least (gap.addBreak glyph.char) rest
      else if gap.isOpen && ((!inFlow && glyph.column < least) || glyph.is '#') then
        some ⟨[], gap.broken, glyph :: rest⟩
      else if atDocumentMark (glyph :: rest) then some ⟨[], gap.broken, glyph :: rest⟩
      else if hasBadColon inFlow (glyph :: rest) then none
      else if endsPlain inFlow (glyph :: rest) then some ⟨[], gap.broken, glyph :: rest⟩
      else
        match plainText? inFlow least {} rest with
        | none => none
        | some plain => some { plain with text := gap.text ++ glyph.char :: plain.text }

/-- What becomes of the breaks at the end of a block: all are dropped, the first
    is kept, or all are. -/
inductive Chomping where
  | strip
  | clip
  | keep
  deriving DecidableEq, Repr

/-- The head of a block: its chomping, and by how many columns it is indented if
    it says so. -/
structure BlockHead where
  chomping : Chomping := .clip
  indentation : Option Nat := none
  deriving DecidableEq, Repr

/-- The chomping that a sign asks for. -/
def chomping? (c : Char) : Option Chomping :=
  if c = '+' then some .keep else if c = '-' then some .strip else none

/-- Reads the head of a block: a sign and a digit, in either order and both
    optional. The digit may not be zero. -/
def blockHead? : List Glyph → Option (BlockHead × List Glyph)
  | [] => some ({}, [])
  | first :: rest =>
      match chomping? first.char, Text.decimalValue? first.char, rest with
      | none, none, rest => some ({}, first :: rest)
      | _, some 0, _ => none
      | some chomping, _, [] => some ({ chomping }, [])
      | none, some digit, [] => some ({ indentation := some digit }, [])
      | some chomping, _, second :: rest =>
          match Text.decimalValue? second.char with
          | none => some ({ chomping }, second :: rest)
          | some 0 => none
          | some digit => some ({ chomping, indentation := some digit }, rest)
      | none, some digit, second :: rest =>
          match chomping? second.char with
          | none => some ({ indentation := some digit }, second :: rest)
          | some chomping => some ({ chomping, indentation := some digit }, rest)

/-- The column of a block's text when its head does not say it: that of the
    first line with text, or of a blank line before it that reaches further.
    No tab may stand before that text. -/
def blockColumn? (widest : Nat) : List Glyph → Option Nat
  | [] => some widest
  | glyph :: rest =>
      if glyph.is ' ' then blockColumn? widest rest
      else if glyph.is '\t' then none
      else if isBreak glyph.char then blockColumn? (max widest glyph.column) rest
      else some (max widest glyph.column)

/-- Where the reading of a block stands: inside a line, or before one. Before
    one, `ended` is the break of the line before and `breaks` are those of
    empty lines since; `fromBlank` tells whether the line before started with a
    blank. -/
structure BlockState where
  inLine : Bool := false
  ended : List Char := []
  breaks : List Char := []
  fromBlank : Bool := false
  deriving Repr

/-- What the breaks between two lines of a block stand for. -/
def BlockState.joint (state : BlockState) (folded startsBlank : Bool) : List Char :=
  if folded && state.ended == ['\n'] && !state.fromBlank && !startsBlank then
    if state.breaks = [] then [' '] else state.breaks
  else state.ended ++ state.breaks

/-- What the breaks at the end of a block stand for. -/
def BlockState.tail (state : BlockState) : Chomping → List Char
  | .strip => []
  | .clip => state.ended
  | .keep => state.ended ++ state.breaks

/-- Reads the lines of a block whose text starts at `column`. -/
def blockText? (folded : Bool) (chomping : Chomping) (column : Nat) (state : BlockState) :
    List Glyph → Option (List Char × List Glyph)
  | [] => some (state.tail chomping, [])
  | glyph :: rest =>
      if state.inLine then
        if isBreak glyph.char then
          blockText? folded chomping column
            { state with inLine := false, ended := [glyph.char], breaks := [] } rest
        else prepend [glyph.char] (blockText? folded chomping column state rest)
      else if isBreak glyph.char then
        blockText? folded chomping column
          { state with breaks := state.breaks ++ [glyph.char] } rest
      else if glyph.column < column then
        if glyph.is ' ' then blockText? folded chomping column state rest
        else if glyph.is '\t' then none
        else some (state.tail chomping, glyph :: rest)
      else
        let startsBlank := isBlank glyph.char
        prepend (state.joint folded startsBlank ++ [glyph.char])
          (blockText? folded chomping column { inLine := true, fromBlank := startsBlank } rest)

/-- Reads a block after its indicator, inside a collection at column `outer`. -/
def block? (folded : Bool) (outer : Option Nat) (glyphs : List Glyph) :
    Option (List Char × List Glyph) := do
  let (head, rest) ← blockHead? glyphs
  let rest ← afterLine? rest
  let least := match outer with
    | none => 1
    | some outer => outer + 1
  let column ← match head.indentation with
    | some columns => some (outer.getD 0 + columns)
    | none => (blockColumn? 0 rest).map (max least)
  blockText? folded head.chomping column {} rest

end ExpressLinks.Yaml
