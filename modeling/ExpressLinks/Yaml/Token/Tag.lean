import ExpressLinks.Text.Digits
import ExpressLinks.Text.Utf8
import ExpressLinks.Yaml.Glyph
import ExpressLinks.Yaml.Token

/-!
# Names, tags and directives

The tokens that are words rather than structure: references and anchors, tags,
and the directives for version and tag handles.
-/

namespace ExpressLinks.Yaml

open Glyph

/-- The word characters at the start, and what follows them. -/
def splitWord (glyphs : List Glyph) : List Char × List Glyph :=
  (chars (glyphs.takeWhile fun glyph => isWordChar glyph.char),
   glyphs.dropWhile fun glyph => isWordChar glyph.char)

/-- Reads the name of an anchor: one or more word characters, with the end of a
    word or an indicator after them. -/
def anchorName? (glyphs : List Glyph) : Option (String × List Glyph) :=
  let (name, rest) := splitWord glyphs
  if name = [] then none
  else if endsWord rest || startsWithAny ['?', ':', ',', ']', '\x7d', '%', '@', '\x60'] rest then
    some (String.ofList name, rest)
  else none

/-- Characters of a tag beside those of words and the percent sign. Inside angle
    brackets, comma and square brackets count too. -/
def isTagChar (verbatim : Bool) (c : Char) : Bool :=
  isWordChar c
    || [';', '/', '?', ':', '@', '&', '=', '+', '$', '.', '!', '~', '*', '\'', '(', ')'].contains c
    || (verbatim && [',', '[', ']'].contains c)

/-- How many octets a character has that starts with this one. -/
def octetCount? (first : Nat) : Option Nat :=
  if first < 0x80 then some 1
  else if 0xC0 ≤ first ∧ first < 0xE0 then some 2
  else if 0xE0 ≤ first ∧ first < 0xF0 then some 3
  else if 0xF0 ≤ first ∧ first < 0xF8 then some 4
  else none

/-- Reads an octet: a percent sign and two hexadecimal digits. -/
def escapedOctet? : List Glyph → Option (Nat × List Glyph)
  | percent :: high :: low :: rest =>
      if percent.is '%' then (Text.readHex? (chars [high, low])).map (·, rest) else none
  | _ => none

/-- Reads that many octets. -/
def escapedOctets? : Nat → List Glyph → Option (List UInt8 × List Glyph)
  | 0, rest => some ([], rest)
  | count + 1, glyphs => do
      let (octet, rest) ← escapedOctet? glyphs
      let (octets, rest) ← escapedOctets? count rest
      some (UInt8.ofNat octet :: octets, rest)

/-- Reads a character written in percent signs. -/
def escapedChar? (glyphs : List Glyph) : Option (List Char × List Glyph) := do
  let (first, _) ← escapedOctet? glyphs
  let count ← octetCount? first
  let (octets, rest) ← escapedOctets? count glyphs
  let text ← Text.Utf8.decode octets
  some (text, rest)

/-- Reads tag characters, `fuel` of them at most. -/
def tagChars? (verbatim : Bool) : Nat → List Glyph → Option (List Char × List Glyph)
  | 0, rest => some ([], rest)
  | _ + 1, [] => some ([], [])
  | fuel + 1, glyph :: rest =>
      if glyph.is '%' then do
        let (c, rest) ← escapedChar? (glyph :: rest)
        let (more, rest) ← tagChars? verbatim fuel rest
        some (c ++ more, rest)
      else if isTagChar verbatim glyph.char then do
        let (more, rest) ← tagChars? verbatim fuel rest
        some (glyph.char :: more, rest)
      else some ([], glyph :: rest)

/-- Reads all tag characters that come next. -/
def tagText? (verbatim : Bool) (glyphs : List Glyph) : Option (List Char × List Glyph) :=
  tagChars? verbatim glyphs.length glyphs

/-- Reads tag characters, one at least. -/
def someTagText? (verbatim : Bool) (glyphs : List Glyph) : Option (List Char × List Glyph) :=
  match tagText? verbatim glyphs with
  | some ([], _) => none
  | read => read

/-- Reads an exclamation mark, word characters and another mark if there is one.
    The result tells whether the second mark was there. -/
def tagHandle? : List Glyph → Option (List Char × Bool × List Glyph)
  | [] => none
  | mark :: rest =>
      if mark.is '!' then
        let (word, rest) := splitWord rest
        match rest with
        | [] => some ('!' :: word, false, [])
        | next :: after =>
            if next.is '!' then some ('!' :: word ++ ['!'], true, after)
            else some ('!' :: word, false, next :: after)
      else none

/-- Reads a tag without the check of what follows. -/
def tagName? : List Glyph → Option (TagName × List Glyph)
  | mark :: next :: rest =>
      if next.is '<' then do
        let (suffix, rest) ← someTagText? true rest
        match rest with
        | close :: rest =>
            if close.is '>' then some (⟨"", String.ofList suffix⟩, rest) else none
        | [] => none
      else do
        let (handle, closed, rest) ← tagHandle? (mark :: next :: rest)
        if closed then
          let (suffix, rest) ← someTagText? false rest
          some (⟨String.ofList handle, String.ofList suffix⟩, rest)
        else
          let (more, rest) ← tagText? false rest
          let suffix := handle.drop 1 ++ more
          if suffix = [] then some (⟨"", "!"⟩, rest)
          else some (⟨"!", String.ofList suffix⟩, rest)
  | _ => some (⟨"", "!"⟩, [])

/-- Reads a tag, which a word end must follow, or a comma inside brackets. -/
def tag? (inFlow : Bool) (glyphs : List Glyph) : Option (TagName × List Glyph) := do
  let (name, rest) ← tagName? glyphs
  if endsWord rest || (inFlow && startsWith ',' rest) then some (name, rest) else none

/-- Reads a number of one to nine digits. -/
def versionNumber? (glyphs : List Glyph) : Option (Nat × List Glyph) := do
  let digits := chars (glyphs.takeWhile fun glyph => Text.isDigit glyph.char)
  let rest := glyphs.dropWhile fun glyph => Text.isDigit glyph.char
  let value ← Text.readDecimal? digits
  if digits.length ≤ 9 then some (value, rest) else none

/-- Reads the version after its directive's name. -/
def versionDirective? (glyphs : List Glyph) : Option (Token × List Glyph) := do
  let (major, rest) ← versionNumber? (skipBlanks glyphs)
  match rest with
  | point :: rest =>
      if point.is '.' then
        let (minor, rest) ← versionNumber? rest
        some (.versionDirective major minor, rest)
      else none
  | [] => none

/-- Reads handle and start of a tag after their directive's name. The handle is
    one mark, or a word between two. -/
def tagDirective? (glyphs : List Glyph) : Option (Token × List Glyph) := do
  let (handle, closed, rest) ← tagHandle? (skipBlanks glyphs)
  if !closed && handle != ['!'] then none
  else if !startsWithAny [' ', '\t'] rest then none
  else
    let (start, rest) ← someTagText? true (skipBlanks rest)
    if endsWord rest then
      some (.tagDirective (String.ofList handle) (String.ofList start), rest)
    else none

/-- Reads a directive after its percent sign, to the end of its line. -/
def directive? (glyphs : List Glyph) : Option (Token × List Glyph) := do
  let (name, rest) := splitWord glyphs
  if !endsWord rest then none
  else
    let (token, rest) ←
      if name = "YAML".toList then versionDirective? rest
      else if name = "TAG".toList then tagDirective? rest
      else none
    let rest ← afterLine? rest
    some (token, rest)

end ExpressLinks.Yaml
