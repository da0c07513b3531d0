import ExpressLinks.FirstUse
import ExpressLinks.Text.Line

/-!
# Reference markers

Documents refer to schemas by markers: two less-than signs, the word `express`,
a colon, a path, optionally a comma and a text to render, and two greater-than
signs. A path is not empty and holds neither commas nor greater-than signs, a
render text is not empty and holds no greater-than sign; line feeds may stand in
both. Markers are read from left to right and do not overlap.

`Marker.occurrences` finds all markers of a text, `Reference.ofText` reports
each path once, where it is used first.
-/

namespace ExpressLinks

/-- What a marker says. -/
structure Marker where
  path : String
  render : Option String := none
  deriving DecidableEq, Repr

/-- A marker and the line on which it starts. -/
structure Occurrence where
  marker : Marker
  line : Nat
  deriving DecidableEq, Repr

/-- A path used in a file, with the render text of its first use. -/
structure Reference where
  rawPath : String
  renderText : Option String
  sourceFile : String
  lineNumber : Nat
  deriving DecidableEq, Repr

namespace Marker

/-- The text that opens a marker. -/
def opening : List Char := "<<express:".toList

/-- The text that closes a marker. -/
def closing : List Char := ">>".toList

/-- May the character stand in a path? -/
def isPathChar (c : Char) : Bool := c != ',' && c != '>'

/-- May the character stand in a render text? -/
def isRenderChar (c : Char) : Bool := c != '>'

/-- The marker as it is written in a document. -/
def write (marker : Marker) : List Char :=
  match marker.render with
  | none => opening ++ marker.path.toList ++ closing
  | some render => opening ++ marker.path.toList ++ [','] ++ render.toList ++ closing

/-- Reads the marker that starts the text, and returns the text after it. Path
    and render text extend as far as their characters do. -/
def read? (text : List Char) : Option (Marker × List Char) :=
  match opening.isPrefixOf? text with
  | none => none
  | some body =>
      let path := body.takeWhile isPathChar
      if path = [] then none
      else
        match body.dropWhile isPathChar with
        | '>' :: '>' :: rest => some (⟨String.ofList path, none⟩, rest)
        | ',' :: tail =>
            let render := tail.takeWhile isRenderChar
            if render = [] then none
            else
              match tail.dropWhile isRenderChar with
              | '>' :: '>' :: rest =>
                  some (⟨String.ofList path, some (String.ofList render)⟩, rest)
              | _ => none
        | _ => none

/-- The line of the character after `c`, when `c` stands on `line`. -/
def lineAfter (line : Nat) (c : Char) : Nat := if c = '\n' then line + 1 else line

/-- The markers of a text that starts on `line`, leaving out its first `skip`
    characters, which belong to a marker already read. -/
def occurrencesFrom (line skip : Nat) : List Char → List Occurrence
  | [] => []
  | c :: cs =>
      match skip with
      | skip + 1 => occurrencesFrom (lineAfter line c) skip cs
      | 0 =>
          match read? (c :: cs) with
          | none => occurrencesFrom (lineAfter line c) 0 cs
          | some (marker, _) =>
              ⟨marker, line⟩ :: occurrencesFrom (lineAfter line c) (marker.write.length - 1) cs

/-- The markers of a text in order. -/
def occurrences (text : List Char) : List Occurrence := occurrencesFrom 1 0 text

/-- The paths of a text, each once, in the order of their first uses. -/
def paths (text : List Char) : List String :=
  firstUses id ((occurrences text).map (·.marker.path))

/-- The first line on which, taken by itself, a marker for the path stands. -/
def findLine? (text : List Char) (path : String) : Option Nat :=
  ((Text.lines text).findIdx? fun line =>
    (occurrences line).any fun occurrence => occurrence.marker.path == path).map (· + 1)

end Marker

namespace Reference

/-- The references of a text. A reference stands on the first line that holds
    a whole marker for its path; when each of its markers is broken across lines,
    it stands where the first of them starts. -/
def ofText (text : List Char) (file : String) : List Reference :=
  (firstUses (·.marker.path) (Marker.occurrences text)).map fun occurrence =>
    { rawPath := occurrence.marker.path
      renderText := occurrence.marker.render
      sourceFile := file
      lineNumber := (Marker.findLine? text occurrence.marker.path).getD occurrence.line }

/-- The names of the path. -/
def segments (reference : Reference) : List String := Text.splitString '.' reference.rawPath

end Reference

end ExpressLinks
