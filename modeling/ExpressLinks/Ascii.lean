import ExpressLinks.Diagnostic
import ExpressLinks.FirstUse
import ExpressLinks.Text.Digits
import ExpressLinks.Text.Line
import ExpressLinks.Text.Utf8

/-!
# The ASCII check

EXPRESS files must be plain ASCII. The check reports where every other
character stands, and for each distinct one its code point, its UTF-8 octets
and the encoded string literal that may stand for it: the eight hexadecimal
digits of the code point between double quotes.
-/

namespace ExpressLinks.Ascii

/-- A character that is not ASCII and its place; both numbers count from one,
    the column counts characters. -/
structure Violation where
  line : Nat
  column : Nat
  character : Char
  deriving DecidableEq, Repr

/-- A distinct character that is not ASCII. -/
structure CharacterSummary where
  character : Char
  codePoint : String
  utf8 : String
  replacement : String
  occurrenceCount : Nat
  deriving DecidableEq, Repr

/-- The findings in one file. -/
structure FileViolations where
  file : String
  occurrences : List Violation
  characters : List CharacterSummary
  deriving DecidableEq, Repr

/-- The findings in all checked files, of which only those with findings are
    listed. -/
structure Report where
  filesScanned : Nat := 0
  files : List FileViolations := []
  deriving DecidableEq, Repr

/-- Is the character ASCII? -/
def isAscii (c : Char) : Bool := c.toNat < 0x80

/-- The encoded string literal of a character. -/
def encodedLiteral (c : Char) : String :=
  String.ofList ('"' :: Text.hex 8 c.toNat ++ ['"'])

/-- The code point in the usual notation. -/
def codePoint (c : Char) : String := String.ofList ("U+".toList ++ Text.hex 4 c.toNat)

/-- An octet with two small hexadecimal digits. -/
def octet (b : UInt8) : String :=
  String.ofList ("0x".toList ++ (Text.hexDigits 2 b.toNat).map Char.toLower)

/-- The UTF-8 octets with spaces between them. -/
def octets (c : Char) : String := " ".intercalate ((Text.Utf8.encodeChar c).map octet)

/-- What is reported on a character that occurs `count` times. -/
def summarize (c : Char) (count : Nat) : CharacterSummary where
  character := c
  codePoint := codePoint c
  utf8 := octets c
  replacement := encodedLiteral c
  occurrenceCount := count

/-- The violations of one line. -/
def lineViolations (line : List Char) (number : Nat) : List Violation :=
  line.zipIdx.filterMap fun (c, column) =>
    if isAscii c then none else some ⟨number, column + 1, c⟩

/-- The violations of a text in reading order. -/
def violations (text : List Char) : List Violation :=
  (Text.lines text).zipIdx.flatMap fun (line, index) => lineViolations line (index + 1)

/-- The findings in a text. -/
def checkText (file : String) (text : List Char) : FileViolations :=
  let found := violations text
  let characters := found.map (·.character)
  { file := file
    occurrences := found
    characters := (firstUses id characters).map fun c => summarize c (characters.count c) }

namespace FileViolations

/-- The number of places. -/
def count (file : FileViolations) : Nat := file.occurrences.length

/-- Is the file plain ASCII? -/
def isClean (file : FileViolations) : Bool := file.occurrences.isEmpty

/-- One diagnostic for each place. -/
def toDiagnostics (file : FileViolations) : List Diagnostic :=
  file.occurrences.map fun violation =>
    let c := violation.character
    { code := .asciiNonAsciiCharacter
      severity := DiagnosticCode.asciiNonAsciiCharacter.defaultSeverity
      message :=
        s!"Non-ASCII character '{c}' ({codePoint c}, {octets c}), use {encodedLiteral c}"
      location := some
        { file := file.file, line := some violation.line, column := some violation.column } }

end FileViolations

namespace Report

/-- Counts a checked file, and lists it if there are findings. -/
def add (report : Report) (file : FileViolations) : Report where
  filesScanned := report.filesScanned + 1
  files := if file.isClean then report.files else report.files ++ [file]

/-- The number of places in all files. -/
def totalViolations (report : Report) : Nat :=
  (report.files.map FileViolations.count).foldr (· + ·) 0

/-- Are all checked files plain ASCII? -/
def isClean (report : Report) : Bool := report.files.isEmpty

end Report

end ExpressLinks.Ascii
