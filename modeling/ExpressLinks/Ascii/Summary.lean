import ExpressLinks.Ascii

/-!
# ASCII findings on the console

For each file with findings its characters and their places, then the counters.
-/

namespace ExpressLinks.Ascii

/-- The line of a character. -/
def CharacterSummary.line (summary : CharacterSummary) : String :=
  s!"  '{summary.character}' {summary.codePoint} [{summary.utf8}] x{summary.occurrenceCount}"
    ++ s!"  Replacement: ISO 10303-11: {summary.replacement}"

/-- The lines of a file. -/
def FileViolations.lines (file : FileViolations) : List String :=
  s!"{file.file} ({file.count} violations)"
    :: file.characters.map CharacterSummary.line
    ++ file.toDiagnostics.filterMap fun diagnostic =>
        diagnostic.location.map fun location => "    at " ++ location.describe

/-- The line of the counters. -/
def Report.counterLine (report : Report) : String :=
  s!"Scanned {report.filesScanned} files: {report.files.length} with non-ASCII characters, "
    ++ s!"{report.totalViolations} violations"

/-- The findings and counters; every line ends in a line feed. -/
def Report.toSummary (report : Report) : String :=
  String.join
    ((report.files.flatMap FileViolations.lines ++ ["", report.counterLine]).map (· ++ "\n"))

end ExpressLinks.Ascii
