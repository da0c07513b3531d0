import ExpressLinks.Ascii
import ExpressLinks.Yaml.Print

/-!
# Findings of the ASCII check as YAML

The report in block style, keys in the order of the fields.
-/

namespace ExpressLinks.Ascii

/-- A violation as a mapping. -/
def Violation.toBlock (violation : Violation) : Yaml.Block :=
  .mapping
    [("line", .number violation.line),
     ("column", .number violation.column),
     ("character", .character violation.character)]

/-- A summary as a mapping. -/
def CharacterSummary.toBlock (summary : CharacterSummary) : Yaml.Block :=
  .mapping
    [("character", .character summary.character),
     ("code_point", .text summary.codePoint),
     ("utf8", .text summary.utf8),
     ("replacement", .text summary.replacement),
     ("occurrence_count", .number summary.occurrenceCount)]

/-- The findings of a file as a mapping. -/
def FileViolations.toBlock (file : FileViolations) : Yaml.Block :=
  .mapping
    [("file", .text file.file),
     ("occurrences", .sequence (file.occurrences.map Violation.toBlock)),
     ("characters", .sequence (file.characters.map CharacterSummary.toBlock))]

/-- The whole report in YAML. -/
def Report.toYaml (report : Report) : String :=
  Yaml.printMapping
    [("files_scanned", .number report.filesScanned),
     ("files", .sequence (report.files.map FileViolations.toBlock))]

end ExpressLinks.Ascii
