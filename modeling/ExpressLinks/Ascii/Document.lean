import ExpressLinks.Ascii
import ExpressLinks.Json.Decode

/-!
# Findings of the ASCII check in documents

Characters are written as strings of one character. What a document says about
a character is taken as it is written.
-/

namespace ExpressLinks.Ascii

/-- A character in a document. -/
def charToJson (c : Char) : Json := .text (String.ofList [c])

namespace Violation

/-- A violation in a document. -/
def toJson (violation : Violation) : Json :=
  .ofMembers
    [("line", .nat violation.line),
     ("column", .nat violation.column),
     ("character", charToJson violation.character)]

/-- Reads a violation. -/
def ofJson? (json : Json) : Option Violation := do
  let fields ← Json.fields? ["line", "column", "character"] json
  let line ← fields.required "line" Json.asCounter?
  let column ← fields.required "column" Json.asCounter?
  let character ← fields.required "character" Json.asChar?
  some { line, column, character }

end Violation

namespace CharacterSummary

/-- A summary in a document. -/
def toJson (summary : CharacterSummary) : Json :=
  .ofMembers
    [("character", charToJson summary.character),
     ("code_point", .text summary.codePoint),
     ("utf8", .text summary.utf8),
     ("replacement", .text summary.replacement),
     ("occurrence_count", .nat summary.occurrenceCount)]

/-- Reads a summary. -/
def ofJson? (json : Json) : Option CharacterSummary := do
  let fields ←
    Json.fields? ["character", "code_point", "utf8", "replacement", "occurrence_count"] json
  let character ← fields.required "character" Json.asChar?
  let codePoint ← fields.required "code_point" Json.asText?
  let utf8 ← fields.required "utf8" Json.asText?
  let replacement ← fields.required "replacement" Json.asText?
  let occurrenceCount ← fields.required "occurrence_count" Json.asCounter?
  some { character, codePoint, utf8, replacement, occurrenceCount }

end CharacterSummary

namespace FileViolations

/-- The findings of a file in a document. -/
def toJson (file : FileViolations) : Json :=
  .ofMembers
    [("file", .text file.file),
     ("occurrences", Json.ofList Violation.toJson file.occurrences),
     ("characters", Json.ofList CharacterSummary.toJson file.characters)]

/-- Reads the findings of a file. -/
def ofJson? (json : Json) : Option FileViolations := do
  let fields ← Json.fields? ["file", "occurrences", "characters"] json
  let file ← fields.required "file" Json.asText?
  let occurrences ← fields.required "occurrences" (Json.asList? Violation.ofJson?)
  let characters ← fields.required "characters" (Json.asList? CharacterSummary.ofJson?)
  some { file, occurrences, characters }

end FileViolations

namespace Report

/-- All findings in a document. -/
def toJson (report : Report) : Json :=
  .ofMembers
    [("files_scanned", .nat report.filesScanned),
     ("files", Json.ofList FileViolations.toJson report.files)]

/-- Reads all findings. -/
def ofJson? (json : Json) : Option Report := do
  let fields ← Json.fields? ["files_scanned", "files"] json
  let filesScanned ← fields.required "files_scanned" Json.asCounter?
  let files ← fields.required "files" (Json.asList? FileViolations.ofJson?)
  some { filesScanned, files }

end Report

end ExpressLinks.Ascii
