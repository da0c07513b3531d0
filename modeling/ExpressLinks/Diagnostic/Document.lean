import ExpressLinks.Diagnostic
import ExpressLinks.Json.Decode
import ExpressLinks.Json.Print

/-!
# Diagnostics in documents

Codes and severities are written as words. A location always shows its line and
column, null when unknown; a diagnostic always shows its location, and its
subject only when there is one.
-/

namespace ExpressLinks

namespace Severity

/-- A severity in a document. -/
def toJson (severity : Severity) : Json := .text severity.name

/-- Reads a severity. -/
def ofJson? : Json → Option Severity := Json.asOneOf? all name

end Severity

namespace DiagnosticCode

/-- A code in a document. -/
def toJson (code : DiagnosticCode) : Json := .text code.name

/-- Reads a code. -/
def ofJson? : Json → Option DiagnosticCode := Json.asOneOf? all name

end DiagnosticCode

namespace Location

/-- A location in a document. -/
def toJson (location : Location) : Json :=
  .ofMembers
    [("file", .text location.file),
     ("line", Json.ofOption .nat location.line),
     ("column", Json.ofOption .nat location.column)]

/-- Reads a location. -/
def ofJson? (json : Json) : Option Location := do
  let fields ← Json.fields? ["file", "line", "column"] json
  let file ← fields.required "file" Json.asText?
  let line ← fields.optionalInPlace "line" Json.asCounter?
  let column ← fields.optionalInPlace "column" Json.asCounter?
  some { file, line, column }

end Location

namespace Diagnostic

/-- A diagnostic in a document. -/
def toJson (diagnostic : Diagnostic) : Json :=
  .ofMembers
    ([("code", diagnostic.code.toJson),
      ("severity", diagnostic.severity.toJson),
      ("message", .text diagnostic.message),
      ("location", Json.ofOption Location.toJson diagnostic.location)]
      ++ Json.memberIfSome "subject" .text diagnostic.subject)

/-- Reads a diagnostic. -/
def ofJson? (json : Json) : Option Diagnostic := do
  let fields ← Json.fields? ["code", "severity", "message", "location", "subject"] json
  let code ← fields.required "code" DiagnosticCode.ofJson?
  let severity ← fields.required "severity" Severity.ofJson?
  let message ← fields.required "message" Json.asText?
  let location ← fields.optionalInPlace "location" Location.ofJson?
  let subject ← fields.optionalInPlace "subject" Json.asText?
  some { code, severity, message, location, subject }

end Diagnostic

namespace SeverityOverrides

/-- Reads severities by name; of two for one name the later counts. -/
def entriesOfJson? : Json → Option SeverityOverrides
  | .object members => do
      let named ← Json.namedMembers? members
      named.foldlM
        (fun overrides (name, value) => do
          let severity ← Severity.ofJson? value
          some (overrides.set name severity))
        {}
  | _ => none

/-- Overrides in a document. -/
def toJson (overrides : SeverityOverrides) : Json :=
  .ofMembers
    [("overrides",
      .ofMembers (overrides.entries.map fun entry => (entry.1, entry.2.toJson)))]

/-- Reads overrides. -/
def ofJson? (json : Json) : Option SeverityOverrides := do
  let fields ← Json.fields? ["overrides"] json
  fields.withDefault "overrides" entriesOfJson? {}

end SeverityOverrides

end ExpressLinks
