import ExpressLinks.Diagnostic.Document
import ExpressLinks.Json.Read
import ExpressLinks.Report

/-!
# Report documents

The report as a JSON document for tools, written with one member to a line and
read back whole. Counters have 64 bits and version numbers 32.
-/

namespace ExpressLinks

namespace ReportVersion

/-- A version in a document. -/
def toJson (version : ReportVersion) : Json :=
  .ofMembers [("major", .nat version.major), ("minor", .nat version.minor)]

/-- Reads a version. -/
def ofJson? (json : Json) : Option ReportVersion := do
  let fields ← Json.fields? ["major", "minor"] json
  let major ← fields.required "major" (Json.asNatBelow? UInt32.size)
  let minor ← fields.required "minor" (Json.asNatBelow? UInt32.size)
  some { major, minor }

end ReportVersion

namespace ReportSummary

/-- The counters in a document. -/
def toJson (summary : ReportSummary) : Json :=
  .ofMembers
    [("total_files", .nat summary.totalFiles),
     ("files_skipped", .nat summary.filesSkipped),
     ("total_links_checked", .nat summary.totalLinksChecked),
     ("unresolved", .nat summary.unresolved)]

/-- Reads counters. -/
def ofJson? (json : Json) : Option ReportSummary := do
  let fields ←
    Json.fields? ["total_files", "files_skipped", "total_links_checked", "unresolved"] json
  let totalFiles ← fields.required "total_files" Json.asCounter?
  let filesSkipped ← fields.required "files_skipped" Json.asCounter?
  let totalLinksChecked ← fields.required "total_links_checked" Json.asCounter?
  let unresolved ← fields.required "unresolved" Json.asCounter?
  some { totalFiles, filesSkipped, totalLinksChecked, unresolved }

end ReportSummary

namespace UnresolvedLink

/-- A link in a document. -/
def toJson (link : UnresolvedLink) : Json :=
  .ofMembers
    [("file", .text link.file),
     ("line", .nat link.line),
     ("raw_path", .text link.rawPath),
     ("code", link.code.toJson),
     ("reason", .text link.reason)]

/-- Reads a link. -/
def ofJson? (json : Json) : Option UnresolvedLink := do
  let fields ← Json.fields? ["file", "line", "raw_path", "code", "reason"] json
  let file ← fields.required "file" Json.asText?
  let line ← fields.required "line" Json.asCounter?
  let rawPath ← fields.required "raw_path" Json.asText?
  let code ← fields.required "code" DiagnosticCode.ofJson?
  let reason ← fields.required "reason" Json.asText?
  some { file, line, rawPath, code, reason }

end UnresolvedLink

namespace Report

/-- A report in a document. -/
def toJsonValue (report : Report) : Json :=
  .ofMembers
    [("version", report.version.toJson),
     ("timestamp", .text report.timestamp),
     ("summary", report.summary.toJson),
     ("unresolved", Json.ofList UnresolvedLink.toJson report.unresolved),
     ("warnings", Json.ofList Diagnostic.toJson report.warnings)]

/-- Reads a report. -/
def ofJsonValue? (json : Json) : Option Report := do
  let fields ←
    Json.fields? ["version", "timestamp", "summary", "unresolved", "warnings"] json
  let version ← fields.required "version" ReportVersion.ofJson?
  let timestamp ← fields.required "timestamp" Json.asText?
  let summary ← fields.required "summary" ReportSummary.ofJson?
  let unresolved ← fields.required "unresolved" (Json.asList? UnresolvedLink.ofJson?)
  let warnings ← fields.withDefault "warnings" (Json.asList? Diagnostic.ofJson?) []
  some { version, timestamp, summary, unresolved, warnings }

/-- The text of the report document. -/
def toJson (report : Report) : String := report.toJsonValue.pretty

/-- Reads the text of a report document. -/
def ofJson? (text : String) : Option Report := (Json.read? text.toList).bind ofJsonValue?

end Report

end ExpressLinks
