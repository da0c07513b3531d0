import ExpressLinks.Report

/-!
# Reports in Markdown

The counters as a list, the unresolved links as a table with one row each, and
the files that were skipped. In a row only the reason has its bars escaped.
-/

namespace ExpressLinks.Report.Markdown

/-- The sign and the word for a severity. -/
def badge : Severity → String
  | .error => "❌ error"
  | .warn => "⚠️ warn"
  | .info => "ℹ️ info"

/-- Puts a backslash before every bar. -/
def escapeBars (text : String) : String :=
  String.ofList (text.toList.flatMap fun c => if c = '|' then ['\\', '|'] else [c])

/-- The table row of a link. -/
def row (overrides : SeverityOverrides) (link : UnresolvedLink) : String :=
  let sign := badge (link.toDiagnostic overrides).severity
  let reason := escapeBars link.reason
  s!"| {sign} | `{link.file}:{link.line}` | `{link.rawPath}` | {reason} |\n"

/-- The title and the counters. -/
def heading (report : Report) : String :=
  "# Express Link Validation Report\n\n"
    ++ s!"**Version:** {report.version.describe}\n\n"
    ++ s!"**Timestamp:** {report.timestamp}\n\n"
    ++ "## Summary\n\n"
    ++ s!"- Files scanned: {report.summary.totalFiles}\n"
    ++ s!"- Files skipped: {report.summary.filesSkipped}\n"
    ++ s!"- Links checked: {report.summary.totalLinksChecked}\n"
    ++ s!"- Unresolved: {report.summary.unresolved}\n"
    ++ "\n"

/-- The heading of the table of links and its two header lines. -/
def tableHead : String :=
  "## Unresolved links\n\n| Severity | Location | Link | Reason |\n|---|---|---|---|\n"

/-- The table of unresolved links, or a sentence when there is none. -/
def links (report : Report) (overrides : SeverityOverrides) : String :=
  if report.isClean then "✅ **All links resolved successfully!**\n"
  else tableHead ++ String.join (report.unresolved.map (row overrides)) ++ "\n"

/-- The files that could not be read, if any. -/
def skipped (report : Report) : String :=
  if report.warnings.isEmpty then ""
  else
    "## Skipped files\n\n"
      ++ String.join (report.warnings.map fun warning => s!"- {warning.message}\n")

end Markdown

/-- The report in Markdown, with severities as configured. -/
def toMarkdown (report : Report) (overrides : SeverityOverrides) : String :=
  Markdown.heading report ++ Markdown.links report overrides ++ Markdown.skipped report

end ExpressLinks.Report
