import ExpressLinks.Report

/-!
# Reports on the console

The counters, then every link that did not resolve, then the files that were
skipped, between two rules.
-/

namespace ExpressLinks.Report

/-- The rule above and below the summary. -/
def rule : String := String.ofList (List.replicate 60 '=')

/-- The lines of the counters. -/
def counterLines (summary : ReportSummary) : List String :=
  s!"Files scanned:  {summary.totalFiles}"
    :: (if 0 < summary.filesSkipped then [s!"Files skipped:  {summary.filesSkipped}"] else [])
    ++ [s!"Links checked:  {summary.totalLinksChecked}",
        s!"Unresolved:     {summary.unresolved}"]

/-- The lines of the verdict. -/
def verdictLines (report : Report) : List String :=
  if report.isClean then ["✓ All links resolved successfully!"]
  else
    s!"✗ Found {report.unresolved.length} unresolved links:"
      :: report.unresolved.map fun link => "  " ++ link.describe

/-- The lines of the summary. -/
def summaryLines (report : Report) : List String :=
  ["", rule, "Express Link Validation Report", rule, ""] ++ counterLines report.summary
    ++ [""] ++ report.verdictLines
    ++ (report.warnings.map fun warning => "  ⚠ Warning: " ++ warning.message)
    ++ ["", rule]

/-- The summary; every line ends in a line feed. -/
def toSummary (report : Report) : String :=
  String.join (report.summaryLines.map (· ++ "\n"))

end ExpressLinks.Report
