import ExpressLinks.Diagnostic

/-!
# Reports

A report counts the files and links of a run, lists the links that did not
resolve and the files that could not be read, each list in the order of the
run. It is built by recording one event after another on a new report.
-/

namespace ExpressLinks

/-- The version of the report format. -/
structure ReportVersion where
  major : Nat
  minor : Nat
  deriving DecidableEq, Repr

namespace ReportVersion

/-- The version this library writes. -/
def current : ReportVersion := ⟨1, 0⟩

/-- Major and minor version with a point between them. -/
def describe (version : ReportVersion) : String := s!"{version.major}.{version.minor}"

end ReportVersion

/-- The counters of a run. Skipped files count among all files; a link counts
    once for each file that uses it. -/
structure ReportSummary where
  totalFiles : Nat := 0
  filesSkipped : Nat := 0
  totalLinksChecked : Nat := 0
  unresolved : Nat := 0
  deriving DecidableEq, Repr

/-- A link that did not resolve. -/
structure UnresolvedLink where
  file : String
  line : Nat
  rawPath : String
  code : DiagnosticCode
  reason : String
  deriving DecidableEq, Repr

namespace UnresolvedLink

/-- The link on one line: where it stands, how it is written, what is wrong. -/
def describe (link : UnresolvedLink) : String :=
  s!"{link.file}:{link.line} - <<express:{link.rawPath}>> - {link.reason}"

/-- The link as a diagnostic, graver or milder as configured. -/
def toDiagnostic (link : UnresolvedLink) (overrides : SeverityOverrides) : Diagnostic where
  code := link.code
  severity := overrides.severityOf link.code link.code.defaultSeverity
  message := link.reason
  location := some { file := link.file, line := some link.line }
  subject := some link.rawPath

end UnresolvedLink

/-- The findings of a run. -/
structure Report where
  version : ReportVersion
  timestamp : String
  summary : ReportSummary
  unresolved : List UnresolvedLink
  warnings : List Diagnostic
  deriving DecidableEq, Repr

namespace Report

/-- A report on which nothing has been recorded. -/
def new (timestamp : String) : Report := ⟨.current, timestamp, {}, [], []⟩

/-- Counts a file that was read. -/
def recordFile (report : Report) : Report :=
  { report with
    summary := { report.summary with totalFiles := report.summary.totalFiles + 1 } }

/-- Counts a file that could not be read. -/
def recordSkippedFile (report : Report) (warning : Diagnostic) : Report :=
  { report with
    summary :=
      { report.summary with
        totalFiles := report.summary.totalFiles + 1
        filesSkipped := report.summary.filesSkipped + 1 }
    warnings := report.warnings ++ [warning] }

/-- Counts a link that resolved. -/
def recordResolved (report : Report) : Report :=
  { report with
    summary :=
      { report.summary with totalLinksChecked := report.summary.totalLinksChecked + 1 } }

/-- Counts a link that did not resolve. -/
def recordUnresolved (report : Report) (link : UnresolvedLink) : Report :=
  { report with
    summary :=
      { report.summary with
        totalLinksChecked := report.summary.totalLinksChecked + 1
        unresolved := report.summary.unresolved + 1 }
    unresolved := report.unresolved ++ [link] }

/-- Did every link resolve? -/
def isClean (report : Report) : Bool := report.unresolved.isEmpty

/-- The lines of the plain rendering: the number of links, then one line for
    each unresolved link, or one line to say that there is none. -/
def textLines (report : Report) : List String :=
  s!"Validation complete. Checked {report.summary.totalLinksChecked} links."
    :: if report.isClean then ["All links resolved successfully!"]
       else report.unresolved.map UnresolvedLink.describe

/-- The plain rendering; the last line has no line feed. -/
def toText (report : Report) : String := "\n".intercalate report.textLines

end Report

end ExpressLinks
