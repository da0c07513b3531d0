import ExpressLinks.Ascii.Listing
import ExpressLinks.Ascii.Summary
import ExpressLinks.Command.Verdict
import ExpressLinks.Machine

/-!
# Checking files for characters that are not ASCII

A file is checked whatever its name; in a directory, the files with the
extension `exp` are, and in the directories below it only if asked for. A file
that cannot be read is mentioned and counts for nothing.
-/

namespace ExpressLinks.Command

/-- The files to check at a path. -/
def asciiFiles (path : String) (recursive : Bool) : Option Listing → List String
  | none => []
  | some .file => [path]
  | some listing =>
      ((listing.files path).filter fun found =>
        (recursive || found.depth ≤ 1) && FilePath.extension? found.path == some "exp").map
        Found.path

variable {m : Type → Type} [Monad m] [Machine m]

/-- Checks files one after the other and adds to the report. -/
def checkAll (report : Ascii.Report) : List String → m Ascii.Report
  | [] => return report
  | path :: rest => do
      match ← Machine.readText path with
      | .ok text => checkAll (report.add (Ascii.checkText path text)) rest
      | .error error =>
          Machine.warnLine s!"⚠ Could not read {path}: {error.message}"
          checkAll report rest

/-- Checks the files at a path. -/
def runAscii (path : String) (recursive yaml : Bool) : m Ending := do
  let files := asciiFiles path recursive (← Machine.list? path)
  if files.isEmpty then Machine.warnLine s!"No EXPRESS files found in {path}"
  let report ← checkAll {} files
  Machine.tell (if yaml then report.toYaml else report.toSummary)
  return .ok (if report.isClean then .clean else .findings)

end ExpressLinks.Command
