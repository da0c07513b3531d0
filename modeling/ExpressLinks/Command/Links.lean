import ExpressLinks.Command.Project
import ExpressLinks.Report.Document
import ExpressLinks.Report.Markdown
import ExpressLinks.Report.Summary
import ExpressLinks.Validation

/-!
# Validating the links of a project

The documents below a directory and the files of the manifest are read, their
links are resolved, and what is found goes to the text report, to the other
reports that were asked for, and to the console. The text report is shown on the
console if it cannot be written; any other report that cannot be written is a
failure.
-/

namespace ExpressLinks.Command

/-- What link validation works with. -/
structure LinksTask where
  manifest : String
  documents : String
  output : String
  json : Option String
  markdown : Option String
  jobs : Nat
  verbose : Bool
  deriving DecidableEq, Repr

/-- The documents at and below a path, in the order of a walk. -/
def findDocuments (config : Config) (root : String) : Option Listing → List String
  | none => []
  | some listing => ((listing.files root).map Found.path).filter config.isDocument

variable {m : Type → Type} [Monad m] [Machine m]

/-- Reads files one after the other. -/
def readAll : List String → m (List Validation.Reading)
  | [] => return []
  | path :: rest => do
      let reading ← Machine.readText path
      let others ← readAll rest
      return (path, reading) :: others

/-- Writes the text report, or shows it. -/
def deliverText (report : Report) (path : String) : m Unit := do
  match ← Machine.writeText path report.toText with
  | .ok () => Machine.warnLine s!"Validation results written to {path}"
  | .error error =>
      Machine.warnLine s!"Error writing to output file: {(Failure.report path error).message}"
      Machine.tellLine report.toText

/-- Writes a report if a path is given for it. -/
def deliverTo (path : Option String) (text : String) : m (Except Failure Unit) := do
  match path with
  | none => return .ok ()
  | some path =>
      match ← Machine.writeText path text with
      | .ok () => return .ok ()
      | .error error => return .error (.report path error)

/-- Writes all reports. -/
def deliver (config : Config) (task : LinksTask) (report : Report) : m Ending := do
  deliverText report task.output
  match ← deliverTo task.json report.toJson with
  | .error failure => return .error failure
  | .ok () =>
      match ← deliverTo task.markdown (report.toMarkdown config.severity) with
      | .error failure => return .error failure
      | .ok () =>
          Machine.tell report.toSummary
          return .ok (if report.isClean then .clean else .findings)

/-- Validates the links of a project. -/
def runLinks (config : Config) (task : LinksTask) : m Ending := do
  if task.verbose then
    Machine.warnLine
      s!"Extracting and validating express links using schemas from {task.manifest}"
    Machine.warnLine s!"Looking for documents in {task.documents}"
  match ← loadCorpus config task.manifest with
  | .error failure => return .error failure
  | .ok (manifest, corpus) =>
      let documents := findDocuments config task.documents (← Machine.list? task.documents)
      let readings ← readAll (documents ++ manifest.schemaPaths.map (·.2))
      let timestamp ← Machine.now
      deliver config task (Validation.report corpus task.jobs readings timestamp)

end ExpressLinks.Command
