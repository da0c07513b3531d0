import ExpressLinks.Marker
import ExpressLinks.Report
import ExpressLinks.Resolution

/-!
# Validating documents

Each file of a run has an outcome: either it could not be read, or some of its
references resolved and the others did not. The outcomes are recorded on one
report in the order of the files. Workers take contiguous runs of files, and
what they find is joined in the order of the runs, so the number of workers
changes nothing in the report.
-/

namespace ExpressLinks

/-- What one file contributes to a report. -/
structure FileOutcome where
  skipped : Option Diagnostic := none
  resolved : Nat := 0
  unresolved : List UnresolvedLink := []
  deriving DecidableEq, Repr

namespace FileOutcome

/-- Records the file, then its links, those that resolved first. -/
def applyTo (outcome : FileOutcome) (report : Report) : Report :=
  let counted :=
    match outcome.skipped with
    | some warning => report.recordSkippedFile warning
    | none => report.recordFile
  outcome.unresolved.foldl Report.recordUnresolved
    (Nat.repeat Report.recordResolved outcome.resolved counted)

/-- The outcome of a file that could not be read. -/
def unreadable (file : String) (error : FileError) : FileOutcome where
  skipped := some
    { code := .fileUnreadable
      severity := DiagnosticCode.fileUnreadable.defaultSeverity
      message := s!"Could not read file {file}: {error.message}"
      location := some { file := file } }

/-- Adds what is found for one more reference. -/
def addReference (corpus : Corpus) (outcome : FileOutcome) (reference : Reference) :
    FileOutcome :=
  match corpus.resolve reference.rawPath with
  | .resolved => { outcome with resolved := outcome.resolved + 1 }
  | .unresolved _ reason =>
      { outcome with
        unresolved := outcome.unresolved ++
          [{ file := reference.sourceFile
             line := reference.lineNumber
             rawPath := reference.rawPath
             code := reason.code
             reason := reason.message }] }

/-- The outcome of a file whose text is known. -/
def ofText (corpus : Corpus) (file : String) (text : List Char) : FileOutcome :=
  (Reference.ofText text file).foldl (addReference corpus) {}

/-- The outcome of a file, given what reading it gave. -/
def ofReading (corpus : Corpus) (file : String) (reading : Except FileError (List Char)) :
    FileOutcome :=
  match reading with
  | .ok text => ofText corpus file text
  | .error error => unreadable file error

end FileOutcome

namespace Validation

/-- A file of a run and what reading it gave. -/
abbrev Reading := String × Except FileError (List Char)

/-- Cuts a list into runs of `size` elements, the last one possibly shorter. A run
    holds at least one element. -/
def runs {α : Type} (size : Nat) : List α → List (List α)
  | [] => []
  | item :: rest => (item :: rest.take (size - 1)) :: runs size (rest.drop (size - 1))
termination_by items => items.length
decreasing_by
  simp only [List.length_drop, List.length_cons]
  omega

/-- The least size with which `jobs` runs hold `count` elements. -/
def runSize (count jobs : Nat) : Nat := (count + jobs - 1) / jobs

/-- The outcomes of a run of files. -/
def scan (corpus : Corpus) (readings : List Reading) : List FileOutcome :=
  readings.map fun reading => FileOutcome.ofReading corpus reading.1 reading.2

/-- The outcomes of all files. More than one worker is used only when there is
    more than one file, so a run never has size zero. -/
def outcomes (corpus : Corpus) (jobs : Nat) (readings : List Reading) : List FileOutcome :=
  if 1 < jobs ∧ 1 < readings.length then
    ((runs (runSize readings.length jobs) readings).map (scan corpus)).flatten
  else scan corpus readings

/-- The report on all files. -/
def report (corpus : Corpus) (jobs : Nat) (readings : List Reading) (timestamp : String) :
    Report :=
  (outcomes corpus jobs readings).foldl (fun report outcome => outcome.applyTo report)
    (Report.new timestamp)

end Validation

end ExpressLinks
