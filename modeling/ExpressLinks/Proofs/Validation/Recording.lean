import Mathlib.Algebra.GroupWithZero.Nat
import ExpressLinks.Validation

/-!
# What is recorded on a report

Every event recorded on a report extends it: counters grow and lists get longer
at the end. Extensions add up, so an outcome extends a report by what it holds,
and the outcomes of a run extend it by all that they hold, in their order.
-/

namespace ExpressLinks

namespace Report

/-- The report with so many more files, resolved links, warnings and unresolved
    links, everything counted that the summary counts. -/
def extend (report : Report) (files resolved : Nat) (warnings : List Diagnostic)
    (links : List UnresolvedLink) : Report :=
  { report with
    summary :=
      { totalFiles := report.summary.totalFiles + files
        filesSkipped := report.summary.filesSkipped + warnings.length
        totalLinksChecked := report.summary.totalLinksChecked + (resolved + links.length)
        unresolved := report.summary.unresolved + links.length }
    unresolved := report.unresolved ++ links
    warnings := report.warnings ++ warnings }

theorem extend_nothing (report : Report) : report.extend 0 0 [] [] = report := by
  simp [extend]

theorem extend_extend (report : Report) (files resolved files' resolved' : Nat)
    (warnings warnings' : List Diagnostic) (links links' : List UnresolvedLink) :
    (report.extend files resolved warnings links).extend files' resolved' warnings' links' =
      report.extend (files + files') (resolved + resolved') (warnings ++ warnings')
        (links ++ links') := by
  simp only [extend, List.length_append, List.append_assoc, Report.mk.injEq,
    ReportSummary.mk.injEq, true_and, and_true]
  omega

theorem recordFile_eq (report : Report) : report.recordFile = report.extend 1 0 [] [] := by
  simp [recordFile, extend]

theorem recordSkippedFile_eq (report : Report) (warning : Diagnostic) :
    report.recordSkippedFile warning = report.extend 1 0 [warning] [] := by
  simp [recordSkippedFile, extend]

theorem recordResolved_eq (report : Report) : report.recordResolved = report.extend 0 1 [] [] := by
  simp [recordResolved, extend]

theorem recordUnresolved_eq (report : Report) (link : UnresolvedLink) :
    report.recordUnresolved link = report.extend 0 0 [] [link] := by
  simp [recordUnresolved, extend]

/-- Recording a resolved link again and again counts it so many times. -/
theorem repeat_recordResolved (count : Nat) (report : Report) :
    Nat.repeat recordResolved count report = report.extend 0 count [] [] := by
  induction count with
  | zero => exact report.extend_nothing.symm
  | succ count ih =>
      rw [Nat.repeat, ih, recordResolved_eq, extend_extend]
      rfl

/-- Recording unresolved links one by one lists them in their order. -/
theorem foldl_recordUnresolved (links : List UnresolvedLink) (report : Report) :
    links.foldl recordUnresolved report = report.extend 0 0 [] links := by
  induction links generalizing report with
  | nil => exact report.extend_nothing.symm
  | cons link rest ih =>
      rw [List.foldl_cons, ih, recordUnresolved_eq, extend_extend]
      rfl

end Report

namespace FileOutcome

/-- An outcome counts as one file and brings its warning and its links. -/
theorem applyTo_eq (outcome : FileOutcome) (report : Report) :
    outcome.applyTo report =
      report.extend 1 outcome.resolved outcome.skipped.toList outcome.unresolved := by
  simp only [applyTo, Report.repeat_recordResolved, Report.foldl_recordUnresolved,
    Report.extend_extend]
  cases outcome.skipped with
  | none => simp [Report.recordFile_eq, Report.extend_extend]
  | some warning => simp [Report.recordSkippedFile_eq, Report.extend_extend]

/-- The outcomes of a run count as so many files and bring all their warnings and
    links, in the order of the run. -/
theorem foldl_applyTo (outcomes : List FileOutcome) (report : Report) :
    outcomes.foldl (fun report outcome => outcome.applyTo report) report =
      report.extend outcomes.length (outcomes.map (·.resolved)).sum
        (outcomes.flatMap (·.skipped.toList)) (outcomes.flatMap (·.unresolved)) := by
  induction outcomes generalizing report with
  | nil => exact report.extend_nothing.symm
  | cons outcome rest ih =>
      rw [List.foldl_cons, ih, applyTo_eq, Report.extend_extend]
      simp [Nat.add_comm]

end FileOutcome

end ExpressLinks
