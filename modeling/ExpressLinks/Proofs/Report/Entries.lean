import Mathlib.Data.List.Count
import ExpressLinks.Proofs.Validation.Recording

/-!
# What a report says after any entries

A report grows by records: of a file, a skipped file, a resolved or an unresolved link. The
outcome of a file is entered as its records one after another. Each record keeps the counters
in step with the lists, so they are in step after any entries; the lists hold what was
recorded in its order, and the counters only say how often each kind of record was made.
-/

namespace ExpressLinks

/-- One thing recorded on a report. -/
inductive Record where
  | file
  | skippedFile (warning : Diagnostic)
  | resolved
  | unresolved (link : UnresolvedLink)
  deriving DecidableEq, Repr

/-- The kinds of records. -/
inductive RecordKind where
  | file
  | skippedFile
  | resolved
  | unresolved
  deriving DecidableEq, Repr

/-- What is entered on a report at a time: a record, or the outcome of a file. -/
inductive Entry where
  | single (record : Record)
  | ofFile (outcome : FileOutcome)
  deriving DecidableEq, Repr

namespace Record

/-- The kind of the record. -/
@[simp] def kind : Record → RecordKind
  | file => .file
  | skippedFile _ => .skippedFile
  | resolved => .resolved
  | unresolved _ => .unresolved

/-- The warning that the record lists. -/
@[simp] def warning? : Record → Option Diagnostic
  | skippedFile warning => some warning
  | file | resolved | unresolved _ => none

/-- The link that the record lists. -/
@[simp] def link? : Record → Option UnresolvedLink
  | unresolved link => some link
  | file | skippedFile _ | resolved => none

end Record

/-- The records that an outcome consists of: the file, then its links. -/
def FileOutcome.records (outcome : FileOutcome) : List Record :=
  let opened := match outcome.skipped with
    | some warning => Record.skippedFile warning
    | none => Record.file
  opened :: (List.replicate outcome.resolved .resolved ++ outcome.unresolved.map .unresolved)

namespace Entry

/-- The records that are made one after another. -/
def records : Entry → List Record
  | single record => [record]
  | ofFile outcome => outcome.records

/-- The warnings that are entered. -/
def warnings : Entry → List Diagnostic
  | single record => record.warning?.toList
  | ofFile outcome => outcome.skipped.toList

/-- The unresolved links that are entered. -/
def links : Entry → List UnresolvedLink
  | single record => record.link?.toList
  | ofFile outcome => outcome.unresolved

/-- How many records of a kind are made, alone or within outcomes. -/
def countOf (entries : List Entry) (kind : RecordKind) : Nat :=
  (entries.flatMap records).countP (·.kind = kind)

theorem filterMap_warning?_records (entry : Entry) :
    entry.records.filterMap Record.warning? = entry.warnings := by
  cases entry with
  | single record => cases record <;> rfl
  | ofFile outcome =>
      have later : ∀ record ∈ List.replicate outcome.resolved Record.resolved ++
          outcome.unresolved.map .unresolved, record.warning? = none := by
        intro record member
        rcases List.mem_append.mp member with resolved | unresolved
        · rw [List.eq_of_mem_replicate resolved]
          rfl
        · obtain ⟨link, -, rfl⟩ := List.mem_map.mp unresolved
          rfl
      rw [records, FileOutcome.records, List.filterMap_cons, List.filterMap_eq_nil_iff.mpr later]
      cases skipped : outcome.skipped <;> simp [warnings, skipped]

theorem filterMap_link?_records (entry : Entry) :
    entry.records.filterMap Record.link? = entry.links := by
  cases entry with
  | single record => cases record <;> rfl
  | ofFile outcome =>
      have listed : (List.replicate outcome.resolved Record.resolved ++
          outcome.unresolved.map Record.unresolved).filterMap Record.link? =
            outcome.unresolved := by
        rw [List.filterMap_append, List.filterMap_map,
          List.filterMap_replicate_of_none (by rfl), List.nil_append]
        exact List.filterMap_some
      rw [records, FileOutcome.records, List.filterMap_cons, listed]
      cases outcome.skipped <;> rfl

end Entry

namespace Report

/-- Makes a record on the report. -/
def record (report : Report) : Record → Report
  | .file => report.recordFile
  | .skippedFile warning => report.recordSkippedFile warning
  | .resolved => report.recordResolved
  | .unresolved link => report.recordUnresolved link

/-- Enters a record or an outcome on the report. -/
def enter (report : Report) : Entry → Report
  | .single record => report.record record
  | .ofFile outcome => outcome.applyTo report

/-- Enters one thing after another. -/
def enterAll (report : Report) (entries : List Entry) : Report := entries.foldl enter report

/-- The counters of a report are in step with its lists, and count no more unresolved links
    and skipped files than links and files. -/
structure Consistent (report : Report) : Prop where
  unresolved_eq : report.summary.unresolved = report.unresolved.length
  skipped_eq : report.summary.filesSkipped = report.warnings.length
  unresolved_le : report.summary.unresolved ≤ report.summary.totalLinksChecked
  skipped_le : report.summary.filesSkipped ≤ report.summary.totalFiles

variable {report : Report}

theorem consistent_new (timestamp : String) : (new timestamp).Consistent :=
  ⟨rfl, rfl, Nat.le_refl _, Nat.le_refl _⟩

/-- Every record keeps the counters in step. -/
theorem Consistent.record (h : report.Consistent) (record : Record) :
    (report.record record).Consistent := by
  obtain ⟨unresolved, skipped, fewerLinks, fewerFiles⟩ := h
  cases record with
  | file => exact ⟨unresolved, skipped, fewerLinks, Nat.le_succ_of_le fewerFiles⟩
  | skippedFile warning =>
      refine ⟨unresolved, ?_, fewerLinks, Nat.succ_le_succ fewerFiles⟩
      simp [Report.record, recordSkippedFile, skipped]
  | resolved => exact ⟨unresolved, skipped, Nat.le_succ_of_le fewerLinks, fewerFiles⟩
  | unresolved link =>
      refine ⟨?_, skipped, Nat.succ_le_succ fewerLinks, fewerFiles⟩
      simp [Report.record, recordUnresolved, unresolved]

theorem Consistent.foldl_record (h : report.Consistent) (records : List Record) :
    (records.foldl Report.record report).Consistent := by
  induction records generalizing report with
  | nil => exact h
  | cons record rest ih => exact ih (h.record record)

theorem Consistent.isClean_iff (h : report.Consistent) :
    report.isClean = true ↔ report.summary.unresolved = 0 := by
  rw [h.unresolved_eq, List.length_eq_zero_iff]
  exact List.isEmpty_iff

/-- Links and warnings are listed in the order in which they are recorded. -/
theorem lists_foldl_record (records : List Record) (report : Report) :
    (records.foldl record report).unresolved =
        report.unresolved ++ records.filterMap Record.link? ∧
      (records.foldl record report).warnings =
        report.warnings ++ records.filterMap Record.warning? := by
  induction records generalizing report with
  | nil => simp
  | cons first rest ih =>
      obtain ⟨links, warnings⟩ := ih (report.record first)
      rw [List.foldl_cons, links, warnings, List.filterMap_cons, List.filterMap_cons]
      cases first <;> simp [record, recordFile, recordSkippedFile, recordResolved,
        recordUnresolved]

/-- The counters say how often each kind of record was made. -/
theorem summary_foldl_record (records : List Record) (report : Report) :
    let made (kind : RecordKind) := records.countP (·.kind = kind)
    (records.foldl record report).summary =
      { totalFiles := report.summary.totalFiles + (made .file + made .skippedFile)
        filesSkipped := report.summary.filesSkipped + made .skippedFile
        totalLinksChecked :=
          report.summary.totalLinksChecked + (made .resolved + made .unresolved)
        unresolved := report.summary.unresolved + made .unresolved } := by
  induction records generalizing report with
  | nil => simp
  | cons first rest ih =>
      simp only [List.foldl_cons, ih, List.countP_cons, ReportSummary.mk.injEq]
      cases first <;> simp [record, recordFile, recordSkippedFile, recordResolved,
        recordUnresolved] <;> omega

theorem foldl_record_replicate (count : Nat) (report : Report) :
    (List.replicate count Record.resolved).foldl record report =
      Nat.repeat recordResolved count report := by
  induction count with
  | zero => rfl
  | succ count ih =>
      rw [List.replicate_succ', List.foldl_append, ih]
      rfl

/-- An outcome is entered by making its records. -/
theorem enter_eq_foldl_record (report : Report) (entry : Entry) :
    report.enter entry = entry.records.foldl record report := by
  cases entry with
  | single record => rfl
  | ofFile outcome =>
      simp only [Entry.records, FileOutcome.records, List.foldl_cons, List.foldl_append,
        foldl_record_replicate, List.foldl_map, enter, FileOutcome.applyTo]
      cases outcome.skipped <;> rfl

theorem enterAll_eq_foldl_record (entries : List Entry) (report : Report) :
    report.enterAll entries = (entries.flatMap Entry.records).foldl record report := by
  unfold enterAll
  induction entries generalizing report with
  | nil => rfl
  | cons entry rest ih =>
      rw [List.foldl_cons, ih, enter_eq_foldl_record, List.flatMap_cons, List.foldl_append]

/-- The counters are in step after any entries. -/
theorem Consistent.enterAll (h : report.Consistent) (entries : List Entry) :
    (report.enterAll entries).Consistent := by
  rw [enterAll_eq_foldl_record]
  exact h.foldl_record _

/-- The lists hold what was entered, in its order. -/
theorem lists_enterAll (entries : List Entry) (report : Report) :
    (report.enterAll entries).unresolved = report.unresolved ++ entries.flatMap Entry.links ∧
      (report.enterAll entries).warnings = report.warnings ++ entries.flatMap Entry.warnings := by
  obtain ⟨links, warnings⟩ := lists_foldl_record (entries.flatMap Entry.records) report
  rw [enterAll_eq_foldl_record, links, warnings, List.filterMap_flatMap, List.filterMap_flatMap]
  simp only [Entry.filterMap_link?_records, Entry.filterMap_warning?_records, and_self]

/-- The summary of a new report depends only on how many records of each kind are made. -/
theorem summary_enterAll_new (timestamp : String) (entries : List Entry) :
    ((new timestamp).enterAll entries).summary =
      { totalFiles := Entry.countOf entries .file + Entry.countOf entries .skippedFile
        filesSkipped := Entry.countOf entries .skippedFile
        totalLinksChecked := Entry.countOf entries .resolved + Entry.countOf entries .unresolved
        unresolved := Entry.countOf entries .unresolved } := by
  rw [enterAll_eq_foldl_record, summary_foldl_record]
  simp [new, Entry.countOf]

/-- After any entries on a new report its counters are in step with its lists: as many
    unresolved links and skipped files are counted as are listed, and no more of them than
    links and files. The report is clean exactly when no unresolved link is counted. The lists
    hold what was entered, in its order. The summary is the same for any other entries with
    as many records of each kind, and so for the same entries in another order. -/
theorem enterAll_keeps_account (timestamp : String) (entries : List Entry) :
    let report := (new timestamp).enterAll entries
    report.summary.unresolved = report.unresolved.length ∧
      report.summary.filesSkipped = report.warnings.length ∧
      report.summary.filesSkipped ≤ report.summary.totalFiles ∧
      report.summary.unresolved ≤ report.summary.totalLinksChecked ∧
      (report.isClean = true ↔ report.summary.unresolved = 0) ∧
      report.unresolved = entries.flatMap Entry.links ∧
      report.warnings = entries.flatMap Entry.warnings ∧
      (∀ (others : List Entry) (other : String),
        (∀ kind, Entry.countOf others kind = Entry.countOf entries kind) →
        ((new other).enterAll others).summary = report.summary) ∧
      ∀ (others : List Entry) (other : String), others.Perm entries →
        ((new other).enterAll others).summary = report.summary := by
  have consistent := (consistent_new timestamp).enterAll entries
  have determined (others : List Entry) (other : String)
      (same : ∀ kind, Entry.countOf others kind = Entry.countOf entries kind) :
      ((new other).enterAll others).summary = ((new timestamp).enterAll entries).summary := by
    simp only [summary_enterAll_new, same]
  obtain ⟨links, warnings⟩ := lists_enterAll entries (new timestamp)
  refine ⟨consistent.unresolved_eq, consistent.skipped_eq, consistent.skipped_le,
    consistent.unresolved_le, consistent.isClean_iff, links, warnings, determined, ?_⟩
  · intro others other moved
    apply determined others other
    intro kind
    exact (moved.flatMap_right _).countP_eq _

/-- The outcome of a file that was skipped and still brings links counts like its records,
    made singly, in another order and about other links, and like itself after the file that
    followed it. -/
theorem enterAll_keeps_account_of_single_records :
    let link : UnresolvedLink := ⟨"a.adoc", 3, "plant.door", .linkElementNotFound, "missing"⟩
    let warning : Diagnostic := { code := .fileUnreadable, severity := .warn, message := "gone" }
    let entries : List Entry := [.ofFile ⟨some warning, 2, [link]⟩, .single .file]
    let others : List Entry :=
      [.single (.unresolved { link with line := 5 }), .single .resolved, .single .file,
        .single .resolved, .single (.skippedFile { warning with message := "locked" })]
    (∀ kind, Entry.countOf others kind = Entry.countOf entries kind) ∧
      entries.reverse.Perm entries ∧
      ((new "").enterAll others).summary = ((new "").enterAll entries).summary ∧
      ((new "").enterAll entries.reverse).summary = ((new "").enterAll entries).summary ∧
      ((new "").enterAll entries).summary = ⟨2, 1, 3, 1⟩ := by
  intro link warning entries others
  have sameCounts : ∀ kind, Entry.countOf others kind = Entry.countOf entries kind := by
    intro kind
    cases kind <;> rfl
  have moved : entries.reverse.Perm entries := List.reverse_perm entries
  obtain ⟨-, -, -, -, -, -, -, counted, ordered⟩ := enterAll_keeps_account "" entries
  exact ⟨sameCounts, moved, counted others "" sameCounts, ordered entries.reverse "" moved, rfl⟩

end Report

/-- The report on a run enters the outcomes of its files, so its counters are in step. -/
theorem Validation.consistent_report (corpus : Corpus) (jobs : Nat) (readings : List Reading)
    (timestamp : String) : (report corpus jobs readings timestamp).Consistent := by
  have entered : report corpus jobs readings timestamp =
      (Report.new timestamp).enterAll ((outcomes corpus jobs readings).map .ofFile) := by
    rw [Report.enterAll, List.foldl_map]
    rfl
  rw [entered]
  exact (Report.consistent_new timestamp).enterAll _

end ExpressLinks
