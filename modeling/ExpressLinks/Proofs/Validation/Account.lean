import ExpressLinks.Proofs.Marker.Grammar
import ExpressLinks.Proofs.Validation.Workers
import Mathlib.Data.List.Forall2

/-!
# A report accounts for its files

A report on a list of files says neither more nor less than the files do: it counts
them, warns of each that could not be read, counts the different paths of each
of the others, and lists of these paths those that do not resolve, in the order of
the files and of the paths in them.
-/

namespace ExpressLinks

/-- A path, and the file with its text in which it is used. -/
structure PathUse where
  file : String
  text : List Char
  path : String
  deriving DecidableEq, Repr

/-- A link stands for the use of a path: it names the file and the path, the line is
    that of the file's reference for the path, and the reason is the one for which
    the path does not resolve. -/
structure PathUse.ReportedAs (corpus : Corpus) (use : PathUse) (link : UnresolvedLink) : Prop where
  file : link.file = use.file
  rawPath : link.rawPath = use.path
  line : ∃ reference ∈ Reference.ofText use.text use.file,
    reference.rawPath = use.path ∧ reference.lineNumber = link.line
  reason : ∃ segment reason, corpus.resolve use.path = .unresolved segment reason ∧
    link.code = reason.code ∧ link.reason = reason.message

namespace Validation

/-- The files that could be read, with their texts. -/
def readable (readings : List Reading) : List (String × List Char) :=
  readings.filterMap fun
    | (file, .ok text) => some (file, text)
    | (_, .error _) => none

/-- The files that could not be read, with the causes. -/
def unreadable (readings : List Reading) : List (String × FileError) :=
  readings.filterMap fun
    | (_, .ok _) => none
    | (file, .error error) => some (file, error)

/-- The warning of a file that could not be read. -/
def unreadableWarning (file : String) (error : FileError) : Diagnostic where
  code := .fileUnreadable
  severity := .warn
  message := s!"Could not read file {file}: {error.message}"
  location := some { file := file }

/-- The paths of a file that do not resolve. -/
def failuresOf (corpus : Corpus) (file : String) (text : List Char) : List PathUse :=
  ((Marker.paths text).filter fun path => !(corpus.resolve path).isResolved).map
    fun path => ⟨file, text, path⟩

/-- The paths that do not resolve, file after file. -/
def failures (corpus : Corpus) (readings : List Reading) : List PathUse :=
  (readable readings).flatMap fun file => failuresOf corpus file.1 file.2

end Validation

namespace FileOutcome

variable {corpus : Corpus} {file : String} {text : List Char}

/-- The link that a reference leads to if it does not resolve. -/
def linkOf? (corpus : Corpus) (reference : Reference) : Option UnresolvedLink :=
  match corpus.resolve reference.rawPath with
  | .resolved => none
  | .unresolved _ reason => some
      { file := reference.sourceFile
        line := reference.lineNumber
        rawPath := reference.rawPath
        code := reason.code
        reason := reason.message }

theorem addReference_eq (outcome : FileOutcome) (reference : Reference) :
    addReference corpus outcome reference =
      match linkOf? corpus reference with
      | none => { outcome with resolved := outcome.resolved + 1 }
      | some link => { outcome with unresolved := outcome.unresolved ++ [link] } := by
  unfold addReference linkOf?
  cases corpus.resolve reference.rawPath <;> rfl

/-- Each reference is counted once: as resolved, or as one more link at the end. -/
theorem foldl_addReference (corpus : Corpus) (references : List Reference)
    (outcome : FileOutcome) :
    ∃ resolved, resolved + (references.filterMap (linkOf? corpus)).length = references.length ∧
      references.foldl (addReference corpus) outcome =
        { outcome with
          resolved := outcome.resolved + resolved
          unresolved := outcome.unresolved ++ references.filterMap (linkOf? corpus) } := by
  induction references generalizing outcome with
  | nil => exact ⟨0, rfl, by simp⟩
  | cons reference rest ih =>
      rw [List.foldl_cons, addReference_eq]
      cases leads : linkOf? corpus reference with
      | none =>
          obtain ⟨resolved, counted, added⟩ := ih { outcome with resolved := outcome.resolved + 1 }
          rw [List.filterMap_cons_none leads]
          refine ⟨resolved + 1, by rw [List.length_cons]; omega, ?_⟩
          simp only [added, Nat.add_assoc, Nat.add_comm 1 resolved]
      | some link =>
          obtain ⟨resolved, counted, added⟩ :=
            ih { outcome with unresolved := outcome.unresolved ++ [link] }
          rw [List.filterMap_cons_some leads]
          refine ⟨resolved, by rw [List.length_cons, List.length_cons]; omega, ?_⟩
          simp only [added, List.append_assoc, List.singleton_append]

/-- The links of references of a file stand for those of their paths that do not
    resolve. -/
theorem forall₂_reportedAs (references : List Reference)
    (given : references ⊆ Reference.ofText text file) :
    List.Forall₂ (PathUse.ReportedAs corpus)
      (((references.map (·.rawPath)).filter fun path => !(corpus.resolve path).isResolved).map
        fun path => ⟨file, text, path⟩)
      (references.filterMap (linkOf? corpus)) := by
  induction references with
  | nil => exact .nil
  | cons reference rest ih =>
      have others := ih fun other member => given (List.mem_cons_of_mem reference member)
      have used : reference ∈ Reference.ofText text file := given List.mem_cons_self
      rw [List.map_cons]
      cases outcome : corpus.resolve reference.rawPath with
      | resolved =>
          rw [List.filter_cons_of_neg (by simp [outcome, Resolution.isResolved]),
            List.filterMap_cons_none (by simp [linkOf?, outcome])]
          exact others
      | unresolved segment reason =>
          rw [List.filter_cons_of_pos (by simp [outcome, Resolution.isResolved]), List.map_cons,
            List.filterMap_cons_some (by simp only [linkOf?, outcome]; rfl)]
          refine .cons ?_ others
          exact
            { file := (Reference.exists_first_of_mem_ofText used).1
              rawPath := rfl
              line := ⟨reference, used, rfl, rfl⟩
              reason := ⟨segment, reason, outcome, rfl, rfl⟩ }

/-- A file that was read is not skipped; each of its paths is counted once, and each
    that does not resolve is reported. -/
theorem ofText_account (corpus : Corpus) (file : String) (text : List Char) :
    (ofText corpus file text).skipped = none ∧
      (ofText corpus file text).resolved + (ofText corpus file text).unresolved.length =
        (Marker.paths text).length ∧
      List.Forall₂ (PathUse.ReportedAs corpus) (Validation.failuresOf corpus file text)
        (ofText corpus file text).unresolved := by
  obtain ⟨resolved, counted, added⟩ := foldl_addReference corpus (Reference.ofText text file) {}
  have outcome : ofText corpus file text =
      ⟨none, resolved, (Reference.ofText text file).filterMap (linkOf? corpus)⟩ := by
    rw [ofText, added]
    simp
  rw [outcome]
  refine ⟨rfl, ?_, ?_⟩
  · rw [counted, ← Reference.map_rawPath_ofText text file, List.length_map]
  · rw [Validation.failuresOf, ← Reference.map_rawPath_ofText text file]
    exact forall₂_reportedAs _ (List.Subset.refl _)

end FileOutcome

namespace Validation

variable (corpus : Corpus)

/-- The warnings of a run are those of the files that could not be read. -/
theorem flatMap_skipped_scan (readings : List Reading) :
    (scan corpus readings).flatMap (·.skipped.toList) =
      (unreadable readings).map fun file => unreadableWarning file.1 file.2 := by
  induction readings with
  | nil => rfl
  | cons reading rest ih =>
      obtain ⟨file, result⟩ := reading
      rw [scan] at ih ⊢
      rw [List.map_cons, List.flatMap_cons, ih]
      cases result with
      | ok text =>
          have skipped := (FileOutcome.ofText_account corpus file text).1
          simp [FileOutcome.ofReading, skipped, unreadable]
      | error error =>
          simp [FileOutcome.ofReading, FileOutcome.unreadable, unreadable, unreadableWarning,
            DiagnosticCode.defaultSeverity]

/-- The links of a run are the paths of the files that could be read. -/
theorem sum_resolved_scan (readings : List Reading) :
    ((scan corpus readings).map (·.resolved)).sum
        + ((scan corpus readings).flatMap (·.unresolved)).length =
      ((readable readings).map fun file => (Marker.paths file.2).length).sum := by
  induction readings with
  | nil => rfl
  | cons reading rest ih =>
      obtain ⟨file, result⟩ := reading
      rw [scan] at ih ⊢
      rw [List.map_cons, List.map_cons, List.sum_cons, List.flatMap_cons, List.length_append]
      cases result with
      | ok text =>
          have counted := (FileOutcome.ofText_account corpus file text).2.1
          have head : readable ((file, .ok text) :: rest) = (file, text) :: readable rest := rfl
          rw [head, List.map_cons, List.sum_cons, ← ih, ← counted]
          simp only [FileOutcome.ofReading]
          omega
      | error error =>
          have head : readable ((file, .error error) :: rest) = readable rest := rfl
          rw [head, ← ih]
          simp [FileOutcome.ofReading, FileOutcome.unreadable]

/-- The unresolved links of a run stand for the paths that do not resolve. -/
theorem forall₂_failures_scan (readings : List Reading) :
    List.Forall₂ (PathUse.ReportedAs corpus) (failures corpus readings)
      ((scan corpus readings).flatMap (·.unresolved)) := by
  induction readings with
  | nil => exact .nil
  | cons reading rest ih =>
      obtain ⟨file, result⟩ := reading
      rw [scan] at ih ⊢
      rw [List.map_cons, List.flatMap_cons]
      cases result with
      | ok text =>
          have reported := (FileOutcome.ofText_account corpus file text).2.2
          exact List.rel_append reported ih
      | error error => exact ih

/-- A report loses, invents and reorders nothing: its counts are those of the files and
    of their different paths, its warnings are those of the unreadable files in order,
    and its unresolved links stand, one for one and in order, for the paths of the
    readable files that do not resolve. -/
theorem report_accounts_for_files (jobs : Nat) (readings : List Reading) (timestamp : String) :
    let found := report corpus jobs readings timestamp
    found.summary.totalFiles = readings.length ∧
      found.summary.filesSkipped = (unreadable readings).length ∧
      found.warnings = (unreadable readings).map (fun file => unreadableWarning file.1 file.2) ∧
      found.summary.totalLinksChecked =
        ((readable readings).map fun file =>
          ((Marker.occurrences file.2).map (·.marker.path)).toFinset.card).sum ∧
      List.Forall₂ (PathUse.ReportedAs corpus) (failures corpus readings) found.unresolved ∧
      found.summary.unresolved = found.unresolved.length := by
  have warnings := flatMap_skipped_scan corpus readings
  have links := sum_resolved_scan corpus readings
  have reported := forall₂_failures_scan corpus readings
  rw [report_eq_extend]
  simp only [Report.extend, Report.new, List.nil_append, Nat.zero_add, warnings, links,
    List.length_map, Marker.length_paths]
  exact ⟨trivial, trivial, trivial, trivial, reported, trivial⟩

end Validation

end ExpressLinks
