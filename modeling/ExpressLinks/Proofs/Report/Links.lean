import ExpressLinks.Proofs.Resolution.Quoting
import ExpressLinks.Proofs.Validation.Account

/-!
# Links of a report and the paths they stand for

The links of a report and the paths that do not resolve correspond one for one, so what
holds of a link exactly when something holds of its path holds of all links exactly
when that holds of all those paths. A link names a file of the run, and its reason holds
a line feed only if its path or a declared name does.
-/

namespace ExpressLinks

/-- Where two lists correspond, members with properties that correspond do, too. -/
theorem forall_mem_iff_of_forall₂ {α β : Type} {r : α → β → Prop} {p : α → Prop} {q : β → Prop}
    {as : List α} {bs : List β} (related : List.Forall₂ r as bs)
    (same : ∀ a ∈ as, ∀ b, r a b → (p a ↔ q b)) : (∀ a ∈ as, p a) ↔ ∀ b ∈ bs, q b := by
  induction related with
  | nil => simp
  | cons head _ ih =>
      have first := same _ List.mem_cons_self _ head
      have rest := ih fun a member => same a (List.mem_cons_of_mem _ member)
      rw [List.forall_mem_cons, List.forall_mem_cons, first, rest]

theorem Report.isClean_iff {report : Report} :
    report.isClean = true ↔ report.unresolved = [] := List.isEmpty_iff

namespace Validation

variable {corpus : Corpus} {readings : List Reading}

theorem forall₂_failures_report (corpus : Corpus) (jobs : Nat) (readings : List Reading)
    (timestamp : String) :
    List.Forall₂ (PathUse.ReportedAs corpus) (failures corpus readings)
      (report corpus jobs readings timestamp).unresolved := by
  have reported := forall₂_failures_scan corpus readings
  rw [report_eq_extend]
  exact reported

theorem mem_readable_iff {file : String} {text : List Char} :
    (file, text) ∈ readable readings ↔ (file, .ok text) ∈ readings := by
  rw [readable, List.mem_filterMap]
  constructor
  · rintro ⟨⟨name, result⟩, read, kept⟩
    cases result with
    | error error => simp at kept
    | ok content =>
        obtain ⟨rfl, rfl⟩ := Prod.mk.inj (Option.some.inj kept)
        exact read
  · intro read
    exact ⟨_, read, rfl⟩

/-- A report is clean exactly when all markers of the files that could be read resolve. -/
theorem isClean_report_iff {jobs : Nat} {timestamp : String} :
    (report corpus jobs readings timestamp).isClean = true ↔
      ∀ file text, (file, .ok text) ∈ readings →
        ∀ occurrence ∈ Marker.occurrences text,
          (corpus.resolve occurrence.marker.path).isResolved = true := by
  have reported := forall₂_failures_report corpus jobs readings timestamp
  have clean : (report corpus jobs readings timestamp).unresolved = [] ↔
      failures corpus readings = [] := by
    rw [← List.length_eq_zero_iff, ← List.length_eq_zero_iff, reported.length_eq]
  rw [Report.isClean_iff, clean, failures, List.flatMap_eq_nil_iff]
  simp only [failuresOf, List.map_eq_nil_iff, List.filter_eq_nil_iff, Prod.forall,
    mem_readable_iff, Marker.mem_paths_iff]
  simp

theorem file_of_mem_failures {use : PathUse} (member : use ∈ failures corpus readings) :
    ∃ reading ∈ readings, reading.1 = use.file := by
  obtain ⟨⟨file, text⟩, readable, failure⟩ := List.mem_flatMap.mp member
  obtain ⟨path, -, rfl⟩ := List.mem_map.mp failure
  exact ⟨_, mem_readable_iff.mp readable, rfl⟩

end Validation

theorem PathUse.ReportedAs.feed_not_mem_reason {schemas : List Schema} {corpus : Corpus}
    {use : PathUse} {link : UnresolvedLink} (reported : use.ReportedAs corpus link)
    (built : Corpus.ofSchemas schemas = .ok corpus)
    (declared : ∀ schema ∈ schemas, schema.NamesOnOneLine) (written : '\n' ∉ use.path.toList) :
    '\n' ∉ link.reason.toList := by
  obtain ⟨segment, reason, unresolved, -, message⟩ := reported.reason
  rw [message]
  exact Corpus.feed_not_mem_message built declared unresolved written

end ExpressLinks
