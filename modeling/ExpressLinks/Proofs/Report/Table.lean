import ExpressLinks.Proofs.Report.Links
import ExpressLinks.Report.Markdown

/-!
# The table of unresolved links

The Markdown rendering has a table with one row of four cells for each unresolved link
exactly when the paths that do not resolve hold neither line feeds nor bars without a
backslash before them, the names of files and declarations aside. The reason has its
bars escaped, the path in its own cell has not.
-/

namespace ExpressLinks.Report

namespace Markdown

/-- The number of bars that have no backslash before them; `escaped` tells whether one
    stands before the text. -/
def bareBars (escaped : Bool) : List Char → Nat
  | [] => 0
  | c :: cs => (if c = '|' ∧ ¬ escaped then 1 else 0) + bareBars (c = '\\') cs

theorem bareBars_cons_of_ne {c : Char} (other : c ≠ '|') (escaped : Bool) (cs : List Char) :
    bareBars escaped (c :: cs) = bareBars (c = '\\') cs := by
  rw [bareBars, if_neg (fun bar => other bar.1), Nat.zero_add]

theorem bareBars_cons {c : Char} (plain : c ≠ '|' ∧ c ≠ '\\') (escaped : Bool) (cs : List Char) :
    bareBars escaped (c :: cs) = bareBars false cs := by
  rw [bareBars_cons_of_ne plain.1, decide_eq_false plain.2]

theorem bareBars_bar (cs : List Char) : bareBars false ('|' :: cs) = 1 + bareBars false cs := rfl

/-- What stands before a character that is neither bar nor backslash is counted by itself,
    and so is what stands behind it. -/
theorem bareBars_append_cons {c : Char} (plain : c ≠ '|' ∧ c ≠ '\\') (escaped : Bool)
    (before behind : List Char) :
    bareBars escaped (before ++ c :: behind) =
      bareBars escaped before + bareBars false behind := by
  induction before generalizing escaped with
  | nil => rw [List.nil_append, bareBars_cons plain, bareBars, Nat.zero_add]
  | cons d ds ih => rw [List.cons_append, bareBars, bareBars, ih, Nat.add_assoc]

theorem bareBars_of_not_mem {text : List Char} (free : '|' ∉ text) (escaped : Bool) :
    bareBars escaped text = 0 := by
  induction text generalizing escaped with
  | nil => rfl
  | cons c cs ih =>
      obtain ⟨other, rest⟩ := not_or.mp (mt List.mem_cons.mpr free)
      rw [bareBars_cons_of_ne (Ne.symm other), ih rest]

theorem bareBars_escapeBars (text : String) (escaped : Bool) :
    bareBars escaped (escapeBars text).toList = 0 := by
  rw [escapeBars, String.toList_ofList]
  induction text.toList generalizing escaped with
  | nil => rfl
  | cons c cs ih =>
      rw [List.flatMap_cons]
      by_cases bar : c = '|'
      · -- the backslash is no bar, and it takes the bar behind it out of the count
        rw [if_pos bar, List.cons_append, bareBars_cons_of_ne (by decide), List.cons_append,
          bareBars, List.nil_append, ih]
        rfl
      · rw [if_neg bar, List.singleton_append, bareBars_cons_of_ne bar, ih]

theorem feed_mem_escapeBars_iff (text : String) :
    '\n' ∈ (escapeBars text).toList ↔ '\n' ∈ text.toList := by
  rw [escapeBars, String.toList_ofList, List.mem_flatMap]
  constructor
  · rintro ⟨c, member, feed⟩
    by_cases bar : c = '|'
    · simp [bar] at feed
    · rw [if_neg bar, List.mem_singleton] at feed
      exact feed ▸ member
  · intro member
    exact ⟨'\n', member, by decide⟩

/-- The row of a link without the line feed at its end. -/
def rowText (overrides : SeverityOverrides) (link : UnresolvedLink) : String :=
  let sign := badge (link.toDiagnostic overrides).severity
  let reason := escapeBars link.reason
  s!"| {sign} | `{link.file}:{link.line}` | `{link.rawPath}` | {reason} |"

theorem row_eq (overrides : SeverityOverrides) (link : UnresolvedLink) :
    row overrides link = rowText overrides link ++ "\n" := by
  have ending : toString " |\n" = toString " |" ++ "\n" := by decide
  unfold row rowText
  rw [ending, ← String.append_assoc]

theorem toList_rowText (overrides : SeverityOverrides) (link : UnresolvedLink) :
    (rowText overrides link).toList =
      '|' :: ' ' :: ((badge (link.toDiagnostic overrides).severity).toList ++
        ' ' :: '|' :: ' ' :: '\x60' :: (link.file.toList ++ ':' :: ((toString link.line).toList ++
        '\x60' :: ' ' :: '|' :: ' ' :: '\x60' :: (link.rawPath.toList ++
        '\x60' :: ' ' :: '|' :: ' ' :: ((escapeBars link.reason).toList ++ [' ', '|']))))) := by
  unfold rowText
  simp [Text.toString_string]

theorem feed_mem_rowText_iff (overrides : SeverityOverrides) (link : UnresolvedLink) :
    '\n' ∈ (rowText overrides link).toList ↔
      '\n' ∈ link.file.toList ∨ '\n' ∈ link.rawPath.toList ∨ '\n' ∈ link.reason.toList := by
  have sign : '\n' ∉ (badge (link.toDiagnostic overrides).severity).toList := by
    cases (link.toDiagnostic overrides).severity <;> decide
  have line := Text.not_mem_toString_nat (c := '\n') rfl link.line
  simp only [toList_rowText, List.mem_cons, List.mem_append, feed_mem_escapeBars_iff, sign, line,
    Char.reduceEq, List.not_mem_nil, false_or, or_false]

/-- A row has the five bars around its cells, and those that the path adds. -/
theorem bareBars_rowText {link : UnresolvedLink} (file : '|' ∉ link.file.toList)
    (overrides : SeverityOverrides) :
    bareBars false (rowText overrides link).toList = 5 + bareBars false link.rawPath.toList := by
  have sign : '|' ∉ (badge (link.toDiagnostic overrides).severity).toList := by
    cases (link.toDiagnostic overrides).severity <;> decide
  have line := Text.not_mem_toString_nat (c := '|') rfl link.line
  rw [toList_rowText]
  simp (disch := decide) only [bareBars_bar, bareBars_cons, bareBars_append_cons,
    bareBars_of_not_mem sign, bareBars_of_not_mem file, bareBars_of_not_mem line,
    bareBars_escapeBars]
  have last : bareBars false [] = 0 := rfl
  omega

end Markdown

open Markdown

variable {report : Report} {overrides : SeverityOverrides} {rows : List String}

/-- After the heading stand the two header lines of the table, the rows and an empty line;
    the rows are those of the unresolved links, and each has the bars of four cells. -/
structure Tabulates (report : Report) (overrides : SeverityOverrides) (rows : List String) :
    Prop where
  lines : Text.splitString '\n' (report.toMarkdown overrides) =
    Text.splitString '\n' (heading report ++ "## Unresolved links\n") ++
      "| Severity | Location | Link | Reason |" :: "|---|---|---|---|" :: rows ++
      "" :: Text.splitString '\n' (skipped report)
  inOrder : List.Forall₂ (fun link row => Markdown.row overrides link = row ++ "\n")
    report.unresolved rows
  cells : ∀ row ∈ rows, bareBars false row.toList = 5

theorem Tabulates.rows_eq (table : report.Tabulates overrides rows) :
    rows = report.unresolved.map (rowText overrides) := by
  have texts := table.inOrder.imp fun link row own => by
    rw [row_eq, String.append_left_inj] at own
    exact own
  rwa [← List.forall₂_map_left_iff (f := rowText overrides), List.forall₂_eq_eq_eq, eq_comm]
    at texts

theorem toMarkdown_eq (links : report.unresolved ≠ []) :
    let feed := String.singleton '\n'
    let rows := report.unresolved.map (rowText overrides)
    report.toMarkdown overrides =
      (heading report ++ "## Unresolved links\n") ++ feed ++
        ("| Severity | Location | Link | Reason |" ++ feed ++ ("|---|---|---|---|" ++ feed ++
          (String.join (rows.map (· ++ feed)) ++ ("" ++ feed ++ skipped report)))) := by
  intro feed rows
  have head : tableHead = "## Unresolved links\n" ++ feed ++
      ("| Severity | Location | Link | Reason |" ++ feed ++ ("|---|---|---|---|" ++ feed)) := by
    decide
  have ended : report.unresolved.map (row overrides) = rows.map (· ++ feed) := by
    rw [List.map_map]
    exact List.map_congr_left fun link _ => row_eq overrides link
  rw [toMarkdown, Markdown.links, if_neg (mt isClean_iff.mp links), head, ended]
  simp only [String.append_assoc, String.empty_append]
  rfl

/-- Rows without line feeds are lines of the rendering. -/
theorem splitString_toMarkdown (links : report.unresolved ≠ [])
    (free : ∀ row ∈ report.unresolved.map (rowText overrides), '\n' ∉ row.toList) :
    Text.splitString '\n' (report.toMarkdown overrides) =
      Text.splitString '\n' (heading report ++ "## Unresolved links\n") ++
        "| Severity | Location | Link | Reason |" :: "|---|---|---|---|" ::
          report.unresolved.map (rowText overrides) ++
        "" :: Text.splitString '\n' (skipped report) := by
  have columns : Text.splitString '\n' "| Severity | Location | Link | Reason |" =
      ["| Severity | Location | Link | Reason |"] := Text.splitString_of_not_mem (by decide)
  have separator : Text.splitString '\n' "|---|---|---|---|" = ["|---|---|---|---|"] :=
    Text.splitString_of_not_mem (by decide)
  have gap : Text.splitString '\n' "" = [""] := Text.splitString_of_not_mem List.not_mem_nil
  rw [toMarkdown_eq links, Text.splitString_append, Text.splitString_append,
    Text.splitString_append, Text.splitString_join_append free, Text.splitString_append,
    columns, separator, gap]
  simp only [List.append_assoc, List.cons_append, List.nil_append]

theorem tabulates_iff (links : report.unresolved ≠ []) :
    (∃ rows, report.Tabulates overrides rows) ↔ ∀ link ∈ report.unresolved,
      '\n' ∉ (rowText overrides link).toList ∧
        bareBars false (rowText overrides link).toList = 5 := by
  constructor
  · rintro ⟨rows, table⟩ link member
    have row : rowText overrides link ∈ rows := by
      rw [table.rows_eq]
      exact List.mem_map_of_mem member
    refine ⟨?_, table.cells _ row⟩
    apply Text.not_mem_of_mem_splitString (s := report.toMarkdown overrides)
    rw [table.lines]
    apply List.mem_append_left
    apply List.mem_append_right
    exact List.mem_cons_of_mem _ (List.mem_cons_of_mem _ row)
  · intro sound
    rw [← List.forall_mem_map (f := rowText overrides)
      (P := fun row => '\n' ∉ row.toList ∧ bareBars false row.toList = 5)] at sound
    refine ⟨report.unresolved.map (rowText overrides), ?_, ?_, ?_⟩
    · exact splitString_toMarkdown links fun row listed => (sound row listed).1
    · rw [List.forall₂_map_right_iff, List.forall₂_same]
      exact fun link _ => row_eq overrides link
    · exact fun row listed => (sound row listed).2

/-- If there are unresolved links, they are tabulated. -/
def HasTable (report : Report) (overrides : SeverityOverrides) : Prop :=
  report.unresolved ≠ [] → ∃ rows, report.Tabulates overrides rows

theorem hasTable_iff :
    report.HasTable overrides ↔ ∀ link ∈ report.unresolved,
      '\n' ∉ (rowText overrides link).toList ∧
        bareBars false (rowText overrides link).toList = 5 := by
  by_cases links : report.unresolved = []
  · simp [HasTable, links]
  · rw [HasTable, ← tabulates_iff links]
    exact ⟨fun table => table links, fun table _ => table⟩

end ExpressLinks.Report

namespace ExpressLinks.Validation

open Report.Markdown

/-- The Markdown rendering has a row of four cells for each unresolved link exactly when
    the paths that do not resolve hold neither line feeds nor bare bars, whatever else
    stands in the files and however severe the links are. -/
theorem report_hasTable_iff {schemas : List Schema} {corpus : Corpus} {readings : List Reading}
    (built : Corpus.ofSchemas schemas = .ok corpus)
    (declared : ∀ schema ∈ schemas, schema.NamesOnOneLine)
    (files : ∀ reading ∈ readings, '\n' ∉ reading.1.toList ∧ '|' ∉ reading.1.toList) (jobs : Nat)
    (timestamp : String) (overrides : SeverityOverrides) :
    (report corpus jobs readings timestamp).HasTable overrides ↔
      ∀ use ∈ failures corpus readings,
        '\n' ∉ use.path.toList ∧ bareBars false use.path.toList = 0 := by
  have reported := forall₂_failures_report corpus jobs readings timestamp
  rw [Report.hasTable_iff, ← forall_mem_iff_of_forall₂ reported]
  intro use member link reportedAs
  obtain ⟨reading, listed, named⟩ := file_of_mem_failures member
  obtain ⟨oneLine, noBar⟩ := files reading listed
  rw [named, ← reportedAs.file] at oneLine noBar
  rw [feed_mem_rowText_iff, bareBars_rowText noBar, reportedAs.rawPath]
  constructor
  · rintro ⟨written, bars⟩
    have reason := reportedAs.feed_not_mem_reason built declared written
    simp [oneLine, written, reason, bars]
  · rintro ⟨free, five⟩
    exact ⟨fun written => free (.inr (.inl written)), by omega⟩

/-- Bars behind backslashes and backquotes in paths leave the table as it is. -/
theorem report_hasTable_escaped_bar :
    let schema : Schema := { id := "Plant", types := [⟨"Mode", none, some ["idle"]⟩] }
    let corpus : Corpus := ⟨[(Ident.folded "Plant", schema)]⟩
    let readings : List Reading :=
      [("a.adoc", .ok "<<express:plant.mode.a\\|b>> <<express:`plant`,a|b>>".toList),
        ("b.adoc", .error .notFound)]
    Corpus.ofSchemas [schema] = .ok corpus ∧ schema.NamesOnOneLine ∧
      (∀ reading ∈ readings, '\n' ∉ reading.1.toList ∧ '|' ∉ reading.1.toList) ∧
      (report corpus 2 readings "").unresolved.length = 2 ∧
      (report corpus 2 readings "").HasTable {} := by
  intro schema corpus readings
  have built : Corpus.ofSchemas [schema] = .ok corpus := rfl
  have names : schema.NamesOnOneLine := ⟨by decide, by decide⟩
  have files : ∀ reading ∈ readings, '\n' ∉ reading.1.toList ∧ '|' ∉ reading.1.toList := by
    decide
  have links := (forall₂_failures_report corpus 2 readings "").length_eq
  have table := report_hasTable_iff built (by simpa using names) files 2 "" {}
  exact ⟨built, names, files, links.symm.trans (by decide), table.mpr (by decide)⟩

/-- A bar in a path ends the cell of the path. -/
theorem report_not_hasTable_of_bar_in_path :
    let readings : List Reading := [("a.adoc", .ok "<<express:plant|mode>>".toList)]
    let found := report .empty 1 readings ""
    (∀ reading ∈ readings, '\n' ∉ reading.1.toList ∧ '|' ∉ reading.1.toList) ∧
      found.unresolved.length = 1 ∧
      (∀ link ∈ found.unresolved, bareBars false (rowText {} link).toList = 6) ∧
      ¬ found.HasTable {} := by
  intro readings found
  have bars : ∀ link ∈ found.unresolved, bareBars false (rowText {} link).toList = 6 := by decide
  refine ⟨by decide, by decide, bars, ?_⟩
  intro table
  have sound := Report.hasTable_iff.mp table
  have six := bars (found.unresolved.head (by decide)) (List.head_mem _)
  have five := (sound (found.unresolved.head (by decide)) (List.head_mem _)).2
  rw [six] at five
  exact absurd five (by decide)

end ExpressLinks.Validation
