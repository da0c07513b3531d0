import ExpressLinks.Proofs.Report.Links

/-!
# Lines of the plain rendering

The plain rendering gives each unresolved link a line of its own exactly when no line
feed stands in a path that does not resolve, the names of files and declarations
aside. Markers admit such paths, and the rendering writes them as they are.
-/

namespace ExpressLinks

theorem UnresolvedLink.feed_mem_describe_iff {link : UnresolvedLink} :
    '\n' ∈ link.describe.toList ↔
      '\n' ∈ link.file.toList ∨ '\n' ∈ link.rawPath.toList ∨ '\n' ∈ link.reason.toList := by
  have line := Text.not_mem_toString_nat (c := '\n') rfl link.line
  unfold describe
  simp +decide only [String.toList_append, List.mem_append, or_false, line, Text.toString_string]
  rw [or_assoc]

namespace Report

variable {report : Report}

/-- The first line of the plain rendering is followed by one line for each unresolved
    link, or by one line if there is none. -/
structure OneLineEach (report : Report) : Prop where
  count : (Text.splitString '\n' report.toText).length = 1 + max 1 report.unresolved.length
  line : ∀ i link, report.unresolved[i]? = some link →
    (Text.splitString '\n' report.toText)[i + 1]? = some link.describe

theorem feed_not_mem_textLines (free : ∀ link ∈ report.unresolved, '\n' ∉ link.describe.toList) :
    ∀ line ∈ report.textLines, '\n' ∉ line.toList := by
  have checked := Text.not_mem_toString_nat (c := '\n') rfl report.summary.totalLinksChecked
  intro line member
  rcases List.mem_cons.mp member with rfl | body
  · simp +decide only [String.toList_append, List.mem_append, or_false, checked, not_false_eq_true]
  · split at body
    · rw [List.mem_singleton.mp body]
      decide
    · obtain ⟨link, listed, rfl⟩ := List.mem_map.mp body
      exact free link listed

theorem splitString_toText (free : ∀ link ∈ report.unresolved, '\n' ∉ link.describe.toList) :
    Text.splitString '\n' report.toText = report.textLines := by
  have joined : report.toText = Text.joinStrings '\n' report.textLines :=
    Text.intercalate_eq_joinStrings '\n' report.textLines
  rw [joined]
  exact Text.splitString_joinStrings (List.cons_ne_nil _ _) (feed_not_mem_textLines free)

theorem oneLineEach_iff :
    report.OneLineEach ↔ ∀ link ∈ report.unresolved, '\n' ∉ link.describe.toList := by
  constructor
  · intro lines link member
    obtain ⟨i, listed⟩ := List.mem_iff_getElem?.mp member
    exact Text.not_mem_of_mem_splitString (List.mem_of_getElem? (lines.line i link listed))
  · intro free
    have lines := splitString_toText free
    by_cases clean : report.unresolved = []
    · have text : report.textLines.length = 2 := by
        rw [textLines, if_pos (isClean_iff.mpr clean)]
        rfl
      refine ⟨by rw [lines, text, clean]; rfl, ?_⟩
      intro i link listed
      simp [clean] at listed
    · have given := List.length_pos_iff.mpr clean
      refine ⟨?_, ?_⟩
      · rw [lines, textLines, if_neg (mt isClean_iff.mp clean), List.length_cons, List.length_map]
        omega
      · intro i link listed
        rw [lines, textLines, if_neg (mt isClean_iff.mp clean), List.getElem?_cons_succ,
          List.getElem?_map, listed]
        rfl

end Report

namespace Validation

/-- The plain rendering has one line for each unresolved link exactly when the paths that
    do not resolve hold no line feed, whatever else stands in the files. -/
theorem report_oneLineEach_iff {schemas : List Schema} {corpus : Corpus} {readings : List Reading}
    (built : Corpus.ofSchemas schemas = .ok corpus)
    (declared : ∀ schema ∈ schemas, schema.NamesOnOneLine)
    (files : ∀ reading ∈ readings, '\n' ∉ reading.1.toList) (jobs : Nat) (timestamp : String) :
    (report corpus jobs readings timestamp).OneLineEach ↔
      ∀ use ∈ failures corpus readings, '\n' ∉ use.path.toList := by
  have reported := forall₂_failures_report corpus jobs readings timestamp
  rw [Report.oneLineEach_iff, ← forall_mem_iff_of_forall₂ reported]
  intro use member link reportedAs
  obtain ⟨reading, listed, named⟩ := file_of_mem_failures member
  have file : '\n' ∉ link.file.toList := by
    rw [reportedAs.file, ← named]
    exact files reading listed
  rw [UnresolvedLink.feed_mem_describe_iff, reportedAs.rawPath]
  constructor
  · intro written
    have reason := reportedAs.feed_not_mem_reason built declared written
    simp [file, written, reason]
  · intro free written
    exact free (.inr (.inl written))

/-- A path that does not resolve, a file that cannot be read and a line break in a render
    text leave the lines in order. -/
theorem report_oneLineEach_broken_render_text :
    let schema : Schema := { id := "Plant", types := [⟨"Mode", none, some ["idle"]⟩] }
    let corpus : Corpus := ⟨[(Ident.folded "Plant", schema)]⟩
    let readings : List Reading :=
      [("a.adoc", .ok "<<express:plant.mode.x>> <<express:plant.mode.y,two\nlines>>".toList),
        ("b.adoc", .error .notFound), ("c.adoc", .ok "<<express:other>>".toList)]
    Corpus.ofSchemas [schema] = .ok corpus ∧ schema.NamesOnOneLine ∧
      (∀ reading ∈ readings, '\n' ∉ reading.1.toList) ∧
      (report corpus 2 readings "").unresolved.length = 3 ∧
      (report corpus 2 readings "").OneLineEach := by
  intro schema corpus readings
  have built : Corpus.ofSchemas [schema] = .ok corpus := rfl
  have names : schema.NamesOnOneLine := ⟨by decide, by decide⟩
  have files : ∀ reading ∈ readings, '\n' ∉ reading.1.toList := by decide
  have links := (forall₂_failures_report corpus 2 readings "").length_eq
  have lines := report_oneLineEach_iff built (by simpa using names) files 2 ""
  exact ⟨built, names, files, links.symm.trans (by decide), lines.mpr (by decide)⟩

/-- A marker broken in its path is broken once more in the reason, so it takes three
    lines. -/
theorem report_not_oneLineEach_of_broken_path :
    let readings : List Reading := [("a.adoc", .ok "<<express:plant\nmode>>".toList)]
    let found := report .empty 1 readings ""
    (∀ reading ∈ readings, '\n' ∉ reading.1.toList) ∧ found.unresolved.length = 1 ∧
      (Text.splitString '\n' found.toText).length = 4 ∧ ¬ found.OneLineEach := by
  intro readings found
  have links : found.unresolved.length = 1 := by decide
  have lines : (Text.splitString '\n' found.toText).length = 4 := by decide
  refine ⟨by decide, links, lines, ?_⟩
  intro each
  have count := each.count
  rw [lines, links] at count
  exact absurd count (by decide)

end Validation

end ExpressLinks
