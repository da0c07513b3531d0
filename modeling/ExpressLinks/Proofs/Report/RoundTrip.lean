import ExpressLinks.Proofs.Json.Records
import ExpressLinks.Proofs.Json.Writing
import ExpressLinks.Report.Document

/-!
# Report documents read back

A report whose numbers fit into their machine integers is read back from its document
as it was: the document shows each of its records, the decoder finds every field, and
the printed text writes the document.
-/

namespace ExpressLinks

namespace Json

theorem asNatBelow?_nat {bound value : Nat} (small : value < bound) :
    asNatBelow? bound (.nat value) = some value :=
  if_pos small

/-- A counter that may be null is read back. -/
theorem optionFieldOf_counter {counter : Option Nat}
    (small : ∀ value ∈ counter, value < UInt64.size) :
    OptionFieldOf (fun value json => asCounter? json = some value) counter
      (some (ofOption .nat counter)) :=
  optionFieldOf_ofOption fun value given => asNatBelow?_nat (small value given)

end Json

section Words

theorem Severity.ofJson?_toJson (severity : Severity) :
    ofJson? severity.toJson = some severity := by
  cases severity <;> rfl

theorem DiagnosticCode.ofJson?_toJson (code : DiagnosticCode) :
    ofJson? code.toJson = some code := by
  cases code <;> rfl

end Words

namespace Location

/-- Line and column have 64 bits. -/
structure Fits (location : Location) : Prop where
  line : ∀ line ∈ location.line, line < UInt64.size
  column : ∀ column ∈ location.column, column < UInt64.size

theorem fits_iff {location : Location} :
    location.Fits ↔
      (∀ line ∈ location.line, line < UInt64.size) ∧
        ∀ column ∈ location.column, column < UInt64.size :=
  ⟨fun fits => ⟨fits.line, fits.column⟩, fun ⟨line, column⟩ => ⟨line, column⟩⟩

theorem ofJson?_toJson {location : Location} (fits : location.Fits) :
    ofJson? location.toJson = some location := by
  have record : Json.RecordOf
      [("file", some (.text location.file)), ("line", some (Json.ofOption .nat location.line)),
        ("column", some (Json.ofOption .nat location.column))] location.toJson :=
    Json.recordOf_given _
  obtain ⟨fields, read, hold⟩ :=
    Json.fields?_of_recordOf ["file", "line", "column"] record rfl (by decide)
  have file : fields.required "file" Json.asText? = some location.file :=
    hold.required (by simp) (Json.asText?_text _)
  have line : fields.optionalInPlace "line" Json.asCounter? = some location.line :=
    hold.optionalInPlace (by simp) rfl id (Json.optionFieldOf_counter fits.line)
  have column : fields.optionalInPlace "column" Json.asCounter? = some location.column :=
    hold.optionalInPlace (by simp) rfl id (Json.optionFieldOf_counter fits.column)
  simp [ofJson?, read, file, line, column]

theorem writable_toJson (location : Location) : location.toJson.Writable := by
  simp [toJson]

end Location

namespace Diagnostic

/-- The numbers of the location have 64 bits, if there is a location. -/
def Fits (diagnostic : Diagnostic) : Prop := ∀ location ∈ diagnostic.location, location.Fits

theorem recordOf_toJson (diagnostic : Diagnostic) :
    Json.RecordOf
      [("code", some diagnostic.code.toJson), ("severity", some diagnostic.severity.toJson),
        ("message", some (.text diagnostic.message)),
        ("location", some (Json.ofOption Location.toJson diagnostic.location)),
        ("subject", diagnostic.subject.map .text)] diagnostic.toJson := by
  obtain ⟨code, severity, message, location, subject⟩ := diagnostic
  cases subject <;> exact Json.recordOf_given _

theorem ofJson?_toJson {diagnostic : Diagnostic} (fits : diagnostic.Fits) :
    ofJson? diagnostic.toJson = some diagnostic := by
  obtain ⟨fields, read, hold⟩ :=
    Json.fields?_of_recordOf ["code", "severity", "message", "location", "subject"]
      diagnostic.recordOf_toJson rfl (by decide)
  have code : fields.required "code" DiagnosticCode.ofJson? = some diagnostic.code :=
    hold.required (by simp) diagnostic.code.ofJson?_toJson
  have severity : fields.required "severity" Severity.ofJson? = some diagnostic.severity :=
    hold.required (by simp) diagnostic.severity.ofJson?_toJson
  have message : fields.required "message" Json.asText? = some diagnostic.message :=
    hold.required (by simp) (Json.asText?_text _)
  have location :
      fields.optionalInPlace "location" Location.ofJson? = some diagnostic.location :=
    hold.optionalInPlace (by simp) rfl id
      (Json.optionFieldOf_ofOption fun location given =>
        Location.ofJson?_toJson (fits location given))
  have subject : fields.optionalInPlace "subject" Json.asText? = some diagnostic.subject :=
    hold.optionalInPlace (by simp) rfl id
      (Json.optionFieldOf_map fun content _ => Json.asText?_text content)
  simp [ofJson?, read, code, severity, message, location, subject]

theorem writable_toJson (diagnostic : Diagnostic) : diagnostic.toJson.Writable := by
  obtain ⟨code, severity, message, location, subject⟩ := diagnostic
  cases subject <;>
    simp [toJson, Json.memberIfSome, DiagnosticCode.toJson, Severity.toJson,
      Location.writable_toJson]

end Diagnostic

namespace ReportVersion

/-- The numbers of a version have 32 bits. -/
structure Fits (version : ReportVersion) : Prop where
  major : version.major < UInt32.size
  minor : version.minor < UInt32.size

theorem ofJson?_toJson {version : ReportVersion} (fits : version.Fits) :
    ofJson? version.toJson = some version := by
  have record : Json.RecordOf
      [("major", some (.nat version.major)), ("minor", some (.nat version.minor))]
      version.toJson :=
    Json.recordOf_given _
  obtain ⟨fields, read, hold⟩ :=
    Json.fields?_of_recordOf ["major", "minor"] record rfl (by decide)
  have major : fields.required "major" (Json.asNatBelow? UInt32.size) = some version.major :=
    hold.required (by simp) (Json.asNatBelow?_nat fits.major)
  have minor : fields.required "minor" (Json.asNatBelow? UInt32.size) = some version.minor :=
    hold.required (by simp) (Json.asNatBelow?_nat fits.minor)
  simp [ofJson?, read, major, minor]

theorem writable_toJson (version : ReportVersion) : version.toJson.Writable := by
  simp [toJson]

end ReportVersion

namespace ReportSummary

/-- The counters have 64 bits. -/
structure Fits (summary : ReportSummary) : Prop where
  totalFiles : summary.totalFiles < UInt64.size
  filesSkipped : summary.filesSkipped < UInt64.size
  totalLinksChecked : summary.totalLinksChecked < UInt64.size
  unresolved : summary.unresolved < UInt64.size

theorem ofJson?_toJson {summary : ReportSummary} (fits : summary.Fits) :
    ofJson? summary.toJson = some summary := by
  have record : Json.RecordOf
      [("total_files", some (.nat summary.totalFiles)),
        ("files_skipped", some (.nat summary.filesSkipped)),
        ("total_links_checked", some (.nat summary.totalLinksChecked)),
        ("unresolved", some (.nat summary.unresolved))] summary.toJson :=
    Json.recordOf_given _
  obtain ⟨fields, read, hold⟩ :=
    Json.fields?_of_recordOf
      ["total_files", "files_skipped", "total_links_checked", "unresolved"] record rfl
      (by decide)
  have totalFiles : fields.required "total_files" Json.asCounter? = some summary.totalFiles :=
    hold.required (by simp) (Json.asNatBelow?_nat fits.totalFiles)
  have filesSkipped :
      fields.required "files_skipped" Json.asCounter? = some summary.filesSkipped :=
    hold.required (by simp) (Json.asNatBelow?_nat fits.filesSkipped)
  have totalLinksChecked :
      fields.required "total_links_checked" Json.asCounter? = some summary.totalLinksChecked :=
    hold.required (by simp) (Json.asNatBelow?_nat fits.totalLinksChecked)
  have unresolved : fields.required "unresolved" Json.asCounter? = some summary.unresolved :=
    hold.required (by simp) (Json.asNatBelow?_nat fits.unresolved)
  simp [ofJson?, read, totalFiles, filesSkipped, totalLinksChecked, unresolved]

theorem writable_toJson (summary : ReportSummary) : summary.toJson.Writable := by
  simp [toJson]

end ReportSummary

namespace UnresolvedLink

/-- The line has 64 bits. -/
def Fits (link : UnresolvedLink) : Prop := link.line < UInt64.size

theorem ofJson?_toJson {link : UnresolvedLink} (fits : link.Fits) :
    ofJson? link.toJson = some link := by
  have record : Json.RecordOf
      [("file", some (.text link.file)), ("line", some (.nat link.line)),
        ("raw_path", some (.text link.rawPath)), ("code", some link.code.toJson),
        ("reason", some (.text link.reason))] link.toJson :=
    Json.recordOf_given _
  obtain ⟨fields, read, hold⟩ :=
    Json.fields?_of_recordOf ["file", "line", "raw_path", "code", "reason"] record rfl
      (by decide)
  have file : fields.required "file" Json.asText? = some link.file :=
    hold.required (by simp) (Json.asText?_text _)
  have line : fields.required "line" Json.asCounter? = some link.line :=
    hold.required (by simp) (Json.asNatBelow?_nat fits)
  have rawPath : fields.required "raw_path" Json.asText? = some link.rawPath :=
    hold.required (by simp) (Json.asText?_text _)
  have code : fields.required "code" DiagnosticCode.ofJson? = some link.code :=
    hold.required (by simp) link.code.ofJson?_toJson
  have reason : fields.required "reason" Json.asText? = some link.reason :=
    hold.required (by simp) (Json.asText?_text _)
  simp [ofJson?, read, file, line, rawPath, code, reason]

theorem writable_toJson (link : UnresolvedLink) : link.toJson.Writable := by
  simp [toJson, DiagnosticCode.toJson]

end UnresolvedLink

namespace Report

/-- All numbers of the report fit: 32 bits for those of the version, 64 for all others. -/
structure Fits (report : Report) : Prop where
  version : report.version.Fits
  summary : report.summary.Fits
  unresolved : ∀ link ∈ report.unresolved, link.Fits
  warnings : ∀ warning ∈ report.warnings, warning.Fits

theorem ofJsonValue?_toJsonValue {report : Report} (fits : report.Fits) :
    ofJsonValue? report.toJsonValue = some report := by
  have record : Json.RecordOf
      [("version", some report.version.toJson), ("timestamp", some (.text report.timestamp)),
        ("summary", some report.summary.toJson),
        ("unresolved", some (Json.ofList UnresolvedLink.toJson report.unresolved)),
        ("warnings", some (Json.ofList Diagnostic.toJson report.warnings))]
      report.toJsonValue :=
    Json.recordOf_given _
  obtain ⟨fields, read, hold⟩ :=
    Json.fields?_of_recordOf ["version", "timestamp", "summary", "unresolved", "warnings"]
      record rfl (by decide)
  have version : fields.required "version" ReportVersion.ofJson? = some report.version :=
    hold.required (by simp) (ReportVersion.ofJson?_toJson fits.version)
  have timestamp : fields.required "timestamp" Json.asText? = some report.timestamp :=
    hold.required (by simp) (Json.asText?_text _)
  have summary : fields.required "summary" ReportSummary.ofJson? = some report.summary :=
    hold.required (by simp) (ReportSummary.ofJson?_toJson fits.summary)
  have unresolved :
      fields.required "unresolved" (Json.asList? UnresolvedLink.ofJson?) =
        some report.unresolved :=
    hold.required (by simp)
      (Json.asList?_of_listOf id (Json.listOf_ofList fun link listed =>
        UnresolvedLink.ofJson?_toJson (fits.unresolved link listed)))
  have warnings :
      fields.withDefault "warnings" (Json.asList? Diagnostic.ofJson?) [] =
        some report.warnings :=
    hold.withDefault (by simp) id
      (.given (Json.listOf_ofList fun warning listed =>
        Diagnostic.ofJson?_toJson (fits.warnings warning listed)))
  simp [ofJsonValue?, read, version, timestamp, summary, unresolved, warnings]

theorem writable_toJsonValue (report : Report) : report.toJsonValue.Writable := by
  simp [toJsonValue, ReportVersion.writable_toJson, ReportSummary.writable_toJson,
    UnresolvedLink.writable_toJson, Diagnostic.writable_toJson]

/-- The document of a report is read back as the same report. -/
theorem ofJson?_toJson_of_fits (report : Report) (fits : report.Fits) :
    ofJson? report.toJson = some report := by
  have written : Json.Writes report.toJson.toList report.toJsonValue :=
    Json.writes_pretty report.writable_toJsonValue
  rw [ofJson?, Json.read?_of_writes written]
  exact ofJsonValue?_toJsonValue fits

/-- The largest numbers, characters that are escaped and others that are not, and warnings
    with and without location, line, column and subject. -/
theorem ofJson?_toJson_of_fits_at_limits :
    let report : Report :=
      { version := ⟨4294967295, 0⟩
        timestamp := "2024-02-29T23:59:60Z"
        summary := ⟨18446744073709551615, 2, 1, 1⟩
        unresolved :=
          [⟨"dir\\ä.adoc", 18446744073709551615, "s.\"\u0001\n", .linkNotNavigable, ""⟩]
        warnings :=
          [⟨.fileUnreadable, .warn, "\t😀", some ⟨"b.adoc", none, some 7⟩, none⟩,
           ⟨.asciiNonAsciiCharacter, .info, "/", some ⟨"", some 0, none⟩, some ""⟩,
           ⟨.fileUnreadable, .error, "\x7f", none, some "null"⟩] }
    ofJson? report.toJson = some report := by
  intro report
  have fits : report.Fits := by
    refine ⟨⟨by decide, by decide⟩, ⟨by decide, by decide, by decide, by decide⟩, ?_, ?_⟩
    · simp +decide [report, UnresolvedLink.Fits]
    · simp +decide [report, Diagnostic.Fits, Location.fits_iff]
  exact ofJson?_toJson_of_fits report fits

end Report

end ExpressLinks
