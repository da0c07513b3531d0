import Mathlib
import ExpressLinks.Proofs.Command.Delivery
import ExpressLinks.Proofs.Command.Project
import ExpressLinks.Proofs.Report.Links

/-!
# How link validation ends

The exit code says which of three things is the case: something that is needed cannot be
loaded, or a report that is asked for cannot be written; or else a file that can be read
holds a marker whose path does not resolve; or else none does. Nothing further decides
it: not the number of workers, the severities, the files that cannot be read, nor the
text report.
-/

namespace ExpressLinks

namespace World

variable {world : World} {corpus : Corpus} {files : List String}

/-- What reading the files gives. -/
def readings (world : World) (files : List String) : List Validation.Reading :=
  files.map fun file => (file, FileTree.textOf (world.read file))

/-- One of the files can be read and holds a marker whose path does not resolve. -/
def HasUnresolved (world : World) (corpus : Corpus) (files : List String) : Prop :=
  ∃ file ∈ files, ∃ text, FileTree.textOf (world.read file) = .ok text ∧
    ∃ occurrence ∈ Marker.occurrences text, corpus.resolve occurrence.marker.path ≠ .resolved

/-- The files that are validated: the documents at and below a path, then those of the
    manifest. -/
def validated (world : World) (config : Config) (documents : String) (manifest : Manifest) :
    List String :=
  Command.findDocuments config documents (world.list? documents) ++ manifest.schemaPaths.map (·.2)

theorem isClean_report_readings_iff (world : World) (corpus : Corpus) (files : List String)
    (jobs : Nat) (timestamp : String) :
    (Validation.report corpus jobs (world.readings files) timestamp).isClean = true ↔
      ¬ world.HasUnresolved corpus files := by
  rw [Validation.isClean_report_iff]
  constructor
  · rintro clean ⟨file, member, text, read, occurrence, found, unresolved⟩
    have listed : (file, .ok text) ∈ world.readings files :=
      List.mem_map.mpr ⟨file, member, by rw [read]⟩
    have resolved := clean file text listed occurrence found
    cases outcome : corpus.resolve occurrence.marker.path with
    | resolved => exact unresolved outcome
    | unresolved segment reason => simp [outcome, Resolution.isResolved] at resolved
  · intro none file text listed occurrence found
    obtain ⟨file, member, same⟩ := List.mem_map.mp listed
    obtain ⟨rfl, read⟩ := Prod.mk.inj same
    by_contra unresolved
    refine none ⟨_, member, text, read, occurrence, found, ?_⟩
    intro resolved
    exact unresolved (by rw [resolved]; rfl)

end World

namespace Command

variable {config : Config} {task : LinksTask} {world : World} {errors : String}
  {manifest : Manifest} {corpus : Corpus}

theorem readAll_run (files : List String) (world : World) :
    (readAll files : Simulation _) world = (world.readings files, world) := by
  induction files with
  | nil => rfl
  | cons file rest ih =>
      simp only [readAll, Simulation.bind_run, Simulation.readText_run, ih, Simulation.pure_run]
      rfl

/-- What is announced first is mentioned, and changes nothing else. -/
theorem runLinks_quiet (config : Config) (task : LinksTask) (world : World) (errors : String) :
    ∃ later, (runLinks config task : Simulation Ending) { world with errors } =
      (runLinks config { task with verbose := false } : Simulation Ending)
        { world with errors := later } := by
  obtain ⟨path, documents, output, json, markdown, jobs, verbose⟩ := task
  cases verbose with
  | false => exact ⟨errors, rfl⟩
  | true => exact ⟨_, rfl⟩

/-- A project that is loaded is validated, and the report is delivered. -/
theorem runLinks_of_loads (config : Config) (task : LinksTask)
    (loads : world.Loads config.parsedExtension task.manifest manifest corpus) (errors : String) :
    ∃ later, (runLinks config task : Simulation Ending) { world with errors } =
      (deliver config task (Validation.report corpus task.jobs
        (world.readings (world.validated config task.documents manifest)) world.clock) :
        Simulation Ending) { world with errors := later } := by
  rcases loadCorpus_run config task.manifest world with ⟨_, _, loads', run⟩ | ⟨fails, -⟩
  · obtain ⟨rfl, rfl⟩ := loads.unique loads'
    obtain ⟨later, quiet⟩ := runLinks_quiet config task world errors
    have listed : (Machine.list? task.documents : Simulation _) { world with errors := later } =
      (world.list? task.documents, { world with errors := later }) := rfl
    refine ⟨later, ?_⟩
    rw [quiet]
    simp only [runLinks, Bool.false_eq_true, if_false, Simulation.bind_run, run, listed,
      readAll_run]
    rfl
  · exact absurd ⟨manifest, corpus, loads⟩ fails

/-- Where the manifest or the corpus cannot be loaded, no file is written. -/
theorem runLinks_of_not_loads (config : Config) (task : LinksTask)
    (fails : ¬ ∃ manifest corpus, world.Loads config.parsedExtension task.manifest manifest corpus)
    (errors : String) :
    ∃ failure later, (runLinks config task : Simulation Ending) { world with errors } =
      (.error failure, { world with errors := later }) := by
  rcases loadCorpus_run config task.manifest world with ⟨_, _, loads, -⟩ | ⟨-, failure, run⟩
  · exact absurd ⟨_, _, loads⟩ fails
  · obtain ⟨later, quiet⟩ := runLinks_quiet config task world errors
    refine ⟨failure, later, ?_⟩
    rw [quiet]
    simp only [runLinks, Bool.false_eq_true, if_false, Simulation.bind_run, run]
    rfl

section Code

/-- Something that is needed cannot be loaded, or a report cannot be written. -/
def CannotValidate (world : World) (config : Config) (task : LinksTask) : Prop :=
  (¬ ∃ manifest corpus, world.Loads config.parsedExtension task.manifest manifest corpus) ∨
    ¬ world.CanReport task.json task.markdown

theorem runLinks_code_of_cannotValidate (fails : CannotValidate world config task)
    (errors : String) :
    ((runLinks config task : Simulation Ending) { world with errors }).1.code = 2 := by
  by_cases loaded :
      ∃ manifest corpus, world.Loads config.parsedExtension task.manifest manifest corpus
  · have unwritable := fails.resolve_left (not_not_intro loaded)
    obtain ⟨manifest, corpus, loads⟩ := loaded
    obtain ⟨later, run⟩ := runLinks_of_loads config task loads errors
    have still : ¬ World.CanReport { world with errors := later } task.json task.markdown :=
      fun writable => unwritable (writable.of_canWrite fun _ => id)
    obtain ⟨failure, tree, delivered⟩ := deliver_of_not_canReport config _ rfl still
    rw [run, delivered]
    rfl
  · obtain ⟨failure, later, run⟩ := runLinks_of_not_loads config task loaded errors
    rw [run]
    rfl

/-- Otherwise the markers in the files decide the code. -/
theorem runLinks_code_of_loads (config : Config) (task : LinksTask)
    (loads : world.Loads config.parsedExtension task.manifest manifest corpus)
    (writable : world.CanReport task.json task.markdown) (errors : String) :
    ((runLinks config task : Simulation Ending) { world with errors }).1.code =
      if (Validation.report corpus task.jobs (world.readings
        (world.validated config task.documents manifest)) world.clock).isClean then 0 else 1 := by
  obtain ⟨later, run⟩ := runLinks_of_loads config task loads errors
  have still : World.CanReport { world with errors := later } task.json task.markdown :=
    writable.of_canWrite fun _ => id
  obtain ⟨tree, delivered, -⟩ := deliver_of_canReport config _ rfl still
  rw [run, delivered]
  split <;> rfl

theorem runLinks_code_eq_two_iff (config : Config) (task : LinksTask) (world : World)
    (errors : String) :
    ((runLinks config task : Simulation Ending) { world with errors }).1.code = 2 ↔
      CannotValidate world config task := by
  constructor
  · intro failed
    by_contra succeeds
    obtain ⟨loaded, writable⟩ := not_or.mp succeeds
    obtain ⟨manifest, corpus, loads⟩ := not_not.mp loaded
    rw [runLinks_code_of_loads config task loads (not_not.mp writable)] at failed
    split at failed <;> omega
  · intro fails
    exact runLinks_code_of_cannotValidate fails errors

theorem runLinks_code_iff (config : Config) (task : LinksTask)
    (loads : world.Loads config.parsedExtension task.manifest manifest corpus)
    (writable : world.CanReport task.json task.markdown) (errors : String) :
    let unresolved := world.HasUnresolved corpus (world.validated config task.documents manifest)
    let code := ((runLinks config task : Simulation Ending) { world with errors }).1.code
    (code = 1 ↔ unresolved) ∧ (code = 0 ↔ ¬ unresolved) := by
  intro unresolved code
  have clean := World.isClean_report_readings_iff world corpus
    (world.validated config task.documents manifest) task.jobs world.clock
  have decided : code = _ := runLinks_code_of_loads config task loads writable errors
  rw [decided]
  by_cases has : unresolved
  · rw [if_neg (fun isClean => clean.mp isClean has)]
    simp [has]
  · rw [if_pos (clean.mpr has)]
    simp [has]

/-- Nothing further decides the code: neither the workers nor the severities, nor where the
    text report goes. -/
theorem runLinks_code_congr (config other : Config) (task task' : LinksTask) (world : World)
    (extension : other.parsedExtension = config.parsedExtension)
    (path : task'.manifest = task.manifest)
    (files : ∀ manifest, world.validated other task'.documents manifest =
      world.validated config task.documents manifest)
    (json : task'.json = task.json) (markdown : task'.markdown = task.markdown)
    (errors later : String) :
    ((runLinks other task' : Simulation Ending) { world with errors }).1.code =
      ((runLinks config task : Simulation Ending) { world with errors := later }).1.code := by
  by_cases fails : CannotValidate world config task
  · have fails' : CannotValidate world other task' := by
      rwa [CannotValidate, extension, path, json, markdown]
    rw [runLinks_code_of_cannotValidate fails, runLinks_code_of_cannotValidate fails']
  · obtain ⟨loaded, writable⟩ := not_or.mp fails
    obtain ⟨manifest, corpus, loads⟩ := not_not.mp loaded
    have loads' : world.Loads other.parsedExtension task'.manifest manifest corpus := by
      rwa [extension, path]
    have writable' : world.CanReport task'.json task'.markdown := by
      rw [json, markdown]
      exact not_not.mp writable
    rw [runLinks_code_of_loads config task loads (not_not.mp writable),
      runLinks_code_of_loads other task' loads' writable', files, Validation.report_eq_extend,
      Validation.report_eq_extend]

/-- The text report is in its file if that can be written, and is shown before the summary
    if not. -/
theorem runLinks_text (config : Config) (task : LinksTask)
    (loads : world.Loads config.parsedExtension task.manifest manifest corpus) (errors : String) :
    let ran := (runLinks config task : Simulation Ending) { world with errors }
    let files := world.validated config task.documents manifest
    let report := Validation.report corpus 1 (world.readings files) world.clock
    let summary := if ran.1.code = 2 then "" else report.toSummary
    (world.CanWrite task.output → ran.2.output = world.output ++ summary ∧
      (task.json = none → task.markdown = none →
        ran.2.read task.output = .ok (Text.Utf8.encode report.toText.toList))) ∧
    (¬ world.CanWrite task.output →
      ran.2.output = world.output ++ (report.toText ++ "\n") ++ summary) := by
  intro ran files report summary
  obtain ⟨later, run⟩ := runLinks_of_loads config task loads errors
  have alone : Validation.report corpus task.jobs (world.readings files) world.clock = report := by
    rw [Validation.report_eq_extend, ← Validation.report_eq_extend corpus 1]
  have same : ran =
      (deliver config task report : Simulation Ending) { world with errors := later } := by
    rw [← alone]
    exact run
  constructor
  · intro writable
    have still : World.CanWrite { world with errors := later } task.output := writable
    obtain ⟨tree, mentioned, text, -, holds⟩ := deliverText_of_canWrite report still
    obtain ⟨last, after, untouched⟩ := deliver_world config report text
    rw [← same] at after
    refine ⟨by rw [after], ?_⟩
    intro noJson noMarkdown
    rw [after, untouched noJson noMarkdown]
    exact holds
  · intro unwritable
    have still : ¬ World.CanWrite { world with errors := later } task.output := unwritable
    obtain ⟨mentioned, text⟩ := deliverText_of_not_canWrite report still
    obtain ⟨last, after, -⟩ := deliver_world config report text
    rw [← same] at after
    rw [after]

end Code

/-- What a command line and a configuration set together. -/
def linksTask (config : Config) (verbose : Bool) (path : String)
    (documents output json markdown : Option String) (jobs : Option Nat) : LinksTask where
  manifest := path
  documents := documents.getD (config.resolvePath config.documentsDir)
  output := output.getD (config.resolvePath config.output)
  json
  markdown
  jobs := max (jobs.getD config.jobs) 1
  verbose

theorem run_links (config : Config) (verbose : Bool) (path : String)
    (documents output json markdown : Option String) (jobs : Option Nat) :
    (run config verbose (.links path documents output json markdown jobs) : Simulation Ending) =
      runLinks config (linksTask config verbose path documents output json markdown jobs) := rfl

end Command

/-- Link validation ends with two exactly when the configuration, the manifest or the
    corpus cannot be loaded, or a report that is asked for cannot be written; otherwise
    with one if a file that can be read holds a marker whose path does not resolve, and
    with zero if none does. Once the configuration is loaded, other severities, workers
    and places for the text report give the same code. The text report is written to its
    place, or shown before the summary. If something cannot be loaded, no file is
    touched. -/
theorem runArguments_links_code {arguments : List String} {given : Option String} {verbose : Bool}
    {path : String} {documents output json markdown : Option String} {jobs : Option Nat}
    (asked : Invocation.ofArguments? arguments =
      some { config := given, verbose, command := .links path documents output json markdown jobs })
    (world : World) :
    let ran := (runArguments arguments : Simulation Nat) world
    let loaded := ∃ config manifest corpus, world.Configured given verbose config ∧
      world.Loads config.parsedExtension path manifest corpus
    (ran.1 = 2 ↔ ¬ loaded ∨ ¬ world.CanReport json markdown) ∧
    (¬ loaded → ran.2.tree = world.tree) ∧
    ∀ config, world.Configured given verbose config →
      (∀ severity workers place output' jobs',
        ((Command.run { config with severity, jobs := workers, output := place } verbose
          (.links path documents output' json markdown jobs') : Simulation Ending) world).1.code =
          ran.1) ∧
      ∀ manifest corpus, world.Loads config.parsedExtension path manifest corpus →
        let files := world.validated config
          (documents.getD (config.resolvePath config.documentsDir)) manifest
        let target := output.getD (config.resolvePath config.output)
        let report := Validation.report corpus 1 (world.readings files) world.clock
        let summary := if ran.1 = 2 then "" else report.toSummary
        (world.CanReport json markdown →
          (ran.1 = 1 ↔ world.HasUnresolved corpus files) ∧
          (ran.1 = 0 ↔ ¬ world.HasUnresolved corpus files)) ∧
        (world.CanWrite target → ran.2.output = world.output ++ summary ∧
          (json = none → markdown = none →
            ran.2.read target = .ok (Text.Utf8.encode report.toText.toList))) ∧
        (¬ world.CanWrite target →
          ran.2.output = world.output ++ (report.toText ++ "\n") ++ summary) := by
  intro ran loaded
  by_cases configured : ∃ config, world.Configured given verbose config
  · obtain ⟨config, configured⟩ := configured
    let task := Command.linksTask config verbose path documents output json markdown jobs
    obtain ⟨errors, later, run⟩ := runArguments_of_configured asked configured
    -- The end of the run and the world behind it are named, so that no step runs it again.
    obtain ⟨ending, rest, linked⟩ : ∃ ending rest,
        (Command.runLinks config task : Simulation Ending) { world with errors } = (ending, rest) :=
      ⟨_, _, rfl⟩
    have ended : ran = (ending.code, { rest with errors := later }) := by
      rw [Command.run_links, linked] at run
      exact run
    have two := Command.runLinks_code_eq_two_iff config task world errors
    rw [linked] at two
    have loads_iff : loaded ↔ _ := configured.exists_loads_iff
    rw [ended, loads_iff]
    refine ⟨two, ?_, ?_⟩
    · intro fails
      obtain ⟨failure, mentioned, failed⟩ := Command.runLinks_of_not_loads config task fails errors
      rw [linked] at failed
      rw [(Prod.mk.inj failed).2]
    intro other configured'
    rw [configured.unique configured']
    constructor
    · intro severity workers place output' jobs'
      let settings : Config := { config with severity, jobs := workers, output := place }
      have same := Command.runLinks_code_congr config settings task
        (Command.linksTask settings verbose path documents output' json markdown jobs') world
        rfl rfl (fun _ => rfl) rfl rfl world.errors errors
      rw [linked] at same
      exact same
    · intro manifest corpus loads
      have text := Command.runLinks_text config task loads errors
      simp only [linked] at text
      refine ⟨?_, text⟩
      intro writable
      have decided := Command.runLinks_code_iff config task loads writable errors
      rw [linked] at decided
      exact decided
  · obtain ⟨errors, run⟩ := runArguments_of_not_configured asked configured
    have failed : ran = (2, { world with errors }) := run
    have fails : ¬ loaded := by
      rintro ⟨config, -, -, configured', -⟩
      exact configured ⟨config, configured'⟩
    rw [failed]
    refine ⟨iff_of_true rfl (.inl fails), fun _ => rfl, ?_⟩
    intro config configured'
    exact absurd ⟨config, configured'⟩ configured

/-- One worker is enough when none are asked for, a file that is no text is passed over, and
    the text report is shown because its directory is missing. The second marker decides. -/
theorem runArguments_links_code_text_shown :
    let arguments := ["validate", "links", "m.yml", "docs", "out/links.txt", "--jobs", "0",
      "--json", "links.json"]
    let world : World :=
      { tree := .directory
          [("m.yml", .file (Text.Utf8.encode "schemas:\n  plant:\n    path: plant.exp\n".toList)),
           ("plant.exp", .file [0xE9]),
           ("plant.json", .file (Text.Utf8.encode
              "\x7b\"schemas\": [\x7b\"id\": \"plant\"\x7d]\x7d".toList)),
           ("docs", .directory [("a.adoc", .file (Text.Utf8.encode
              "<<express:plant>> <<express:cell>>".toList))])] }
    let ran := (runArguments arguments : Simulation Nat) world
    let corpus : Corpus := ⟨[("plant", { id := "plant" })]⟩
    let report := Validation.report corpus 1 (world.readings ["docs/a.adoc", "plant.exp"]) ""
    Invocation.ofArguments? arguments = some
      { config := none
        verbose := false
        command := .links "m.yml" (some "docs") (some "out/links.txt") (some "links.json") none
          (some 0) } ∧
    FileTree.textOf (world.read "plant.exp") = .error .notText ∧
    ran.1 = 1 ∧ ran.2.output = report.toText ++ "\n" ++ report.toSummary := by
  intro arguments world ran corpus report
  let manifest : Manifest := { location := some "m.yml", entries := [⟨"plant", "plant.exp"⟩] }
  have asked : Invocation.ofArguments? arguments = some
      { config := none
        verbose := false
        command := .links "m.yml" (some "docs") (some "out/links.txt") (some "links.json") none
          (some 0) } := by
    cbv
  have configured : world.Configured none false {} := by rfl
  have kept : (Manifest.ofReading "m.yml"
      (FileTree.textOf (world.read "m.yml"))).toOption = some manifest := by decide +kernel
  have read : Manifest.ofReading "m.yml" (FileTree.textOf (world.read "m.yml")) = .ok manifest := by
    cases found : Manifest.ofReading "m.yml" (FileTree.textOf (world.read "m.yml")) with
    | error error =>
        rw [found] at kept
        cases kept
    | ok other =>
        rw [found] at kept
        rw [Option.some.inj kept]
  have loads : world.Loads "json" "m.yml" manifest corpus := ⟨read, by decide +kernel⟩
  have files : world.validated {} "docs" manifest = ["docs/a.adoc", "plant.exp"] := by
    decide +kernel
  have writable : world.CanReport (some "links.json") none := by
    constructor
    · rintro path ⟨⟩ content
      exact ⟨_, rfl⟩
    · simp
  have unwritable : ¬ world.CanWrite "out/links.txt" := by
    intro canWrite
    obtain ⟨tree, written⟩ := canWrite []
    have missing : world.tree.write [] "out/links.txt" [] = .error .notFound := by rfl
    cases missing.symm.trans written
  have unresolved : world.HasUnresolved corpus ["docs/a.adoc", "plant.exp"] := by
    refine ⟨"docs/a.adoc", List.mem_cons_self, "<<express:plant>> <<express:cell>>".toList, ?_,
      ⟨⟨"cell", none⟩, 1⟩, ?_, ?_⟩
    · decide +kernel
    · decide +kernel
    · decide +kernel
  have noText : FileTree.textOf (world.read "plant.exp") = .error .notText := by rfl
  have quiet : world.output = "" := rfl
  have clock : world.clock = "" := rfl
  -- From here on these facts are enough, and nothing needs to be run.
  clear_value world arguments
  obtain ⟨-, -, ends⟩ := runArguments_links_code asked world
  obtain ⟨codes, -, shown⟩ := (ends {} configured).2 manifest corpus loads
  simp only [Option.getD_some, files, quiet, clock] at codes shown
  have one : ran.1 = 1 := (codes writable).1.mpr unresolved
  refine ⟨asked, noText, one, ?_⟩
  have output := shown unwritable
  rw [if_neg (by rw [one]; decide)] at output
  simpa using output

end ExpressLinks
