import ExpressLinks.Command.Run
import ExpressLinks.Proofs.Corpus.Listed

/-!
# Running what commands share

Loading a configuration, a manifest or a corpus writes no file; at most something is
mentioned. What is loaded depends on the files alone, so what was mentioned before changes
nothing. The exit code is that of the command, if the configuration can be loaded.
-/

namespace ExpressLinks

namespace Corpus

/-- Loading a corpus leaves the world as it is, and does not look at what was mentioned. -/
theorem loadManifest_run (extension : String) (manifest : Manifest) (world : World)
    (errors : String) :
    (loadManifest extension manifest : Simulation _) { world with errors } =
      (((loadManifest extension manifest : Simulation _) world).1, { world with errors }) := by
  have steady := steady_document extension
  rcases allLoad_or_firstFailure (world.document extension) (manifest.schemaPaths.map (·.2)) with
    ⟨loaded, all⟩ | ⟨before, path, error, first⟩
  · have later : AllLoad (World.document { world with errors } extension) _ loaded := all
    rw [loadManifest, steady.load_of_allLoad all, steady.load_of_allLoad later,
      List.foldl_fixed]
  · have later : FirstFailure (World.document { world with errors } extension) _ before path
      error := first
    rw [loadManifest, steady.load_of_firstFailure first, steady.load_of_firstFailure later,
      List.foldl_fixed]

end Corpus

/-- The configuration with which a command runs. -/
def World.Configured (world : World) (given : Option String) (verbose : Bool) (config : Config) :
    Prop :=
  ((Command.loadConfig given verbose : Simulation (Except Failure Config)) world).1 = .ok config

/-- The manifest at a path is read, and its corpus is loaded. -/
structure World.Loads (world : World) (extension path : String) (manifest : Manifest)
    (corpus : Corpus) : Prop where
  read : Manifest.ofReading path (FileTree.textOf (world.read path)) = .ok manifest
  loaded : ((Corpus.loadManifest extension manifest : Simulation _) world).1 = .ok corpus

section Unique

variable {world : World} {given : Option String} {verbose : Bool} {config other : Config}
  {extension path : String} {manifest manifest' : Manifest} {corpus corpus' : Corpus}

theorem World.Configured.unique (h : world.Configured given verbose config)
    (h' : world.Configured given verbose other) : other = config :=
  Except.ok.inj (h'.symm.trans h)

theorem World.Loads.unique (h : world.Loads extension path manifest corpus)
    (h' : world.Loads extension path manifest' corpus') :
    manifest' = manifest ∧ corpus' = corpus := by
  obtain rfl : manifest' = manifest := Except.ok.inj (h'.read.symm.trans h.read)
  exact ⟨rfl, Except.ok.inj (h'.loaded.symm.trans h.loaded)⟩

/-- There is only one configuration under which a project can be loaded. -/
theorem World.Configured.exists_loads_iff (h : world.Configured given verbose config) :
    (∃ other manifest corpus, world.Configured given verbose other ∧
      world.Loads other.parsedExtension path manifest corpus) ↔
      ∃ manifest corpus, world.Loads config.parsedExtension path manifest corpus := by
  constructor
  · rintro ⟨other, manifest, corpus, h', loads⟩
    rw [h.unique h'] at loads
    exact ⟨manifest, corpus, loads⟩
  · rintro ⟨manifest, corpus, loads⟩
    exact ⟨config, manifest, corpus, h, loads⟩

end Unique

namespace Command

variable {config : Config} {path : String} {world : World}

/-- Loading the configuration says something at most. -/
theorem loadConfig_world (given : Option String) (verbose : Bool) (world : World) :
    ∃ errors, ((loadConfig given verbose : Simulation (Except Failure Config)) world).2 =
      { world with errors } := by
  cases given with
  | some path =>
      simp only [loadConfig, Simulation.bind_run]
      cases ((Config.load path : Simulation (Except ConfigError Config)) world).1 with
      | error error => exact ⟨world.errors, rfl⟩
      | ok config => exact ⟨world.errors, rfl⟩
  | none =>
      simp only [loadConfig, Simulation.bind_run]
      by_cases present : ((Machine.list? configPath : Simulation _) world).1.isSome = true
      · rw [if_pos present, Simulation.bind_run]
        cases ((Config.load configPath : Simulation (Except ConfigError Config))
          ((Machine.list? configPath : Simulation _) world).2).1 with
        | error error => exact ⟨world.errors, rfl⟩
        | ok config => exact ⟨world.errors, rfl⟩
      · rw [if_neg present]
        cases verbose with
        | false => exact ⟨world.errors, rfl⟩
        | true => exact ⟨_, rfl⟩

/-- A manifest and its corpus are loaded in any world with the same files, or one of them
    is not and the world stays. -/
theorem loadCorpus_run (config : Config) (path : String) (world : World) :
    (∃ manifest corpus, world.Loads config.parsedExtension path manifest corpus ∧
      ∀ errors, (loadCorpus config path : Simulation _) { world with errors } =
        (.ok (manifest, corpus), { world with errors })) ∨
    (¬ ∃ manifest corpus, world.Loads config.parsedExtension path manifest corpus) ∧
      ∃ failure, ∀ errors, (loadCorpus config path : Simulation _) { world with errors } =
        (.error failure, { world with errors }) := by
  have read : ∀ errors, (Manifest.load path : Simulation _) { world with errors } =
      (Manifest.ofReading path (FileTree.textOf (world.read path)), { world with errors }) :=
    fun _ => rfl
  cases manifestRead : Manifest.ofReading path (FileTree.textOf (world.read path)) with
  | error error =>
      refine .inr ⟨?_, .manifest path error, ?_⟩
      · rintro ⟨manifest, corpus, loads⟩
        cases manifestRead.symm.trans loads.read
      · intro errors
        rw [loadCorpus, Simulation.bind_run, read, manifestRead]
        rfl
  | ok manifest =>
      have run := Corpus.loadManifest_run config.parsedExtension manifest world
      cases loaded : ((Corpus.loadManifest config.parsedExtension manifest :
          Simulation _) world).1 with
      | error error =>
          refine .inr ⟨?_, .corpus error, ?_⟩
          · rintro ⟨other, corpus, loads⟩
            obtain rfl : manifest = other := Except.ok.inj (manifestRead.symm.trans loads.read)
            cases loaded.symm.trans loads.loaded
          · intro errors
            simp only [loadCorpus, Simulation.bind_run, read, manifestRead]
            rw [run, loaded]
            rfl
      | ok corpus =>
          refine .inl ⟨manifest, corpus, ⟨manifestRead, loaded⟩, ?_⟩
          intro errors
          simp only [loadCorpus, Simulation.bind_run, read, manifestRead]
          rw [run, loaded]
          rfl

end Command

namespace Invocation

/-- The exit code is that of the command, if the configuration can be loaded. -/
theorem exitCode_run (invocation : Invocation) (world : World) :
    ((invocation.exitCode : Simulation Nat) world).1 =
      ((invocation.perform : Simulation Ending) world).1.code := by
  simp only [exitCode, Simulation.bind_run]
  cases ((invocation.perform : Simulation Ending) world).1 with
  | error failure => rfl
  | ok verdict => rfl

/-- A failure is mentioned after the command. -/
theorem exitCode_world (invocation : Invocation) (world : World) :
    ∃ errors, ((invocation.exitCode : Simulation Nat) world).2 =
      { ((invocation.perform : Simulation Ending) world).2 with errors } := by
  simp only [exitCode, Simulation.bind_run]
  cases ((invocation.perform : Simulation Ending) world).1 with
  | error failure => exact ⟨_, rfl⟩
  | ok verdict => exact ⟨_, rfl⟩

end Invocation

section Arguments

variable {arguments : List String} {given : Option String} {verbose : Bool} {command : Command}
  {config : Config} {world : World}

theorem runArguments_run {invocation : Invocation}
    (asked : Invocation.ofArguments? arguments = some invocation) (world : World) :
    ∃ errors, (runArguments arguments : Simulation Nat) world =
      (((invocation.perform : Simulation Ending) world).1.code,
        { ((invocation.perform : Simulation Ending) world).2 with errors }) := by
  obtain ⟨errors, after⟩ := invocation.exitCode_world world
  refine ⟨errors, ?_⟩
  rw [← invocation.exitCode_run, ← after, runArguments, asked]
  rfl

/-- A command line runs its command under the configuration that was loaded. -/
theorem runArguments_of_configured
    (asked : Invocation.ofArguments? arguments = some { config := given, verbose, command })
    (configured : world.Configured given verbose config) :
    ∃ errors later, (runArguments arguments : Simulation Nat) world =
      (((command.run config verbose : Simulation Ending) { world with errors }).1.code,
        { ((command.run config verbose : Simulation Ending) { world with errors }).2 with
          errors := later }) := by
  obtain ⟨later, ran⟩ := runArguments_run asked world
  obtain ⟨errors, after⟩ := Command.loadConfig_world given verbose world
  refine ⟨errors, later, ?_⟩
  rw [ran, Invocation.perform, Simulation.bind_run, after, configured]

/-- Without a configuration a command line fails, and no file is written. -/
theorem runArguments_of_not_configured
    (asked : Invocation.ofArguments? arguments = some { config := given, verbose, command })
    (fails : ¬ ∃ config, world.Configured given verbose config) :
    ∃ errors, (runArguments arguments : Simulation Nat) world = (2, { world with errors }) := by
  obtain ⟨later, ran⟩ := runArguments_run asked world
  obtain ⟨errors, after⟩ := Command.loadConfig_world given verbose world
  refine ⟨later, ?_⟩
  cases loaded : ((Command.loadConfig given verbose :
      Simulation (Except Failure Config)) world).1 with
  | error failure =>
      rw [ran, Invocation.perform, Simulation.bind_run, after, loaded]
      rfl
  | ok config => exact absurd ⟨config, loaded⟩ fails

end Arguments

end ExpressLinks
