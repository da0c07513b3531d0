import ExpressLinks.Proofs.Ascii.Violations
import ExpressLinks.Proofs.Command.Project
import ExpressLinks.Proofs.Text.Utf8

/-!
# What a clean ASCII check says

The check ends with exit code zero exactly when the configuration could be loaded and
every file it selected that is UTF-8 text holds octets below `80` only. A file that is
not UTF-8 is mentioned and passed over: it can hold any octets, and the exit code is zero
all the same.
-/

namespace ExpressLinks

open Text

namespace FileTree

theorem textOf_eq_ok_iff {reading : Except FileError (List UInt8)} {text : List Char} :
    textOf reading = .ok text ↔
      ∃ octets, reading = .ok octets ∧ Utf8.decode octets = some text := by
  unfold textOf
  cases reading with
  | error error => simp
  | ok octets => cases decoded : Utf8.decode octets <;> simp [decoded]

end FileTree

namespace World

variable {world : World} {files : List String}

/-- The octets of the files, as far as they can be read, are those of ASCII. -/
def AllAscii (world : World) (files : List String) : Prop :=
  ∀ file ∈ files, ∀ octets, world.read file = .ok octets → ∀ octet ∈ octets, octet < 0x80

/-- The files, as far as they can be read, are UTF-8 text. -/
def AllText (world : World) (files : List String) : Prop :=
  ∀ file ∈ files, ∀ octets, world.read file = .ok octets → ∃ text, Utf8.decode octets = some text

/-- Those of the files that are UTF-8 text hold octets of ASCII only. -/
def TextsAscii (world : World) (files : List String) : Prop :=
  ∀ file ∈ files, ∀ octets text, world.read file = .ok octets →
    Utf8.decode octets = some text → ∀ octet ∈ octets, octet < 0x80

theorem allAscii_iff : world.AllAscii files ↔ world.TextsAscii files ∧ world.AllText files := by
  constructor
  · intro ascii
    refine ⟨fun file member octets _ read _ => ascii file member octets read, ?_⟩
    intro file member octets read
    exact Utf8.exists_decode_of_lt (ascii file member octets read)
  · rintro ⟨ascii, allText⟩ file member octets read
    obtain ⟨text, decoded⟩ := allText file member octets read
    exact ascii file member octets text read decoded

theorem textsAscii_iff :
    world.TextsAscii files ↔ ∀ file ∈ files, ∀ text,
      FileTree.textOf (world.read file) = .ok text → ∀ c ∈ text, c.toNat < 0x80 := by
  simp only [TextsAscii, FileTree.textOf_eq_ok_iff]
  constructor
  · rintro ascii file member text ⟨octets, read, decoded⟩
    rw [← Utf8.encode_lt_iff, Utf8.encode_of_decode_eq_some decoded]
    exact ascii file member octets text read decoded
  · intro ascii file member octets text read decoded
    rw [← Utf8.encode_of_decode_eq_some decoded, Utf8.encode_lt_iff]
    exact ascii file member text ⟨octets, read, decoded⟩

end World

namespace Command

theorem isClean_add_iff {report : Ascii.Report} {file : Ascii.FileViolations} :
    (report.add file).isClean = true ↔ report.isClean = true ∧ file.isClean = true := by
  unfold Ascii.Report.add Ascii.Report.isClean
  cases file.isClean <;> simp

/-- Checking further files leaves a report clean if the files that are text are ASCII. -/
theorem isClean_checkAll_iff (files : List String) (report : Ascii.Report) (world : World) :
    ((checkAll report files : Simulation Ascii.Report) world).1.isClean = true ↔
      report.isClean = true ∧ ∀ file ∈ files, ∀ text,
        FileTree.textOf (world.read file) = .ok text → ∀ c ∈ text, c.toNat < 0x80 := by
  -- Mentioning a file changes the world, but not what can be read from it.
  induction files generalizing report world with
  | nil => exact ⟨fun clean => ⟨clean, by simp⟩, And.left⟩
  | cons file rest ih =>
      rw [List.forall_mem_cons]
      cases reading : FileTree.textOf (world.read file) with
      | ok text =>
          have step : (checkAll report (file :: rest) : Simulation Ascii.Report) world =
              (checkAll (report.add (Ascii.checkText file text)) rest : Simulation _) world := by
            simp only [checkAll, Simulation.bind_run, Simulation.readText_run, reading]
          rw [step, ih, isClean_add_iff, Ascii.isClean_checkText_iff]
          simp only [Except.ok.injEq, forall_eq', and_assoc]
      | error error =>
          have step : ∃ errors,
              (checkAll report (file :: rest) : Simulation Ascii.Report) world =
                (checkAll report rest : Simulation _) { world with errors } := by
            simp only [checkAll, Simulation.bind_run, Simulation.readText_run, reading]
            exact ⟨_, rfl⟩
          obtain ⟨errors, step⟩ := step
          rw [step, ih]
          simp only [reduceCtorEq, false_imp_iff, implies_true, true_and]
          rfl

theorem runAscii_run (path : String) (recursive yaml : Bool) (world : World) :
    ∃ errors, ((runAscii path recursive yaml : Simulation Ending) world).1 =
      .ok (if ((checkAll {} (asciiFiles path recursive (world.list? path)) :
        Simulation Ascii.Report) { world with errors }).1.isClean then .clean else .findings) := by
  simp only [runAscii, Simulation.bind_run]
  by_cases nothing : (asciiFiles path recursive
      ((Machine.list? path : Simulation _) world).1).isEmpty = true
  · rw [if_pos nothing]
    exact ⟨_, rfl⟩
  · rw [if_neg nothing]
    exact ⟨world.errors, rfl⟩

/-- The check of a path ends with zero exactly when the selected files that are text are
    ASCII. -/
theorem runAscii_code_eq_zero_iff (path : String) (recursive yaml : Bool) (world : World) :
    ((runAscii path recursive yaml : Simulation Ending) world).1.code = 0 ↔
      world.TextsAscii (asciiFiles path recursive (world.list? path)) := by
  obtain ⟨errors, ran⟩ := runAscii_run path recursive yaml world
  have clean := isClean_checkAll_iff (asciiFiles path recursive (world.list? path)) {}
    { world with errors }
  have fresh : ({} : Ascii.Report).isClean = true := rfl
  rw [ran, World.textsAscii_iff]
  simp only [fresh, true_and] at clean
  by_cases isClean : ((checkAll {} (asciiFiles path recursive (world.list? path)) :
      Simulation Ascii.Report) { world with errors }).1.isClean = true
  · rw [if_pos isClean]
    exact iff_of_true rfl (clean.mp isClean)
  · rw [if_neg isClean]
    exact iff_of_false Nat.one_ne_zero (mt clean.mpr isClean)

end Command

/-- The ASCII check ends with exit code zero exactly when the configuration can be loaded
    and those of the selected files that are UTF-8 text hold octets below `80` only. All
    selected files hold such octets only exactly when, besides, all of them are text. -/
theorem Invocation.exitCode_ascii_eq_zero_iff (config : Option String)
    (verbose recursive yaml : Bool) (path : String) (world : World) :
    let invocation : Invocation := { config, verbose, command := .ascii path recursive yaml }
    let files := Command.asciiFiles path recursive (world.list? path)
    (((invocation.exitCode : Simulation Nat) world).1 = 0 ↔
      (∃ loaded, ((Command.loadConfig config verbose :
        Simulation (Except Failure Config)) world).1 = .ok loaded) ∧ world.TextsAscii files) ∧
    (world.AllAscii files ↔ world.TextsAscii files ∧ world.AllText files) := by
  intro invocation files
  refine ⟨?_, World.allAscii_iff⟩
  obtain ⟨errors, after⟩ := Command.loadConfig_world config verbose world
  rw [exitCode_run, perform, Simulation.bind_run, after]
  cases loaded : ((Command.loadConfig config verbose :
      Simulation (Except Failure Config)) world).1 with
  | error failure => simp [Ending.code]
  | ok configuration =>
      have checked := Command.runAscii_code_eq_zero_iff path recursive yaml { world with errors }
      simp only [Except.ok.injEq, exists_eq', true_and]
      exact checked

/-- A comment with an accented letter in an encoding of one octet for each character
    passes, because the file is no UTF-8. -/
theorem Invocation.exitCode_ascii_eq_zero_of_not_text :
    let octets : List UInt8 := [0x2D, 0x2D, 0x20, 0x63, 0x61, 0x66, 0xE9, 0x0A]
    let world : World := { tree := .directory [("latin.exp", .file octets)] }
    let invocation : Invocation :=
      { config := none, verbose := false, command := .ascii "latin.exp" false false }
    let files := Command.asciiFiles "latin.exp" false (world.list? "latin.exp")
    ((invocation.exitCode : Simulation Nat) world).1 = 0 ∧ files = ["latin.exp"] ∧
      world.read "latin.exp" = .ok octets ∧ ¬ world.AllAscii files := by
  intro octets world invocation files
  have selected : files = ["latin.exp"] := by decide
  have read : world.read "latin.exp" = .ok octets := by rfl
  refine ⟨by decide, selected, read, ?_⟩
  intro ascii
  have member : "latin.exp" ∈ files := selected ▸ List.mem_singleton_self _
  have low : (0xE9 : UInt8) < 0x80 := ascii _ member octets read 0xE9 (by decide)
  exact absurd low (by decide)

end ExpressLinks
