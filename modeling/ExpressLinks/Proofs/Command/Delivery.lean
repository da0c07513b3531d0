import ExpressLinks.Command.Links
import ExpressLinks.Proofs.FileTree.Writing
import ExpressLinks.Proofs.Simulation

/-!
# Where reports go

Whether a report can be written depends on its path and on the files and directories that
are there before any report is written: a report that is written is in the way of no
other. The text report goes to its file or to standard output, and the other reports
decide whether the command fails.
-/

namespace ExpressLinks

namespace World

variable {world : World} {path : String}

/-- A file can be written at a path. -/
def CanWrite (world : World) (path : String) : Prop :=
  world.tree.CanWrite world.workingDirectory path

/-- The reports that are asked for besides the text can be written. -/
structure CanReport (world : World) (json markdown : Option String) : Prop where
  json : ∀ path ∈ json, world.CanWrite path
  markdown : ∀ path ∈ markdown, world.CanWrite path

/-- Reports can be written wherever as much can be written. -/
theorem CanReport.of_canWrite {after : World} {json markdown : Option String}
    (h : world.CanReport json markdown)
    (writable : ∀ path, world.CanWrite path → after.CanWrite path) :
    after.CanReport json markdown where
  json path asked := writable path (h.json path asked)
  markdown path asked := writable path (h.markdown path asked)

theorem write_of_canWrite (writable : world.CanWrite path) (content : List UInt8) :
    ∃ tree, world.write path content = (.ok (), { world with tree }) ∧
      (∀ other, World.CanWrite { world with tree } other ↔ world.CanWrite other) ∧
      World.read { world with tree } path = .ok content := by
  obtain ⟨tree, success⟩ := writable content
  refine ⟨tree, ?_, fun other => FileTree.canWrite_write_iff success, FileTree.read_write success⟩
  rw [write, success]

theorem write_of_not_canWrite (unwritable : ¬ world.CanWrite path) (content : List UInt8) :
    ∃ error, world.write path content = (.error error, world) := by
  rw [write]
  cases written : world.tree.write world.workingDirectory path content with
  | error error => exact ⟨error, rfl⟩
  | ok tree => exact absurd (FileTree.canWrite_of_write_eq_ok written) unwritable

end World

namespace Simulation

theorem writeText_run (path text : String) (world : World) :
    (Machine.writeText path text : Simulation _) world =
      world.write path (Text.Utf8.encode text.toList) := rfl

end Simulation

namespace Command

variable {world : World} {path : String} {asked : Option String} {report : Report}
  {config : Config} {task : LinksTask}

/-- A text report that can be written is in its file. -/
theorem deliverText_of_canWrite (report : Report) (writable : world.CanWrite path) :
    ∃ tree errors, (deliverText report path : Simulation Unit) world =
        ((), { world with tree, errors }) ∧
      (∀ other, World.CanWrite { world with tree } other ↔ world.CanWrite other) ∧
      World.read { world with tree } path = .ok (Text.Utf8.encode report.toText.toList) := by
  obtain ⟨tree, written, same, holds⟩ :=
    World.write_of_canWrite writable (Text.Utf8.encode report.toText.toList)
  rw [deliverText, Simulation.bind_run, Simulation.writeText_run, written]
  exact ⟨tree, _, rfl, same, holds⟩

/-- A text report that cannot be written is shown, and no file is touched. -/
theorem deliverText_of_not_canWrite (report : Report) (unwritable : ¬ world.CanWrite path) :
    ∃ errors, (deliverText report path : Simulation Unit) world =
      ((), { world with errors, output := world.output ++ (report.toText ++ "\n") }) := by
  obtain ⟨error, failed⟩ :=
    World.write_of_not_canWrite unwritable (Text.Utf8.encode report.toText.toList)
  rw [deliverText, Simulation.bind_run, Simulation.writeText_run, failed]
  exact ⟨_, rfl⟩

/-- The text report is in the way of no other report. -/
theorem canReport_deliverText_iff (report : Report) (path : String)
    {json markdown : Option String} :
    ((deliverText report path : Simulation Unit) world).2.CanReport json markdown ↔
      world.CanReport json markdown := by
  have same : ∀ other, ((deliverText report path : Simulation Unit) world).2.CanWrite other ↔
      world.CanWrite other := by
    by_cases writable : world.CanWrite path
    · obtain ⟨tree, errors, ran, same, -⟩ := deliverText_of_canWrite report writable
      rw [ran]
      exact same
    · obtain ⟨errors, ran⟩ := deliverText_of_not_canWrite report writable
      rw [ran]
      exact fun other => Iff.rfl
  constructor
  · intro writable
    exact writable.of_canWrite fun path => (same path).mp
  · intro writable
    exact writable.of_canWrite fun path => (same path).mpr

theorem deliverTo_of_canWrite (text : String) (writable : ∀ path ∈ asked, world.CanWrite path) :
    ∃ tree, (deliverTo asked text : Simulation _) world = (.ok (), { world with tree }) ∧
      (∀ other, World.CanWrite { world with tree } other ↔ world.CanWrite other) ∧
      (asked = none → tree = world.tree) := by
  cases asked with
  | none => exact ⟨world.tree, rfl, fun other => Iff.rfl, fun _ => rfl⟩
  | some path =>
      obtain ⟨tree, written, same, -⟩ :=
        World.write_of_canWrite (writable path rfl) (Text.Utf8.encode text.toList)
      refine ⟨tree, ?_, same, by simp⟩
      rw [deliverTo, Simulation.bind_run, Simulation.writeText_run, written]
      rfl

theorem deliverTo_of_not_canWrite (text : String)
    (unwritable : ¬ ∀ path ∈ asked, world.CanWrite path) :
    ∃ failure, (deliverTo asked text : Simulation _) world = (.error failure, world) := by
  cases asked with
  | none => simp at unwritable
  | some path =>
      have alone : ¬ world.CanWrite path := by simpa using unwritable
      obtain ⟨error, failed⟩ :=
        World.write_of_not_canWrite alone (Text.Utf8.encode text.toList)
      refine ⟨.report path error, ?_⟩
      rw [deliverTo, Simulation.bind_run, Simulation.writeText_run, failed]
      rfl

section Deliver

variable {after : World}

/-- Where the reports that are asked for can be written, the command does its work and
    shows a summary after what the text report has shown. -/
theorem deliver_of_canReport (config : Config) (report : Report)
    (text : (deliverText report task.output : Simulation Unit) world = ((), after))
    (writable : world.CanReport task.json task.markdown) :
    ∃ tree, (deliver config task report : Simulation Ending) world =
        (.ok (if report.isClean then .clean else .findings),
          { after with tree, output := after.output ++ report.toSummary }) ∧
      (task.json = none → task.markdown = none → tree = after.tree) := by
  rw [← canReport_deliverText_iff report task.output, text] at writable
  obtain ⟨tree, first, same, untouched⟩ := deliverTo_of_canWrite report.toJson writable.json
  have later : ∀ path ∈ task.markdown, World.CanWrite { after with tree } path :=
    fun path asked => (same path).mpr (writable.markdown path asked)
  obtain ⟨last, second, -, untouched'⟩ :=
    deliverTo_of_canWrite (report.toMarkdown config.severity) later
  refine ⟨last, ?_, ?_⟩
  · simp only [deliver, Simulation.bind_run, text, first, second]
    rfl
  · intro noJson noMarkdown
    rw [untouched' noMarkdown, untouched noJson]

/-- Where one of them cannot be written, the command fails and shows nothing further. -/
theorem deliver_of_not_canReport (config : Config) (report : Report)
    (text : (deliverText report task.output : Simulation Unit) world = ((), after))
    (unwritable : ¬ world.CanReport task.json task.markdown) :
    ∃ failure tree, (deliver config task report : Simulation Ending) world =
      (.error failure, { after with tree }) := by
  rw [← canReport_deliverText_iff report task.output, text] at unwritable
  by_cases inJson : ∀ path ∈ task.json, after.CanWrite path
  · obtain ⟨tree, first, same, -⟩ := deliverTo_of_canWrite report.toJson inJson
    have later : ¬ ∀ path ∈ task.markdown, World.CanWrite { after with tree } path := by
      intro inMarkdown
      exact unwritable ⟨inJson, fun path asked => (same path).mp (inMarkdown path asked)⟩
    obtain ⟨failure, second⟩ :=
      deliverTo_of_not_canWrite (report.toMarkdown config.severity) later
    refine ⟨failure, tree, ?_⟩
    simp only [deliver, Simulation.bind_run, text, first, second]
    rfl
  · obtain ⟨failure, first⟩ := deliverTo_of_not_canWrite report.toJson inJson
    refine ⟨failure, after.tree, ?_⟩
    simp only [deliver, Simulation.bind_run, text, first]
    rfl

/-- The summary comes after what the text report has shown, and only where the command does
    its work. Where no other report is asked for, the files are those that the text report
    leaves behind. -/
theorem deliver_world (config : Config) (report : Report)
    (text : (deliverText report task.output : Simulation Unit) world = ((), after)) :
    let ran := (deliver config task report : Simulation Ending) world
    ∃ tree, ran.2 =
        { after with
          tree
          output := after.output ++ if ran.1.code = 2 then "" else report.toSummary } ∧
      (task.json = none → task.markdown = none → tree = after.tree) := by
  intro ran
  by_cases writable : world.CanReport task.json task.markdown
  · obtain ⟨tree, delivered, untouched⟩ := deliver_of_canReport config report text writable
    have done : ran.1.code ≠ 2 := by
      simp only [ran, delivered]
      split <;> decide
    refine ⟨tree, ?_, untouched⟩
    rw [if_neg done]
    exact congrArg Prod.snd delivered
  · obtain ⟨failure, tree, delivered⟩ := deliver_of_not_canReport config report text writable
    have failed : ran.1.code = 2 := by
      simp only [ran, delivered]
      rfl
    refine ⟨tree, ?_, ?_⟩
    · rw [if_pos failed, String.append_empty]
      exact congrArg Prod.snd delivered
    · intro noJson noMarkdown
      exact absurd ⟨by simp [noJson], by simp [noMarkdown]⟩ writable

end Deliver

end Command

end ExpressLinks
