import ExpressLinks.Corpus
import ExpressLinks.Config
import ExpressLinks.Manifest

/-!
# How commands end

A command finds nothing wrong, or finds something, or fails. A failure names
what could not be loaded or written, and why.
-/

namespace ExpressLinks

/-- The end of a command that has done its work. -/
inductive Verdict where
  | clean
  | findings
  deriving DecidableEq, Repr

/-- Why a command could not do its work. -/
inductive Failure where
  /-- The configuration at a path that was asked for. -/
  | givenConfig (path : String) (error : ConfigError)
  /-- The configuration that is looked for in the working directory. -/
  | foundConfig (path : String) (error : ConfigError)
  | manifest (path : String) (error : ManifestError)
  | corpus (error : CorpusError)
  | report (path : String) (error : FileError)
  deriving Repr

namespace Failure

/-- The text of the failure. -/
def message : Failure → String
  | givenConfig path error => s!"Failed to load config {path}: {error.message}"
  | foundConfig path error => s!"Failed to load {path}: {error.message}"
  | manifest path error => s!"Error loading schemas file {path}: {error.message}"
  | corpus error => s!"Error loading schemas: {error.message}"
  | report path error => s!"Failed to write report {path}: {error.message}"

end Failure

/-- The end of a command. -/
abbrev Ending := Except Failure Verdict

namespace Ending

/-- The exit code: zero if nothing is wrong, one for findings, two for a
    failure. -/
def code : Ending → Nat
  | .ok .clean => 0
  | .ok .findings => 1
  | .error _ => 2

end Ending

end ExpressLinks
