import ExpressLinks.Command.Verdict
import ExpressLinks.Load

/-!
# Projects

What commands share: the configuration, and the corpus of a manifest.
-/

namespace ExpressLinks.Command

/-- Where a configuration is looked for when none is asked for. -/
def configPath : String := "expref.toml"

variable {m : Type → Type} [Monad m] [Machine m]

/-- The configuration: the one asked for, else the one in the working directory,
    else the default. -/
def loadConfig (given : Option String) (verbose : Bool) : m (Except Failure Config) := do
  match given with
  | some path =>
      match ← Config.load path with
      | .ok config => return .ok config
      | .error error => return .error (.givenConfig path error)
  | none =>
      if (← Machine.list? configPath).isSome then
        match ← Config.load configPath with
        | .ok config => return .ok config
        | .error error => return .error (.foundConfig configPath error)
      else
        if verbose then Machine.warnLine "No config file found, using defaults"
        return .ok {}

/-- The manifest at a path and the corpus of its schemas. -/
def loadCorpus (config : Config) (path : String) : m (Except Failure (Manifest × Corpus)) := do
  match ← Manifest.load path with
  | .error error => return .error (.manifest path error)
  | .ok manifest =>
      match ← Corpus.loadManifest config.parsedExtension manifest with
      | .error error => return .error (.corpus error)
      | .ok corpus => return .ok (manifest, corpus)

end ExpressLinks.Command
