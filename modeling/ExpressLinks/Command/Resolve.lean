import ExpressLinks.Command.Project
import ExpressLinks.Resolution

/-!
# Resolving paths

Every path is shown with its result, in the order in which the paths are given.
-/

namespace ExpressLinks.Command

/-- The line for a path. -/
def resolutionLine (path : String) : Resolution → String
  | .resolved => "OK " ++ path
  | .unresolved segment reason => s!"FAIL {path} - {reason.message} (segment {segment})"

variable {m : Type → Type} [Monad m] [Machine m]

/-- Resolves paths in the corpus of a manifest. -/
def runResolve (config : Config) (manifest : String) (paths : List String) : m Ending := do
  match ← loadCorpus config manifest with
  | .error failure => return .error failure
  | .ok (_, corpus) =>
      Machine.tell <| String.join <|
        paths.map fun path => resolutionLine path (corpus.resolve path) ++ "\n"
      let areResolved := paths.all fun path => (corpus.resolve path).isResolved
      return .ok (if areResolved then .clean else .findings)

end ExpressLinks.Command
