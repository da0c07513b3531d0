import ExpressLinks.Command.Arguments
import ExpressLinks.Command.Ascii
import ExpressLinks.Command.Links
import ExpressLinks.Command.Resolve

/-!
# Running commands

A command runs under the configuration; what the command line leaves out comes
from there. A failure is told on standard error.
-/

namespace ExpressLinks

namespace Command

variable {m : Type → Type} [Monad m] [Machine m]

/-- Runs a command under a configuration. There is at least one worker. -/
def run (config : Config) (verbose : Bool) : Command → m Ending
  | .links manifest documents output json markdown jobs =>
      runLinks config
        { manifest
          documents := documents.getD (config.resolvePath config.documentsDir)
          output := output.getD (config.resolvePath config.output)
          json
          markdown
          jobs := max (jobs.getD config.jobs) 1
          verbose }
  | .ascii path recursive yaml => runAscii path recursive yaml
  | .resolve manifest paths => runResolve config manifest paths

end Command

namespace Invocation

variable {m : Type → Type} [Monad m] [Machine m]

/-- Loads the configuration and runs the command. -/
def perform (invocation : Invocation) : m Ending := do
  match ← Command.loadConfig invocation.config invocation.verbose with
  | .error failure => return .error failure
  | .ok config => invocation.command.run config invocation.verbose

/-- Performs an invocation and gives its exit code. -/
def exitCode (invocation : Invocation) : m Nat := do
  let ending ← invocation.perform
  match ending with
  | .error failure => Machine.warnLine ("Error: " ++ failure.message)
  | .ok _ => pure ()
  return ending.code

end Invocation

/-- Runs a command line and gives its exit code. One that is no command line is
    told on standard error, and nothing is done. -/
def runArguments {m : Type → Type} [Monad m] [Machine m] (arguments : List String) : m Nat := do
  match Invocation.ofArguments? arguments with
  | none =>
      Machine.warn "usage error"
      return 2
  | some invocation => invocation.exitCode

end ExpressLinks
