import ExpressLinks.Machine

/-!
# Worlds

A machine in memory: a file tree with a working directory, a clock that stands
still, and the text shown so far.
-/

namespace ExpressLinks

/-- A machine in memory. -/
structure World where
  tree : FileTree := .empty
  workingDirectory : List String := []
  clock : String := ""
  output : String := ""
  errors : String := ""
  deriving Repr

/-- Computations on a machine in memory. -/
abbrev Simulation := StateM World

namespace World

/-- The octets of the file at a path. -/
def read (world : World) (path : String) : Except FileError (List UInt8) :=
  world.tree.read world.workingDirectory path

/-- The world after writing a file, which stays as it is if that fails. -/
def write (world : World) (path : String) (content : List UInt8) :
    Except FileError Unit × World :=
  match world.tree.write world.workingDirectory path content with
  | .error error => (.error error, world)
  | .ok tree => (.ok (), { world with tree })

/-- The names at and below a path. -/
def list? (world : World) (path : String) : Option Listing :=
  (world.tree.find? world.workingDirectory path).map FileTree.listing

end World

instance : Machine Simulation where
  readFile path := do return (← get).read path
  writeFile path content := fun world => world.write path content
  list? path := do return (← get).list? path
  now := do return (← get).clock
  tell text := modify fun world => { world with output := world.output ++ text }
  warn text := modify fun world => { world with errors := world.errors ++ text }

end ExpressLinks
