import ExpressLinks.FileTree

/-!
# Machines

What a command asks of the machine it runs on: to read and write files, to list
what is at a path, to tell the time and to show text. A command runs in any
monad with such a machine.
-/

namespace ExpressLinks

/-- A monad whose effects are those of a machine. -/
class Machine (m : Type → Type) where
  /-- The octets of the file at a path. -/
  readFile : String → m (Except FileError (List UInt8))
  /-- Writes a file; one that is there is overwritten, directories are not
      made. -/
  writeFile : String → List UInt8 → m (Except FileError Unit)
  /-- The names at and below a path, if something is there. -/
  list? : String → m (Option Listing)
  /-- The time, as reports show it. -/
  now : m String
  /-- Shows text on standard output. -/
  tell : String → m Unit
  /-- Shows text on standard error. -/
  warn : String → m Unit

namespace Machine

variable {m : Type → Type} [Monad m] [Machine m]

/-- The text of the file at a path. -/
def readText (path : String) : m (Except FileError (List Char)) := do
  return FileTree.textOf (← readFile path)

/-- Writes a text to a file. -/
def writeText (path text : String) : m (Except FileError Unit) :=
  writeFile path (Text.Utf8.encode text.toList)

/-- Shows a line on standard output. -/
def tellLine (line : String) : m Unit := tell (line ++ "\n")

/-- Shows a line on standard error. -/
def warnLine (line : String) : m Unit := warn (line ++ "\n")

end Machine

end ExpressLinks
