import ExpressLinks.Calendar
import ExpressLinks.Command.Run
import Std.Time.DateTime.Timestamp

/-!
# The program

The machine that the program runs on, and its entry point.
-/

namespace ExpressLinks

/-- The cause of a failed file operation. -/
def FileError.ofIO (error : IO.Error) : FileError :=
  match error with
  | .noFileOrDirectory .. => .notFound
  | .inappropriateType _ code _ =>
      if code.toInt32.toInt.natAbs = 21 then .isDirectory else .notDirectory
  | error => .other (toString error)

/-- Does a file operation, or tells why it failed. -/
def attempt {α : Type} (operation : IO α) : IO (Except FileError α) := do
  try
    return .ok (← operation)
  catch error =>
    return .error (FileError.ofIO error)

/-- The names below an entry of a directory. Links and special files count for
    nothing. -/
partial def listEntry? (entry : IO.FS.DirEntry) : IO (Option Listing) := do
  match (← entry.path.symlinkMetadata).type with
  | .file => return some .file
  | .dir =>
      let below ← entry.path.readDir
      let listings ← below.toList.mapM fun entry => do
        try
          return (← listEntry? entry).map fun listing => (entry.fileName, listing)
        catch _ =>
          return none
      return some (.directory (listings.filterMap id))
  | _ => return none

/-- The names at and below a path, which may be a link. -/
def listPath? (path : String) : IO (Option Listing) := do
  try
    let place : IO.FS.DirEntry := ⟨path, "."⟩
    match (← place.root.metadata).type with
    | .file => return some .file
    | .dir => listEntry? place
    | _ => return none
  catch _ =>
    return none

instance : Machine IO where
  readFile path := attempt do return (← IO.FS.readBinFile path).toList
  writeFile path content := attempt (IO.FS.writeBinFile path ⟨content.toArray⟩)
  list? := listPath?
  now := do
    let time := (← Std.Time.Timestamp.now).val
    return Calendar.describe time.second.val.toNat time.nano.val.toNat
  tell text := do (← IO.getStdout).putStr text
  warn text := do (← IO.getStderr).putStr text

end ExpressLinks

/-- Runs the command line. -/
def main (arguments : List String) : IO UInt32 := do
  return UInt32.ofNat (← ExpressLinks.runArguments arguments)
