import ExpressLinks.Text.Split

/-!
# File paths

Paths are texts with components between slashes, and they are handled as texts:
joining puts a slash where one is missing and normalises nothing. The file name
is the last component, unless that is `.` or `..`; slashes and single points
after it count for nothing. The extension is what follows the last point of the
file name, provided that something stands before that point.
-/

namespace ExpressLinks.FilePath

/-- Does the path start at the root? -/
def isAbsolute (path : String) : Bool := path.toList.head? == some '/'

/-- The path of `path` below `base`; an absolute path stands for itself. -/
def join (base path : String) : String :=
  if isAbsolute path then path
  else if base = "" ∨ base.toList.getLast? = some '/' then base ++ path
  else base ++ "/" ++ path

/-- Drops, from a path written backwards, slashes and single points that follow
    a slash. -/
def dropDeadEnd : List Char → List Char
  | '/' :: rest => dropDeadEnd rest
  | '.' :: '/' :: rest => dropDeadEnd rest
  | path => path

/-- The path without slashes and single points at its end. -/
def withoutDeadEnd (path : List Char) : List Char := (dropDeadEnd path.reverse).reverse

/-- The path without slashes at its end. -/
def withoutSlashes (path : String) : String :=
  String.ofList ((path.toList.reverse.dropWhile (· == '/')).reverse)

/-- The part after the last slash. -/
def lastPiece (path : List Char) : List Char :=
  (path.reverse.takeWhile (· != '/')).reverse

/-- The part up to and including the last slash. -/
def beforeLastPiece (path : List Char) : List Char :=
  (path.reverse.dropWhile (· != '/')).reverse

/-- The file name and the part of the path before it. -/
def splitName? (path : List Char) : Option (List Char × List Char) :=
  let trimmed := withoutDeadEnd path
  let name := lastPiece trimmed
  if name = [] ∨ name = ['.'] ∨ name = ['.', '.'] then none
  else some (beforeLastPiece trimmed, name)

/-- The last point of a file name and what follows it, and what stands before. -/
def splitExtension (name : List Char) : List Char × Option (List Char) :=
  let after := (name.reverse.takeWhile (· != '.')).reverse
  match (name.reverse.dropWhile (· != '.')) with
  | [] => (name, none)
  | _ :: before => if before = [] then (name, none) else (before.reverse, some after)

/-- The extension of the file name. -/
def extension? (path : String) : Option String := do
  let (_, name) ← splitName? path.toList
  (splitExtension name).2.map String.ofList

/-- Cuts the path after the stem of its file name and puts the new extension
    there; an empty one adds nothing, a path without file name stays. -/
def replaceExtension (path : List Char) (new : List Char) : List Char :=
  match splitName? path with
  | none => path
  | some (before, name) =>
      before ++ (splitExtension name).1 ++ (if new = [] then [] else '.' :: new)

/-- The path with another extension. The characters of the old extension are
    taken off the end of the path before the new one is set, so a file name that
    is left as `..` is none and stays without extension. -/
def withExtension (path new : String) : String :=
  let shortened :=
    match extension? path with
    | none => path.toList
    | some old => path.toList.take (path.length - old.length)
  String.ofList (replaceExtension shortened new.toList)

/-- The path without its last component. -/
def parent? (path : String) : Option String :=
  let trimmed := withoutDeadEnd path.toList
  if trimmed = [] then none
  else
    let dir := withoutDeadEnd (beforeLastPiece trimmed)
    if dir = [] ∧ isAbsolute path then some "/" else some (String.ofList dir)

/-- The directory of a path, empty when it has none. -/
def directory (path : String) : String := (parent? path).getD ""

end ExpressLinks.FilePath
