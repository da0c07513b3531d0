import ExpressLinks.FileError
import ExpressLinks.FilePath
import ExpressLinks.Text.Utf8

/-!
# File trees

A file tree holds files and directories in memory. Paths are followed component
by component: an empty component and a single point stay, two points go up,
every other component names an entry and needs a directory to stand in.
Directories are walked depth first, their entries in the order of their names.
-/

namespace ExpressLinks

/-- A file with its octets, or a directory with its entries. -/
inductive FileTree where
  | file (content : List UInt8)
  | directory (entries : List (String × FileTree))
  deriving Repr

namespace FileTree

/-- A directory without entries. -/
def empty : FileTree := .directory []

/-- The entry of that name. -/
def child? : FileTree → String → Option FileTree
  | .file _, _ => none
  | .directory entries, name => entries.lookup name

/-- The node at the end of a list of names. -/
def node? (tree : FileTree) : List String → Option FileTree
  | [] => some tree
  | name :: names => (tree.child? name).bind fun below => below.node? names

/-- Puts an entry in place of the one of that name, or after all others. -/
def setEntry (name : String) (new : FileTree) :
    List (String × FileTree) → List (String × FileTree)
  | [] => [(name, new)]
  | (old, tree) :: rest =>
      if old = name then (name, new) :: rest else (old, tree) :: setEntry name new rest

/-- Puts a node at the end of a list of names; directories that are missing on
    the way are made, and a file on the way gives way to a directory. -/
def put (tree : FileTree) (names : List String) (new : FileTree) : FileTree :=
  match names with
  | [] => new
  | name :: names =>
      let entries := match tree with
        | .file _ => []
        | .directory entries => entries
      .directory (setEntry name (((entries.lookup name).getD empty).put names new) entries)

/-- Follows the components of a path from the directory at `position`, whose
    names stand last first. The last component need not exist. -/
def follow (tree : FileTree) : List String → List String → Except FileError (List String)
  | position, [] => .ok position
  | position, component :: rest =>
      match tree.node? position.reverse with
      | none => .error .notFound
      | some (.file _) => .error .notDirectory
      | some (.directory _) =>
          if component = "" ∨ component = "." then tree.follow position rest
          else if component = ".." then tree.follow position.tail rest
          else tree.follow (component :: position) rest

/-- The names from the root to where a path leads, seen from a working
    directory. The empty path leads nowhere. -/
def locate (tree : FileTree) (workingDirectory : List String) (path : String) :
    Except FileError (List String) :=
  if path = "" then .error .notFound
  else
    let start := if FilePath.isAbsolute path then [] else workingDirectory.reverse
    (tree.follow start (Text.splitString '/' path)).map List.reverse

/-- What is at a path. -/
def find? (tree : FileTree) (workingDirectory : List String) (path : String) :
    Option FileTree :=
  match tree.locate workingDirectory path with
  | .error _ => none
  | .ok names => tree.node? names

/-- The octets of the file at a path. -/
def read (tree : FileTree) (workingDirectory : List String) (path : String) :
    Except FileError (List UInt8) :=
  match tree.locate workingDirectory path with
  | .error error => .error error
  | .ok names =>
      match tree.node? names with
      | none => .error .notFound
      | some (.directory _) => .error .isDirectory
      | some (.file content) => .ok content

/-- The text that octets write, if they were read. -/
def textOf (reading : Except FileError (List UInt8)) : Except FileError (List Char) :=
  match reading with
  | .error error => .error error
  | .ok content =>
      match Text.Utf8.decode content with
      | none => .error .notText
      | some text => .ok text

/-- The text of the file at a path. -/
def readText (tree : FileTree) (workingDirectory : List String) (path : String) :
    Except FileError (List Char) :=
  textOf (tree.read workingDirectory path)

/-- The tree after writing a file, which is made if its directory exists. A path
    with a slash at its end is that of a directory, whether there is one or
    not. -/
def write (tree : FileTree) (workingDirectory : List String) (path : String)
    (content : List UInt8) : Except FileError FileTree :=
  let bare := FilePath.withoutSlashes path
  if bare = "" ∧ path ≠ "" then .error .isDirectory
  else
    match tree.locate workingDirectory bare with
    | .error error => .error error
    | .ok names =>
        match tree.node? names with
        | some (.directory _) => .error .isDirectory
        | _ => if bare = path then .ok (tree.put names (.file content)) else .error .isDirectory

end FileTree

/-- The names below a path, without contents. -/
inductive Listing where
  | file
  | directory (entries : List (String × Listing))
  deriving Repr

/-- A file that a walk comes by, and how many directories below the start. -/
structure Found where
  path : String
  depth : Nat
  deriving DecidableEq, Repr

mutual

/-- The names in a tree. -/
def FileTree.listing : FileTree → Listing
  | .file _ => .file
  | .directory entries => .directory (FileTree.listings entries)

/-- The names in each of several trees. -/
def FileTree.listings : List (String × FileTree) → List (String × Listing)
  | [] => []
  | (name, tree) :: rest => (name, tree.listing) :: FileTree.listings rest

end

namespace Listing

mutual

/-- The files at and below a path, depth first. -/
def filesAt (depth : Nat) (path : String) : Listing → List Found
  | .file => [⟨path, depth⟩]
  | .directory entries =>
      (entriesAt (depth + 1) path entries).mergeSort (fun a b => !(b.1 < a.1)) |>.flatMap (·.2)

/-- The files of each entry of a directory, by its name. -/
def entriesAt (depth : Nat) (path : String) :
    List (String × Listing) → List (String × List Found)
  | [] => []
  | (name, listing) :: rest =>
      (name, filesAt depth (FilePath.join path name) listing) :: entriesAt depth path rest

end

/-- The files at and below a path: depth first, the entries of a directory in
    the order of their names. -/
def files (root : String) (listing : Listing) : List Found := listing.filesAt 0 root

end Listing

end ExpressLinks
