import ExpressLinks.FileError
import ExpressLinks.FilePath
import ExpressLinks.Yaml.Describe

/-!
# Manifests

A manifest lists schemas with the files that declare them. It is a YAML document
whose `schemas` map names to entries with a `path`; other keys count for
nothing. The entries are examined in order, and the first bad one decides the
error. Paths are taken relative to the directory of the manifest.
-/

namespace ExpressLinks

/-- A listed schema and its path as written. -/
structure ManifestEntry where
  id : String
  path : String
  deriving DecidableEq, Repr

/-- Why a text is no manifest. -/
inductive MalformedManifest where
  /-- The text is no YAML document that maps names to entries. -/
  | document
  /-- A name is not text. -/
  | name (value : Yaml.Value)
  /-- The entry of a name is no mapping with names for keys, or its path is not
      text. -/
  | entry (id : String)
  deriving Repr

/-- Why there is no manifest. -/
inductive ManifestError where
  | unreadable (path : String) (error : FileError)
  | malformed (cause : MalformedManifest)
  | missingPath (id : String)
  deriving Repr

namespace MalformedManifest

/-- The text of the cause. -/
def message : MalformedManifest → String
  | document => "no document that lists schemas"
  | name value => "schema id must be a string, got " ++ value.describe
  | entry id => s!"schema '{id}': no entry with a path"

end MalformedManifest

namespace ManifestError

/-- The text of the error. -/
def message : ManifestError → String
  | unreadable path error => s!"Failed to read schema manifest {path}: {error.message}"
  | malformed cause => "Failed to parse schema manifest YAML: " ++ cause.message
  | missingPath id => s!"Schema '{id}' has no path in the manifest"

end ManifestError

/-- The listed schemas in order, and where the manifest was found. -/
structure Manifest where
  location : Option String := none
  entries : List ManifestEntry := []
  deriving DecidableEq, Repr

namespace Manifest

/-- The number of listed schemas. -/
def size (manifest : Manifest) : Nat := manifest.entries.length

/-- The directory that paths are relative to. -/
def directory (manifest : Manifest) : String :=
  match manifest.location with
  | none => ""
  | some path => FilePath.directory path

/-- The listed names with their paths, seen from where the manifest was found. -/
def schemaPaths (manifest : Manifest) : List (String × String) :=
  manifest.entries.map fun entry => (entry.id, FilePath.join manifest.directory entry.path)

section Decode

open Yaml

/-- The keys of a mapping as texts, with their values. -/
def named? (entries : List (Value × Value)) : Option (List (String × Value)) :=
  entries.mapM fun entry =>
    match entry.1.untagged with
    | .text name => some (name, entry.2)
    | _ => none

/-- The values under a name. -/
def valuesOf? (name : String) (entries : List (Value × Value)) : Option (List Value) :=
  (named? entries).map fun named => (named.filter (·.1 == name)).map (·.2)

/-- The path of an entry, if it has one. -/
def entryPath (id : String) (value : Value) : Except ManifestError String :=
  match value.untagged with
  | .null => .error (.missingPath id)
  | .mapping entries =>
      match valuesOf? "path" entries with
      | some [] => .error (.missingPath id)
      | some [.null] => .error (.missingPath id)
      | some [path] =>
          match path.untagged with
          | .text path => .ok path
          | _ => .error (.malformed (.entry id))
      | _ => .error (.malformed (.entry id))
  | _ => .error (.malformed (.entry id))

/-- A listed schema, given the key and value that list it. -/
def decodeEntry (entry : Value × Value) : Except ManifestError ManifestEntry :=
  match entry.1 with
  | .text id =>
      match entryPath id entry.2 with
      | .error error => .error error
      | .ok path => .ok { id, path }
  | key => .error (.malformed (.name key))

/-- The listed schemas, up to the first bad entry. -/
def decodeEntries : List (Value × Value) → Except ManifestError (List ManifestEntry)
  | [] => .ok []
  | entry :: rest =>
      match decodeEntry entry with
      | .error error => .error error
      | .ok decoded =>
          match decodeEntries rest with
          | .error error => .error error
          | .ok others => .ok (decoded :: others)

/-- The mapping of names to entries. An omitted one is empty. -/
def evalSchemas (document : Document) (node : Node Nat) : Evaluation (List (Value × Value)) := do
  match ← deref document node with
  | .mapping _ entries => evalEntries (eval document (Document.depth - 2)) [] entries
  | .scalar _ true "" => pure []
  | _ => failure

/-- Looks through the entries of a document for `schemas`, which may stand there
    once. Every key must be a scalar; other values are not looked at. -/
def evalRoot (document : Document) (found : Option (List (Value × Value))) :
    List (Node Nat × Node Nat) → Evaluation (List (Value × Value))
  | [] => pure (found.getD [])
  | (key, value) :: rest => do
      match ← deref document key with
      | .scalar _ _ "schemas" =>
          if found.isSome then failure
          else
            let schemas ← evalSchemas document value
            evalRoot document (some schemas) rest
      | .scalar .. => evalRoot document found rest
      | _ => failure

/-- The names and entries that a document lists. An empty one lists nothing. -/
def evalDocument (document : Document) : Evaluation (List (Value × Value)) :=
  match document.root with
  | .mapping _ entries => evalRoot document none entries
  | .scalar _ true "" => pure []
  | _ => failure

/-- The names and entries that a text lists. -/
def listed? (text : List Char) : Option (List (Value × Value)) := do
  let document ← Document.ofText? text
  let (schemas, _) ← (evalDocument document).run document.jumps
  some schemas

end Decode

/-- Reads the text of a manifest. -/
def ofText (text : List Char) : Except ManifestError Manifest :=
  match listed? text with
  | none => .error (.malformed .document)
  | some schemas =>
      match decodeEntries schemas with
      | .error error => .error error
      | .ok entries => .ok { entries }

/-- The manifest found at a path, given what reading it gave. -/
def ofReading (path : String) (reading : Except FileError (List Char)) :
    Except ManifestError Manifest :=
  match reading with
  | .error error => .error (.unreadable path error)
  | .ok text =>
      match ofText text with
      | .error error => .error error
      | .ok manifest => .ok { manifest with location := some path }

end Manifest

end ExpressLinks
