import ExpressLinks.Config.Document
import ExpressLinks.Corpus
import ExpressLinks.Machine
import ExpressLinks.Manifest
import ExpressLinks.Schema.Document

/-!
# Loading

Configurations, manifests, schema documents and corpora from the files of a
machine.
-/

namespace ExpressLinks

namespace SchemaDocument

/-- The schemas of the document found at a path, given what reading it gave. -/
def ofReading (path : String) (reading : Except FileError (List Char)) :
    Except CorpusError (List Schema) :=
  match reading with
  | .error error => .error (.unreadable path error)
  | .ok text =>
      match parse? text with
      | none => .error (.malformed path "no list of schemas")
      | some schemas => .ok schemas

end SchemaDocument

section

variable {m : Type → Type} [Monad m] [Machine m]

/-- Loads the configuration at a path. -/
def Config.load (path : String) : m (Except ConfigError Config) := do
  return Config.ofReading path (← Machine.readText path)

/-- Loads the manifest at a path. -/
def Manifest.load (path : String) : m (Except ManifestError Manifest) := do
  return Manifest.ofReading path (← Machine.readText path)

/-- Loads the schemas that an EXPRESS file declares, from the document that
    belongs to it. -/
def SchemaDocument.load (extension path : String) : m (Except CorpusError (List Schema)) := do
  let document := pathFor extension path
  return SchemaDocument.ofReading document (← Machine.readText document)

/-- Loads the schemas of every file that a manifest lists. -/
def Corpus.loadManifest (extension : String) (manifest : Manifest) :
    m (Except CorpusError Corpus) :=
  Corpus.load (SchemaDocument.load extension) (manifest.schemaPaths.map (·.2))

end

end ExpressLinks
