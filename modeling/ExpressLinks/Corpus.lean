import ExpressLinks.FileError
import ExpressLinks.Schema

/-!
# Corpora

A corpus is a set of schemas with pairwise different names, in the order in
which they were loaded. It is built whole or not at all: one file that cannot
be loaded, or two schemas of one name, and there is no corpus.
-/

namespace ExpressLinks

/-- Why there is no corpus. -/
inductive CorpusError where
  | unreadable (path : String) (error : FileError)
  | malformed (path : String) (detail : String)
  | duplicate (first second : String)
  deriving DecidableEq, Repr

namespace CorpusError

/-- The text of the error. -/
def message : CorpusError → String
  | unreadable path error => s!"Failed to read parsed schema {path}: {error.message}"
  | malformed path detail => s!"Failed to parse schema document {path}: {detail}"
  | duplicate first second =>
      s!"Duplicate schema id '{second}' (already loaded as '{first}')"

end CorpusError

/-- Schemas in load order, each filed under the folded spelling of its name. -/
structure Corpus where
  entries : List (String × Schema)
  deriving DecidableEq, Repr

namespace Corpus

/-- The corpus without schemas. -/
def empty : Corpus := ⟨[]⟩

/-- The schemas in load order. -/
def schemas (corpus : Corpus) : List Schema := corpus.entries.map (·.2)

/-- The number of schemas. -/
def size (corpus : Corpus) : Nat := corpus.entries.length

/-- The schema of that name, letter case aside. -/
def lookup? (corpus : Corpus) (id : String) : Option Schema :=
  corpus.entries.lookup (Ident.folded id)

/-- Files one more schema, unless its name is taken. -/
def insert (corpus : Corpus) (schema : Schema) : Except CorpusError Corpus :=
  match corpus.lookup? schema.id with
  | some first => .error (.duplicate first.id schema.id)
  | none => .ok ⟨corpus.entries ++ [(Ident.folded schema.id, schema)]⟩

/-- Files the schemas in order, up to the first whose name is taken. -/
def insertAll (corpus : Corpus) : List Schema → Except CorpusError Corpus
  | [] => .ok corpus
  | schema :: rest =>
      match corpus.insert schema with
      | .error error => .error error
      | .ok larger => insertAll larger rest

/-- The corpus of the given schemas. -/
def ofSchemas (schemas : List Schema) : Except CorpusError Corpus := empty.insertAll schemas

section Load

variable {m : Type → Type} [Monad m]

/-- Asks `loader` for every file in order, up to the first that fails. -/
def loadSchemas (loader : String → m (Except CorpusError (List Schema))) :
    List String → m (Except CorpusError (List Schema))
  | [] => pure (.ok [])
  | path :: rest => do
      match ← loader path with
      | .error error => pure (.error error)
      | .ok schemas =>
          match ← loadSchemas loader rest with
          | .error error => pure (.error error)
          | .ok others => pure (.ok (schemas ++ others))

/-- The corpus of all schemas in the files. Names are compared once every file
    has been loaded, so a file that fails to load comes before any duplicate. -/
def load (loader : String → m (Except CorpusError (List Schema))) (paths : List String) :
    m (Except CorpusError Corpus) := do
  match ← loadSchemas loader paths with
  | .error error => pure (.error error)
  | .ok schemas => pure (ofSchemas schemas)

end Load

end Corpus

end ExpressLinks
