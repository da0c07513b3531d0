import ExpressLinks.Diagnostic
import ExpressLinks.FileError
import ExpressLinks.FilePath
import ExpressLinks.Ident

/-!
# Configuration

Where documents are, what their names end in, where the report goes, how many
workers read files, and which severities differ from the defaults. Relative
paths are taken from the root of the project.
-/

namespace ExpressLinks

/-- A configuration; the root is not part of what is written down. -/
structure Config where
  documentsDir : String := "documents"
  documentExtensions : List String := ["adoc"]
  parsedExtension : String := "json"
  output : String := "validation_results.txt"
  jobs : Nat := 1
  severity : SeverityOverrides := {}
  projectRoot : String := ""
  deriving DecidableEq, Repr

/-- Why there is no configuration. -/
inductive ConfigError where
  | unreadable (error : FileError)
  | malformed
  | noJobs
  deriving DecidableEq, Repr

namespace ConfigError

/-- The text of the error. -/
def message : ConfigError → String
  | unreadable error => s!"IO error: {error.message}"
  | malformed => "Parse error: no configuration"
  | noJobs => "Invalid value: jobs must be at least 1"

end ConfigError

namespace Config

/-- A path of the configuration, seen from where the program runs. -/
def resolvePath (config : Config) (path : String) : String :=
  FilePath.join config.projectRoot path

/-- Is the file a document by its extension, letter case aside? -/
def isDocument (config : Config) (path : String) : Bool :=
  (FilePath.extension? path).any fun extension =>
    config.documentExtensions.any (Ident.same · extension)

end Config

end ExpressLinks
