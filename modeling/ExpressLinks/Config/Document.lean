import ExpressLinks.Config
import ExpressLinks.Diagnostic.Document
import ExpressLinks.Json.Decode
import ExpressLinks.Toml.Read

/-!
# Configurations in documents

A configuration is read from a TOML document. Every field has a default, and
unknown names count for nothing. A record may be written as an array of its
fields in order; in TOML, items past the last field count for nothing either.
-/

namespace ExpressLinks

namespace Toml.Value

/-- The text of a string. -/
def asText? : Value → Option String
  | .text content => some content
  | _ => none

/-- A number of things: an integer that is not negative. -/
def asCount? : Value → Option Nat
  | .integer (.ofNat value) => some value
  | _ => none

/-- The texts of an array. -/
def asTexts? : Value → Option (List String)
  | .array items => items.mapM asText?
  | _ => none

/-- Is it a table or array with nothing in it? -/
def isVoid : Value → Bool
  | .array [] => true
  | .table [] => true
  | _ => false

/-- A field of a record: its value by name in a table, by place in an array. A
    date has no fields. -/
def field? (name : String) (place : Nat) : Value → Option Value
  | .table entries => entries.lookup name
  | .array items => items[place]?
  | _ => none

/-- Can the value be a record? -/
def isRecord : Value → Bool
  | .table _ => true
  | .array _ => true
  | .date _ => true
  | _ => false

end Toml.Value

open Toml

namespace Severity

/-- Reads a severity: its name, or a table whose only entry has that name and
    holds nothing. -/
def ofToml? : Value → Option Severity
  | .text word => all.find? (·.name == word)
  | .table [(word, content)] =>
      if content.isVoid then all.find? (·.name == word) else none
  | _ => none

end Severity

namespace SeverityOverrides

/-- Reads severities by name. -/
def entriesOfToml? : Value → Option SeverityOverrides
  | .table entries =>
      entries.foldlM
        (fun overrides (name, value) => do
          let severity ← Severity.ofToml? value
          some (overrides.set name severity))
        {}
  | _ => none

/-- Reads overrides. -/
def ofToml? (value : Value) : Option SeverityOverrides :=
  if value.isRecord then
    match value.field? "overrides" 0 with
    | none => some {}
    | some entries => entriesOfToml? entries
  else none

end SeverityOverrides

namespace Config

/-- A configuration in a document. -/
def toJson (config : Config) : Json :=
  .ofMembers
    [("documents_dir", .text config.documentsDir),
     ("document_extensions", Json.ofList .text config.documentExtensions),
     ("parsed_extension", .text config.parsedExtension),
     ("output", .text config.output),
     ("jobs", .nat config.jobs),
     ("severity", config.severity.toJson)]

/-- Reads a configuration. -/
def ofJson? (json : Json) : Option Config := do
  let default : Config := {}
  let fields ← Json.fields?
    ["documents_dir", "document_extensions", "parsed_extension", "output", "jobs", "severity"] json
  let documentsDir ← fields.withDefault "documents_dir" Json.asText? default.documentsDir
  let documentExtensions ←
    fields.withDefault "document_extensions" (Json.asList? Json.asText?) default.documentExtensions
  let parsedExtension ← fields.withDefault "parsed_extension" Json.asText? default.parsedExtension
  let output ← fields.withDefault "output" Json.asText? default.output
  let jobs ← fields.withDefault "jobs" Json.asCounter? default.jobs
  let severity ← fields.withDefault "severity" SeverityOverrides.ofJson? default.severity
  some { documentsDir, documentExtensions, parsedExtension, output, jobs, severity }

/-- A value that is read if it is there and has a default otherwise. -/
def readOr {α : Type} (entries : List (String × Value)) (name : String)
    (read? : Value → Option α) (default : α) : Option α :=
  match entries.lookup name with
  | none => some default
  | some value => read? value

/-- Reads a configuration from the entries of a document. -/
def ofToml? (entries : List (String × Value)) : Option Config := do
  let default : Config := {}
  let documentsDir ← readOr entries "documents_dir" Value.asText? default.documentsDir
  let documentExtensions ←
    readOr entries "document_extensions" Value.asTexts? default.documentExtensions
  let parsedExtension ← readOr entries "parsed_extension" Value.asText? default.parsedExtension
  let output ← readOr entries "output" Value.asText? default.output
  let jobs ← readOr entries "jobs" Value.asCount? default.jobs
  let severity ← readOr entries "severity" SeverityOverrides.ofToml? default.severity
  some { documentsDir, documentExtensions, parsedExtension, output, jobs, severity }

/-- Reads the text of a configuration. At least one worker is needed. -/
def ofText (text : List Char) : Except ConfigError Config :=
  match (Toml.read? text).bind ofToml? with
  | none => .error .malformed
  | some config => if config.jobs = 0 then .error .noJobs else .ok config

/-- The configuration found at a path, given what reading it gave. The root of
    the project is where it was found. -/
def ofReading (path : String) (reading : Except FileError (List Char)) :
    Except ConfigError Config :=
  match reading with
  | .error error => .error (.unreadable error)
  | .ok text =>
      match ofText text with
      | .error error => .error error
      | .ok config => .ok { config with projectRoot := FilePath.directory path }

end Config

end ExpressLinks
