/-!
# Diagnostics

A diagnostic says what is wrong, how grave it is and where. The codes are a
stable vocabulary that reports, configuration files and tools share; each code
has a severity of its own, which a configuration may override.
-/

namespace ExpressLinks

/-- What a diagnostic is about. -/
inductive DiagnosticCode where
  | linkSchemaNotFound
  | linkElementNotFound
  | linkAttributeNotFound
  | linkEnumValueNotFound
  | linkBaseTypeNotFound
  | linkBuiltinTypeLeaf
  | linkEnumValueLeaf
  | linkNotNavigable
  | linkRedirectionLimit
  | fileUnreadable
  | asciiNonAsciiCharacter
  deriving DecidableEq, Repr

/-- How grave a diagnostic is, least first. -/
inductive Severity where
  | info
  | warn
  | error
  deriving DecidableEq, Repr

namespace Severity

/-- Every severity, least first. -/
def all : List Severity := [info, warn, error]

/-- The word for a severity. -/
def name : Severity → String
  | info => "info"
  | warn => "warn"
  | error => "error"

/-- The position in the order of gravity. -/
def rank : Severity → Nat
  | info => 0
  | warn => 1
  | error => 2

/-- No graver than. -/
def atMost (a b : Severity) : Bool := a.rank ≤ b.rank

end Severity

namespace DiagnosticCode

/-- Every code. -/
def all : List DiagnosticCode :=
  [linkSchemaNotFound, linkElementNotFound, linkAttributeNotFound, linkEnumValueNotFound,
   linkBaseTypeNotFound, linkBuiltinTypeLeaf, linkEnumValueLeaf, linkNotNavigable,
   linkRedirectionLimit, fileUnreadable, asciiNonAsciiCharacter]

/-- The stable spelling of a code. -/
def name : DiagnosticCode → String
  | linkSchemaNotFound => "LINK_SCHEMA_NOT_FOUND"
  | linkElementNotFound => "LINK_ELEMENT_NOT_FOUND"
  | linkAttributeNotFound => "LINK_ATTRIBUTE_NOT_FOUND"
  | linkEnumValueNotFound => "LINK_ENUM_VALUE_NOT_FOUND"
  | linkBaseTypeNotFound => "LINK_BASE_TYPE_NOT_FOUND"
  | linkBuiltinTypeLeaf => "LINK_BUILTIN_TYPE_LEAF"
  | linkEnumValueLeaf => "LINK_ENUM_VALUE_LEAF"
  | linkNotNavigable => "LINK_NOT_NAVIGABLE"
  | linkRedirectionLimit => "LINK_REDIRECTION_LIMIT"
  | fileUnreadable => "FILE_UNREADABLE"
  | asciiNonAsciiCharacter => "ASCII_NON_ASCII_CHARACTER"

/-- The severity of a code that no configuration overrides: a file that cannot
    be read is a warning, everything else an error. -/
def defaultSeverity : DiagnosticCode → Severity
  | fileUnreadable => .warn
  | _ => .error

end DiagnosticCode

/-- A place in a file; lines and columns count from one. -/
structure Location where
  file : String
  line : Option Nat := none
  column : Option Nat := none
  deriving DecidableEq, Repr

namespace Location

/-- `file`, `file:line` or `file:line:column`; a column without a line is not
    shown. -/
def describe (location : Location) : String :=
  match location.line, location.column with
  | none, _ => location.file
  | some line, none => s!"{location.file}:{line}"
  | some line, some column => s!"{location.file}:{line}:{column}"

end Location

/-- A finding, with the offending text as its subject. -/
structure Diagnostic where
  code : DiagnosticCode
  severity : Severity
  message : String
  location : Option Location := none
  subject : Option String := none
  deriving DecidableEq, Repr

/-- Severities by the spelling of a code. The spellings are distinct; those that
    name no code are kept and have no effect. -/
structure SeverityOverrides where
  entries : List (String × Severity) := []
  deriving DecidableEq, Repr

namespace SeverityOverrides

/-- Sets the severity for a spelling; an earlier one is forgotten. -/
def set (overrides : SeverityOverrides) (name : String) (severity : Severity) :
    SeverityOverrides :=
  ⟨overrides.entries.filter (·.1 != name) ++ [(name, severity)]⟩

/-- The severity of a code, `fallback` unless overridden. -/
def severityOf (overrides : SeverityOverrides) (code : DiagnosticCode) (fallback : Severity) :
    Severity :=
  (overrides.entries.lookup code.name).getD fallback

end SeverityOverrides

end ExpressLinks
