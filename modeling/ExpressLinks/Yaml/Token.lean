/-!
# YAML tokens

A document is a list of tokens. Collections written by indentation have tokens
of their own where they start and end; a key is announced by a token even where
only the colon after it tells that it is one.
-/

namespace ExpressLinks.Yaml

/-- A tag as written: the handle between exclamation marks and what follows.
    A tag written in full has no handle. -/
structure TagName where
  handle : String
  suffix : String
  deriving DecidableEq, Repr

/-- A token of a document. -/
inductive Token where
  | versionDirective (major minor : Nat)
  | tagDirective (handle start : String)
  | documentStart
  | documentEnd
  | blockSequenceStart
  | blockMappingStart
  | blockEnd
  | flowSequenceStart
  | flowSequenceEnd
  | flowMappingStart
  | flowMappingEnd
  | blockEntry
  | flowEntry
  | key
  | value
  | reference (anchor : String)
  | anchor (name : String)
  | tag (name : TagName)
  | scalar (plain : Bool) (text : String)
  deriving DecidableEq, Repr

end ExpressLinks.Yaml
