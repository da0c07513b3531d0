import ExpressLinks.Yaml.Token.Lexer

/-!
# YAML nodes

A document is a tree of nodes: scalars, sequences, mappings and references to
anchored nodes. A node may have an anchor and a tag. Where a token list leaves a
value or a key out, an empty plain scalar stands for it. A text holds at most
one document, and nothing may follow it.
-/

namespace ExpressLinks.Yaml

/-- What stands before a node. -/
structure Properties (Anchor : Type) where
  anchor : Option Anchor := none
  tag : Option String := none
  deriving DecidableEq, Repr

/-- A node of a document. -/
inductive Node (Anchor : Type) where
  | scalar (properties : Properties Anchor) (plain : Bool) (text : String)
  | sequence (properties : Properties Anchor) (items : List (Node Anchor))
  | mapping (properties : Properties Anchor) (entries : List (Node Anchor × Node Anchor))
  | reference (anchor : Anchor)
  deriving Repr

namespace Node

/-- The scalar that stands for what was left out. -/
def omitted {Anchor : Type} : Node Anchor := .scalar {} true ""

/-- Tag handles and what they stand for. -/
abbrev Handles := List (String × String)

/-- The handles that need no directive. -/
def standardHandles : Handles := [("!", "!"), ("!!", "tag:yaml.org,2002:")]

/-- A tag in full. -/
def fullTag? (handles : Handles) (name : TagName) : Option String :=
  if name.handle = "" then some name.suffix
  else (handles.lookup name.handle).map (· ++ name.suffix)

/-- Reads the directives before a document: at most one version, which must be
    1.1 or 1.2, and no handle twice. -/
def directives? (versioned : Bool) (handles : Handles) :
    List Token → Option (Handles × List Token)
  | .versionDirective major minor :: rest =>
      if !versioned && major == 1 && (minor == 1 || minor == 2) then
        directives? true handles rest
      else none
  | .tagDirective handle start :: rest =>
      if handles.any (·.1 == handle) then none
      else directives? versioned (handles ++ [(handle, start)]) rest
  | rest => some (handles, rest)

/-- Reads anchor and tag before a node, in either order. -/
def properties? (handles : Handles) : List Token → Option (Properties String × List Token)
  | .anchor name :: .tag tag :: rest =>
      (fullTag? handles tag).map fun tag => (⟨some name, some tag⟩, rest)
  | .tag tag :: .anchor name :: rest =>
      (fullTag? handles tag).map fun tag => (⟨some name, some tag⟩, rest)
  | .anchor name :: rest => some (⟨some name, none⟩, rest)
  | .tag tag :: rest => (fullTag? handles tag).map fun tag => (⟨none, some tag⟩, rest)
  | rest => some ({}, rest)

/-- A scalar that is written out. The tag of a single exclamation mark says
    nothing about it. -/
def ofScalar (properties : Properties String) (plain : Bool) (text : String) : Node String :=
  if properties.tag = some "!" then .scalar { properties with tag := none } plain text
  else .scalar properties plain text

/-- Does the token stand where an item of a block sequence is left out? -/
def endsItem : List Token → Bool
  | .blockEntry :: _ => true
  | .blockEnd :: _ => true
  | _ => false

/-- Does the token stand where a key or value of a block mapping is left out? -/
def endsEntry : List Token → Bool
  | .key :: _ => true
  | .value :: _ => true
  | .blockEnd :: _ => true
  | _ => false

mutual

/-- Reads a node. Block collections are admitted only outside brackets, and a
    sequence that is not indented only in a block mapping. `fuel` bounds the
    depth of the reading. -/
def read? (handles : Handles) (inBlock inMapping : Bool) :
    Nat → List Token → Option (Node String × List Token)
  | 0, _ => none
  | _ + 1, .reference name :: rest => some (.reference name, rest)
  | fuel + 1, tokens => do
      let (properties, rest) ← properties? handles tokens
      match rest with
      | .scalar plain text :: rest => some (ofScalar properties plain text, rest)
      | .flowSequenceStart :: rest =>
          let (items, rest) ← flowItems? handles true fuel rest
          some (.sequence properties items, rest)
      | .flowMappingStart :: rest =>
          let (entries, rest) ← flowEntries? handles true fuel rest
          some (.mapping properties entries, rest)
      | rest =>
          let bare := if properties = {} then none
            else some (.scalar properties true "", rest)
          match inBlock, inMapping, rest with
          | _, true, .blockEntry :: rest =>
              let (items, rest) ← looseItems? handles fuel (.blockEntry :: rest)
              some (.sequence properties items, rest)
          | true, _, .blockSequenceStart :: rest =>
              let (items, rest) ← blockItems? handles fuel rest
              some (.sequence properties items, rest)
          | true, _, .blockMappingStart :: rest =>
              let (entries, rest) ← blockEntries? handles fuel rest
              some (.mapping properties entries, rest)
          | _, _, _ => bare

/-- Reads the items of a block sequence and its end. -/
def blockItems? (handles : Handles) : Nat → List Token → Option (List (Node String) × List Token)
  | fuel + 1, .blockEntry :: rest => do
      let (item, rest) ←
        if endsItem rest then some (omitted, rest) else read? handles true false fuel rest
      let (items, rest) ← blockItems? handles fuel rest
      some (item :: items, rest)
  | _, .blockEnd :: rest => some ([], rest)
  | _, _ => none

/-- Reads the items of a sequence that is not indented; what follows ends it. -/
def looseItems? (handles : Handles) : Nat → List Token → Option (List (Node String) × List Token)
  | fuel + 1, .blockEntry :: rest => do
      let (item, rest) ←
        if endsItem rest || endsEntry rest then some (omitted, rest)
        else read? handles true false fuel rest
      let (items, rest) ← looseItems? handles fuel rest
      some (item :: items, rest)
  | 0, _ => none
  | _, rest => some ([], rest)

/-- Reads the entries of a block mapping and its end. -/
def blockEntries? (handles : Handles) :
    Nat → List Token → Option (List (Node String × Node String) × List Token)
  | fuel + 1, .key :: rest => do
      let (key, rest) ←
        if endsEntry rest then some (omitted, rest) else read? handles true true fuel rest
      let (value, rest) ← match rest with
        | .value :: rest =>
            if endsEntry rest then some (omitted, rest) else read? handles true true fuel rest
        | rest => some (omitted, rest)
      let (entries, rest) ← blockEntries? handles fuel rest
      some ((key, value) :: entries, rest)
  | _, .blockEnd :: rest => some ([], rest)
  | _, _ => none

/-- Reads the value after a key between brackets, where `ends` tells what comes
    after a value that is left out. -/
def flowValue? (handles : Handles) (ends : Token) :
    Nat → List Token → Option (Node String × List Token)
  | fuel + 1, .value :: token :: rest =>
      if token = .flowEntry ∨ token = ends then some (omitted, token :: rest)
      else read? handles false false fuel (token :: rest)
  | _, .value :: rest => some (omitted, rest)
  | _, rest => some (omitted, rest)

/-- Reads the items of a sequence in brackets and its end. A pair with a key is
    a mapping of one entry. Where a question mark has no key after it, the next
    token is passed over. -/
def flowItems? (handles : Handles) (first : Bool) :
    Nat → List Token → Option (List (Node String) × List Token)
  | _, .flowSequenceEnd :: rest => some ([], rest)
  | 0, _ => none
  | fuel + 1, tokens => do
      let rest ← if first then some tokens
        else match tokens with
          | .flowEntry :: rest => some rest
          | _ => none
      match rest with
      | .flowSequenceEnd :: rest => some ([], rest)
      | .key :: rest =>
          let (key, rest) ← match rest with
            | .value :: rest => some (omitted, rest)
            | .flowEntry :: rest => some (omitted, rest)
            | .flowSequenceEnd :: rest => some (omitted, rest)
            | _ => read? handles false false fuel rest
          let (value, rest) ← flowValue? handles .flowSequenceEnd fuel rest
          let (items, rest) ← flowItems? handles false fuel rest
          some (.mapping {} [(key, value)] :: items, rest)
      | rest =>
          let (item, rest) ← read? handles false false fuel rest
          let (items, rest) ← flowItems? handles false fuel rest
          some (item :: items, rest)

/-- Reads the entries of a mapping in brackets and its end. -/
def flowEntries? (handles : Handles) (first : Bool) :
    Nat → List Token → Option (List (Node String × Node String) × List Token)
  | _, .flowMappingEnd :: rest => some ([], rest)
  | 0, _ => none
  | fuel + 1, tokens => do
      let rest ← if first then some tokens
        else match tokens with
          | .flowEntry :: rest => some rest
          | _ => none
      match rest with
      | .flowMappingEnd :: rest => some ([], rest)
      | .key :: rest =>
          let (key, rest) ← match rest with
            | .value :: _ => some (omitted, rest)
            | .flowEntry :: _ => some (omitted, rest)
            | .flowMappingEnd :: _ => some (omitted, rest)
            | _ => read? handles false false fuel rest
          let (value, rest) ← flowValue? handles .flowMappingEnd fuel rest
          let (entries, rest) ← flowEntries? handles false fuel rest
          some ((key, value) :: entries, rest)
      | rest =>
          let (key, rest) ← read? handles false false fuel rest
          let (entries, rest) ← flowEntries? handles false fuel rest
          some ((key, omitted) :: entries, rest)

end

/-- Is there nothing but ends of documents? -/
def isOver (tokens : List Token) : Bool := tokens.all (· == .documentEnd)

/-- Does the content of a document that starts here consist of nothing? -/
def endsDocument : List Token → Bool
  | [] => true
  | .versionDirective .. :: _ => true
  | .tagDirective .. :: _ => true
  | .documentStart :: _ => true
  | .documentEnd :: _ => true
  | _ => false

/-- Adds the standard handles to those of directives. -/
def withStandard (handles : Handles) : Handles :=
  handles ++ standardHandles.filter fun handle => !handles.any (·.1 == handle.1)

/-- The document that the tokens make up; an empty text has the omitted scalar
    for one. Every token takes at most two steps down. -/
def ofTokens? (tokens : List Token) : Option (Node String) :=
  let fuel := 2 * tokens.length + 2
  match tokens with
  | [] => some omitted
  | _ => do
      let (handles, rest) ← directives? false [] tokens
      let explicit := match rest with
        | .documentStart :: _ => true
        | _ => false
      if !explicit && rest.length != tokens.length then none
      else
        let (node, rest) ←
          if explicit then
            if endsDocument (rest.drop 1) then some (omitted, rest.drop 1)
            else read? (withStandard handles) true false fuel (rest.drop 1)
          else read? (withStandard handles) true false fuel rest
        if isOver rest then some node else none

/-- The document that a text writes. -/
def ofText? (text : List Char) : Option (Node String) := (tokens? text).bind ofTokens?

end Node

end ExpressLinks.Yaml
