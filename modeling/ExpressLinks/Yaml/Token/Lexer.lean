import ExpressLinks.Yaml.ScalarText
import ExpressLinks.Yaml.Token.Tag

/-!
# Cutting a document into tokens

Tokens are read from left to right. Two things are kept beside them. Block
collections are open at columns that grow from the outside inwards; a token
further left closes them. And whatever may turn out to be a key is remembered,
one for each level of brackets, until a colon comes or its line ends: the colon
puts the key's token before what was remembered, and the start of a mapping if
the key opens one.
-/

namespace ExpressLinks.Yaml

open Glyph

/-- Something that is a key if a colon follows it on its line: how many tokens
    stand before it, where it starts, and whether nothing else may stand
    there. -/
structure PossibleKey where
  tokensBefore : Nat
  start : Glyph
  required : Bool
  deriving Repr

/-- What has been read of a document, and what is left. -/
structure Lexer where
  rest : List Glyph
  /-- The tokens so far, last first. -/
  tokens : List Token := []
  /-- How many tokens there are so far. -/
  count : Nat := 0
  /-- The columns of the open block collections, innermost first. -/
  columns : List Nat := []
  /-- May a key start here? -/
  keyAllowed : Bool := true
  possibleKey : Option PossibleKey := none
  /-- The possible keys outside each open bracket, innermost first. -/
  outerKeys : List (Option PossibleKey) := []
  deriving Repr

/-- The glyphs after blanks, comments and breaks, and whether a key may start
    there. Outside brackets a break allows a key, and where a key is allowed a
    tab is no blank. -/
def nextWord (inFlow : Bool) (inComment keyAllowed : Bool) : List Glyph → Bool × List Glyph
  | [] => (keyAllowed, [])
  | glyph :: rest =>
      if isBreak glyph.char then nextWord inFlow false (keyAllowed || !inFlow) rest
      else if inComment then nextWord inFlow true keyAllowed rest
      else if glyph.is ' ' || ((inFlow || !keyAllowed) && glyph.is '\t') then
        nextWord inFlow false keyAllowed rest
      else if glyph.is '#' then nextWord inFlow true keyAllowed rest
      else (keyAllowed, glyph :: rest)

/-- The characters that cannot start plain text. -/
def indicators : List Char :=
  ['-', '?', ':', ',', '[', ']', '\x7b', '\x7d', '#', '&', '*', '!', '|', '>', '\'', '"', '%',
   '@', '\x60']

/-- May plain text start here? A dash may start it before anything but a blank;
    a question mark and a colon may outside brackets, inside a word. -/
def startsPlain (inFlow : Bool) : List Glyph → Bool
  | [] => false
  | glyph :: rest =>
      !(isBlank glyph.char || isBreak glyph.char || indicators.contains glyph.char)
        || (glyph.is '-' && !startsWithAny [' ', '\t'] rest)
        || (!inFlow && (glyph.is '?' || glyph.is ':') && !endsWord rest)

namespace Lexer

/-- Is any bracket open? -/
def inFlow (lexer : Lexer) : Bool := !lexer.outerKeys.isEmpty

/-- Adds a token. -/
def emit (lexer : Lexer) (token : Token) : Lexer :=
  { lexer with tokens := token :: lexer.tokens, count := lexer.count + 1 }

/-- Puts a token after the first `count` tokens. -/
def emitAfter (lexer : Lexer) (count : Nat) (token : Token) : Lexer :=
  let later := lexer.count - count
  { lexer with
    tokens := lexer.tokens.take later ++ token :: lexer.tokens.drop later
    count := lexer.count + 1 }

/-- Does a column lie inside the innermost open block collection? -/
def isInside (lexer : Lexer) (column : Nat) : Bool :=
  match lexer.columns with
  | [] => true
  | innermost :: _ => innermost < column

/-- Opens a block collection at a column, after the first `count` tokens, if the
    column lies inside those that are open. -/
def openBlock (lexer : Lexer) (column count : Nat) (token : Token) : Lexer :=
  if !lexer.inFlow && lexer.isInside column then
    { lexer.emitAfter count token with columns := column :: lexer.columns }
  else lexer

/-- Closes the block collections at columns that satisfy the test. -/
def closeWhile (test : Nat → Bool) (lexer : Lexer) : Lexer :=
  if lexer.inFlow then lexer
  else
    let closed := lexer.columns.takeWhile test
    { lexer with
      tokens := List.replicate closed.length .blockEnd ++ lexer.tokens
      count := lexer.count + closed.length
      columns := lexer.columns.dropWhile test }

/-- Closes all block collections. -/
def closeAll (lexer : Lexer) : Lexer := lexer.closeWhile fun _ => true

/-- Gives up the possible key, unless nothing else may stand there. -/
def dropKey? (lexer : Lexer) : Option Lexer :=
  match lexer.possibleKey with
  | none => some lexer
  | some key => if key.required then none else some { lexer with possibleKey := none }

/-- Remembers that a key may start at the glyph, if keys are allowed. -/
def rememberKey? (lexer : Lexer) (start : Glyph) : Option Lexer :=
  if lexer.keyAllowed then do
    let lexer ← lexer.dropKey?
    let required := !lexer.inFlow && lexer.columns.head? == some start.column
    some { lexer with possibleKey := some ⟨lexer.count, start, required⟩ }
  else some lexer

/-- Is the key too far back for a colon at the glyph? It must be on the same line
    and at most 1024 characters away. -/
def isStale (key : PossibleKey) (glyph : Glyph) : Bool :=
  key.start.line < glyph.line || key.start.index + 1024 < glyph.index

/-- Gives up a key that is too far back. -/
def freshKey? (glyph : Glyph) : Option PossibleKey → Option (Option PossibleKey)
  | none => some none
  | some key =>
      if isStale key glyph then if key.required then none else some none else some (some key)

/-- Gives up all keys that are too far back. -/
def dropStaleKeys? (lexer : Lexer) (glyph : Glyph) : Option Lexer := do
  let possibleKey ← freshKey? glyph lexer.possibleKey
  let outerKeys ← lexer.outerKeys.mapM (freshKey? glyph)
  some { lexer with possibleKey, outerKeys }

/-- A directive. -/
def directive? (lexer : Lexer) (rest : List Glyph) : Option Lexer := do
  let lexer ← lexer.closeAll.dropKey?
  let (token, rest) ← Yaml.directive? rest
  some ({ lexer with keyAllowed := false, rest }.emit token)

/-- The start or end of a document. -/
def documentMark? (lexer : Lexer) (token : Token) (rest : List Glyph) : Option Lexer := do
  let lexer ← lexer.closeAll.dropKey?
  some ({ lexer with keyAllowed := false, rest := rest.drop 2 }.emit token)

/-- An opening bracket. -/
def openFlow? (lexer : Lexer) (token : Token) (glyph : Glyph) (rest : List Glyph) :
    Option Lexer := do
  let lexer ← lexer.rememberKey? glyph
  some
    ({ lexer with
        outerKeys := lexer.possibleKey :: lexer.outerKeys
        possibleKey := none
        keyAllowed := true
        rest }.emit token)

/-- A closing bracket. -/
def closeFlow? (lexer : Lexer) (token : Token) (rest : List Glyph) : Option Lexer := do
  let lexer ← lexer.dropKey?
  let lexer := match lexer.outerKeys with
    | [] => lexer
    | key :: keys => { lexer with possibleKey := key, outerKeys := keys }
  some ({ lexer with keyAllowed := false, rest }.emit token)

/-- A comma between brackets. -/
def flowEntry? (lexer : Lexer) (rest : List Glyph) : Option Lexer := do
  let lexer ← lexer.dropKey?
  some ({ lexer with keyAllowed := true, rest }.emit .flowEntry)

/-- Opens a block collection where a key is allowed. -/
def openHere? (lexer : Lexer) (glyph : Glyph) (token : Token) : Option Lexer :=
  if lexer.inFlow then some lexer
  else if lexer.keyAllowed then
    some (lexer.openBlock glyph.column lexer.count token)
  else none

/-- A dash before an item. -/
def blockEntry? (lexer : Lexer) (glyph : Glyph) (rest : List Glyph) : Option Lexer := do
  let lexer ← lexer.openHere? glyph .blockSequenceStart
  let lexer ← lexer.dropKey?
  some ({ lexer with keyAllowed := true, rest }.emit .blockEntry)

/-- A question mark before a key. -/
def explicitKey? (lexer : Lexer) (glyph : Glyph) (rest : List Glyph) : Option Lexer := do
  let lexer ← lexer.openHere? glyph .blockMappingStart
  let lexer ← lexer.dropKey?
  some ({ lexer with keyAllowed := !lexer.inFlow, rest }.emit .key)

/-- A colon before a value. A possible key becomes one. -/
def value? (lexer : Lexer) (glyph : Glyph) (rest : List Glyph) : Option Lexer :=
  match lexer.possibleKey with
  | some key =>
      let lexer := lexer.emitAfter key.tokensBefore .key
      let lexer := lexer.openBlock key.start.column key.tokensBefore .blockMappingStart
      some ({ lexer with possibleKey := none, keyAllowed := false, rest }.emit .value)
  | none => do
      let lexer ← lexer.openHere? glyph .blockMappingStart
      some ({ lexer with keyAllowed := !lexer.inFlow, rest }.emit .value)

/-- A token that may be a key or start one. -/
def keyToken? (lexer : Lexer) (glyph : Glyph) (token : Token) (keyAllowed : Bool)
    (rest : List Glyph) : Option Lexer := do
  let lexer ← lexer.rememberKey? glyph
  some ({ lexer with keyAllowed, rest }.emit token)

/-- A block scalar. -/
def block? (lexer : Lexer) (folded : Bool) (rest : List Glyph) : Option Lexer := do
  let lexer ← lexer.dropKey?
  let (text, rest) ← Yaml.block? folded lexer.columns.head? rest
  some ({ lexer with keyAllowed := true, rest }.emit (.scalar false (String.ofList text)))

/-- Plain text. A break after it allows a key. -/
def plain? (lexer : Lexer) (glyph : Glyph) (rest : List Glyph) : Option Lexer := do
  let least := match lexer.columns with
    | [] => 0
    | column :: _ => column + 1
  let plain ← plainText? lexer.inFlow least {} (glyph :: rest)
  lexer.keyToken? glyph (.scalar true (String.ofList plain.text)) plain.broken plain.rest

/-- Reads the token that starts at a glyph. -/
def token? (lexer : Lexer) (glyph : Glyph) (rest : List Glyph) : Option Lexer :=
  let glyphs := glyph :: rest
  if glyph.column = 0 ∧ glyph.char = '%' then lexer.directive? rest
  else if isRule '-' glyphs then lexer.documentMark? .documentStart rest
  else if isRule '.' glyphs then lexer.documentMark? .documentEnd rest
  else
    let isWord := endsWord rest
    match glyph.char with
    | '[' => lexer.openFlow? .flowSequenceStart glyph rest
    | '\x7b' => lexer.openFlow? .flowMappingStart glyph rest
    | ']' => lexer.closeFlow? .flowSequenceEnd rest
    | '\x7d' => lexer.closeFlow? .flowMappingEnd rest
    | ',' => lexer.flowEntry? rest
    | '*' => do
        let (name, rest) ← anchorName? rest
        lexer.keyToken? glyph (.reference name) false rest
    | '&' => do
        let (name, rest) ← anchorName? rest
        lexer.keyToken? glyph (.anchor name) false rest
    | '!' => do
        let (name, rest) ← tag? lexer.inFlow glyphs
        lexer.keyToken? glyph (.tag name) false rest
    | '\'' => do
        let (text, rest) ← singleQuotedText? {} rest
        lexer.keyToken? glyph (.scalar false (String.ofList text)) false rest
    | '"' => do
        let (text, rest) ← doubleQuotedText? {} rest
        lexer.keyToken? glyph (.scalar false (String.ofList text)) false rest
    | c =>
        if c = '-' ∧ isWord then lexer.blockEntry? glyph rest
        else if c = '?' ∧ (lexer.inFlow ∨ isWord) then lexer.explicitKey? glyph rest
        else if c = ':' ∧ (lexer.inFlow ∨ isWord) then lexer.value? glyph rest
        else if c = '|' ∧ !lexer.inFlow then lexer.block? false rest
        else if c = '>' ∧ !lexer.inFlow then lexer.block? true rest
        else if startsPlain lexer.inFlow glyphs then lexer.plain? glyph rest
        else none

/-- Reads all tokens, at most `fuel` of them. -/
def run? : Nat → Lexer → Option (List Token)
  | fuel, lexer =>
      match nextWord lexer.inFlow false lexer.keyAllowed lexer.rest with
      | (_, []) => lexer.closeAll.dropKey?.map fun lexer => lexer.tokens.reverse
      | (keyAllowed, glyph :: rest) =>
          match fuel with
          | 0 => none
          | fuel + 1 => do
              let lexer ← { lexer with keyAllowed }.dropStaleKeys? glyph
              let lexer ← (lexer.closeWhile (glyph.column < ·)).token? glyph rest
              run? fuel lexer

end Lexer

/-- The tokens of a text. Each is at least one glyph long. -/
def tokens? (text : List Char) : Option (List Token) := do
  let glyphs ← ofText? text
  Lexer.run? glyphs.length { rest := glyphs }

end ExpressLinks.Yaml
