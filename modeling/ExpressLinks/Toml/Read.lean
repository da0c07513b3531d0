import ExpressLinks.Toml.Scalar
import ExpressLinks.Toml.Table

/-!
# Reading TOML

A document is read statement by statement: a header, a double header or an
assignment on each line, blanks and comments apart. Arrays may run over lines
and end in a comma; inline tables may not. Neither nests deeper than 79, and no
dotted name is that long.
-/

namespace ExpressLinks.Toml

/-- How deep arrays and inline tables may nest, and how long names may be. -/
def limit : Nat := 79

/-- The text after blanks. -/
def skipSpace (text : List Char) : List Char := text.dropWhile isSpace

/-- What follows a comment, if there is one. -/
def skipComment : List Char → List Char
  | '#' :: rest => rest.dropWhile isText
  | text => text

/-- What follows the end of a line that must come here, blanks and a comment
    aside. -/
def afterLine? (text : List Char) : Option (List Char) :=
  match skipComment (skipSpace text) with
  | [] => some []
  | '\n' :: rest => some rest
  | '\r' :: '\n' :: rest => some rest
  | _ => none

/-- The text after blanks, comments and ends of lines; `inComment` tells whether
    it starts in a comment. -/
def skipLines (inComment : Bool) : List Char → List Char
  | [] => []
  | '\r' :: '\n' :: rest => skipLines false rest
  | '\n' :: rest => skipLines false rest
  | c :: rest =>
      if inComment then if isText c then skipLines true rest else c :: rest
      else if isSpace c then skipLines false rest
      else if c = '#' then skipLines true rest
      else c :: rest

/-- The characters of names that need no quotes. -/
def isNameChar (c : Char) : Bool :=
  Text.isDigit c || ('a' ≤ c && c ≤ 'z') || ('A' ≤ c && c ≤ 'Z') || c == '_' || c == '-'

/-- Reads a name without points. -/
def simpleName? : List Char → Option (String × List Char)
  | '"' :: rest => string?.asString (basicText? rest)
  | '\'' :: rest => string?.asString (literalText? rest)
  | text =>
      match text.takeWhile isNameChar with
      | [] => none
      | name => some (String.ofList name, text.dropWhile isNameChar)

/-- Reads names with points between them, at most `count`. Blanks may stand
    around each. -/
def names? : Nat → List Char → Option (List String × List Char)
  | 0, _ => none
  | count + 1, text => do
      let (name, rest) ← simpleName? (skipSpace text)
      match skipSpace rest with
      | '.' :: rest => do
          let (names, rest) ← names? count rest
          some (name :: names, rest)
      | rest => some ([name], rest)

/-- Reads a dotted name: the path to its table and its last part. -/
def path? (text : List Char) : Option ((List String × String) × List Char) := do
  let (names, rest) ← names? limit text
  let name ← names.getLast?
  some ((names.dropLast, name), rest)

mutual

/-- Reads a value. `depth` is how deep it may nest; `fuel` bounds the steps. -/
def value? : Nat → Nat → List Char → Option (Value × List Char)
  | 0, _, _ => none
  | _, 0, '[' :: _ => none
  | _, 0, '\x7b' :: _ => none
  | fuel + 1, depth + 1, '[' :: rest => do
      let (items, rest) ← items? fuel depth (skipLines false rest)
      some (.array items, rest)
  | fuel + 1, depth + 1, '\x7b' :: rest =>
      match skipSpace rest with
      | '\x7d' :: rest => some (.table [], rest)
      | rest => do
          let (entries, rest) ← pairs? fuel depth [] rest
          some (.table (entriesToValues entries), rest)
  | _, _, '"' :: rest => (string? ('"' :: rest)).map fun (content, rest) => (.text content, rest)
  | _, _, '\'' :: rest => (string? ('\'' :: rest)).map fun (content, rest) => (.text content, rest)
  | _, _, text => do
      let (word, rest) := splitWord text
      let value ← word? word
      some (value, rest)

/-- Reads the items of an array and its closing bracket. -/
def items? : Nat → Nat → List Char → Option (List Value × List Char)
  | _, _, ']' :: rest => some ([], rest)
  | 0, _, _ => none
  | fuel + 1, depth, text => do
      let (item, rest) ← value? fuel depth text
      match skipLines false rest with
      | ',' :: rest => do
          let (items, rest) ← items? fuel depth (skipLines false rest)
          some (item :: items, rest)
      | ']' :: rest => some ([item], rest)
      | _ => none

/-- Reads the assignments of an inline table and its closing bracket. -/
def pairs? : Nat → Nat → Entries → List Char → Option (Entries × List Char)
  | 0, _, _, _ => none
  | fuel + 1, depth, entries, text => do
      let ((path, name), rest) ← path? text
      match rest with
      | '=' :: rest => do
          let (value, rest) ← value? fuel depth (skipSpace rest)
          let entries ← entries.assign path name value
          match skipSpace rest with
          | ',' :: rest => pairs? fuel depth entries rest
          | '\x7d' :: rest => some (entries, rest)
          | _ => none
      | _ => none

end

/-- A statement of a document. -/
inductive Statement where
  | header (path : List String) (name : String)
  | element (path : List String) (name : String)
  | assignment (path : List String) (name : String) (value : Value)
  deriving Repr

/-- Reads the statement that starts the text, to the end of its line. -/
def statement? : List Char → Option (Statement × List Char)
  | '[' :: '[' :: rest => do
      let ((path, name), rest) ← path? rest
      match rest with
      | ']' :: ']' :: rest => some (.element path name, ← afterLine? rest)
      | _ => none
  | '[' :: rest => do
      let ((path, name), rest) ← path? rest
      match rest with
      | ']' :: rest => some (.header path name, ← afterLine? rest)
      | _ => none
  | text => do
      let ((path, name), rest) ← path? text
      match rest with
      | '=' :: rest => do
          let (value, rest) ← value? rest.length limit (skipSpace rest)
          some (.assignment path name value, ← afterLine? rest)
      | _ => none

/-- Reads statements, at most `fuel` of them. -/
def statements? : Nat → List Char → Option (List Statement)
  | fuel, text =>
      match skipLines false text with
      | [] => some []
      | rest =>
          match fuel with
          | 0 => none
          | fuel + 1 => do
              let (statement, rest) ← statement? rest
              let statements ← statements? fuel rest
              some (statement :: statements)

/-- A document under construction, and the path of the open table. -/
structure Draft where
  entries : Entries := []
  current : List String := []
  deriving Repr

namespace Draft

/-- Takes in a statement. -/
def add (draft : Draft) : Statement → Option Draft
  | .header path name => do
      let entries ← draft.entries.openTable path name
      some { entries, current := path ++ [name] }
  | .element path name => do
      let entries ← draft.entries.openElement path name
      some { entries, current := path ++ [name] }
  | .assignment path name value => do
      let here := fun _ entries => Entries.assign path name value entries
      let entries ← Entries.change .implied here draft.current .named draft.entries
      some { draft with entries }

end Draft

/-- The table that a text writes. A byte-order mark at the start counts for
    nothing. -/
def read? (text : List Char) : Option (List (String × Value)) := do
  let text := match text with
    | '\ufeff' :: rest => rest
    | text => text
  let statements ← statements? text.length text
  let draft ← statements.foldlM Draft.add {}
  some (entriesToValues draft.entries)

end ExpressLinks.Toml
