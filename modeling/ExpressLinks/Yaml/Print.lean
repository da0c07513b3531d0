import ExpressLinks.Text.Digits
import ExpressLinks.Yaml.Character
import ExpressLinks.Yaml.Plain

/-!
# Writing block-style YAML

Mappings are written one key to a line, lists with a dash for each item and not
indented below their key, a list without items as brackets. Text is plain where
that reads back as the same text; else it stands between single quotes, or
between double quotes when it holds something that only escapes can write.
Text with line feeds is a literal block. Lines are never folded.
-/

namespace ExpressLinks.Yaml

/-- What is to be written. -/
inductive Block where
  | number (value : Nat)
  | text (content : String)
  /-- A text of one character, always between quotes. -/
  | character (c : Char)
  | sequence (items : List Block)
  | mapping (entries : List (String × Block))
  deriving Repr

/-- May the character be written as it is? Control characters, the byte-order
    mark and the two non-characters may not. -/
def isPrintable (c : Char) : Bool :=
  c == '\n' || (0x20 ≤ c.toNat && c.toNat ≤ 0x7E)
    || (0xA0 ≤ c.toNat && c != '\ufeff' && c != '\ufffe' && c != '\uffff')

/-- A blank, a break or the end of the text. -/
def atWordEnd : List Char → Bool
  | [] => true
  | c :: _ => isBlank c || isBreak c || c == '\x00'

/-- Does a character that satisfies the first test directly precede one that
    satisfies the second? -/
def hasAdjacent (p q : Char → Bool) : List Char → Bool
  | a :: b :: rest => (p a && q b) || hasAdjacent p q (b :: rest)
  | _ => false

/-- An indicator inside the text that plain style would misread: a colon at the
    end of a word, or a number sign at the start of one. -/
def hasInnerIndicator : List Char → Bool
  | a :: b :: rest =>
      (b == ':' && atWordEnd rest) || (b == '#' && atWordEnd [a]) || hasInnerIndicator (b :: rest)
  | _ => false

/-- The characters that cannot start plain text. -/
def leadingIndicators : List Char :=
  ['#', ',', '[', ']', '\x7b', '\x7d', '&', '*', '!', '|', '>', '\'', '"', '%', '@', '\x60']

/-- An indicator at the start that plain style would misread. -/
def hasLeadingIndicator : List Char → Bool
  | '-' :: '-' :: '-' :: _ => true
  | '.' :: '.' :: '.' :: _ => true
  | c :: rest =>
      leadingIndicators.contains c
        || ((c == '?' || c == ':' || c == '-') && atWordEnd rest)
  | [] => false

/-- Can only double quotes hold the text? They can hold any. -/
def needsEscapes (text : List Char) : Bool :=
  text.any (!isPrintable ·) || hasAdjacent (· == ' ') isBreak text

/-- Can single quotes hold the text? A space after a break would be lost. -/
def singleQuotable (text : List Char) : Bool :=
  !needsEscapes text && !hasAdjacent isBreak (· == ' ') text

/-- Does the text start or end with a character of the given kind? -/
def atEdge (p : Char → Bool) (text : List Char) : Bool :=
  (text.head?.any p) || (text.getLast?.any p)

/-- Can the text be plain, as far as its form goes? -/
def plainAllowed (text : List Char) : Bool :=
  text != [] && !needsEscapes text && !text.any isBreak
    && !atEdge (fun c => c == ' ' || isBreak c) text
    && !hasLeadingIndicator text && !hasInnerIndicator text

/-- Can a literal block hold the text? A space at its end would be lost. -/
def literalAllowed (text : List Char) : Bool :=
  !needsEscapes text && text.getLast? != some ' '

/-- Spaces up to a column. -/
def spaces (indent : Nat) : List Char := List.replicate indent ' '

/-- The inside of single quotes. A quote is doubled; the first line feed of a run
    is written twice; after a run of breaks comes the indentation. -/
def singleInside (indent : Nat) (afterBreak : Bool) : List Char → List Char
  | [] => if afterBreak then spaces indent else []
  | c :: rest =>
      if isBreak c then
        (if !afterBreak && c == '\n' then ['\n', '\n'] else [c]) ++ singleInside indent true rest
      else
        (if afterBreak then spaces indent else [])
          ++ (if c == '\'' then ['\'', '\''] else [c]) ++ singleInside indent false rest

/-- The letter of a named escape. -/
def escapeLetter? (c : Char) : Option Char :=
  [('\x00', '0'), ('\x07', 'a'), ('\x08', 'b'), ('\t', 't'), ('\n', 'n'), ('\x0b', 'v'),
   ('\x0c', 'f'), ('\r', 'r'), ('\x1b', 'e'), ('"', '"'), ('\\', '\\'), ('\u0085', 'N'),
   ('\u00a0', '_'), ('\u2028', 'L'), ('\u2029', 'P')].lookup c

/-- A character between double quotes. -/
def doubleChar (c : Char) : List Char :=
  if isPrintable c && !isBreak c && c != '"' && c != '\\' then [c]
  else
    match escapeLetter? c with
    | some letter => ['\\', letter]
    | none =>
        if c.toNat ≤ 0xFF then '\\' :: 'x' :: Text.hexDigits 2 c.toNat
        else if c.toNat ≤ 0xFFFF then '\\' :: 'u' :: Text.hexDigits 4 c.toNat
        else '\\' :: 'U' :: Text.hexDigits 8 c.toNat

/-- The text between double quotes. -/
def doubleQuoted (text : List Char) : List Char := '"' :: text.flatMap doubleChar ++ ['"']

/-- The text between single quotes, or double ones if it must be. -/
def singleQuoted (indent : Nat) (text : List Char) : List Char :=
  if singleQuotable text then '\'' :: singleInside indent false text ++ ['\'']
  else doubleQuoted text

/-- The marks of a literal block: the indentation if the text hides it, and what
    happens to the breaks at its end. -/
def literalMarks (text : List Char) : List Char :=
  (if text.head?.any fun c => c == ' ' || isBreak c then ['2'] else [])
    ++ (match text.reverse with
        | [] => ['-']
        | [last] => if isBreak last then ['+'] else ['-']
        | last :: before :: _ =>
            if !isBreak last then ['-'] else if isBreak before then ['+'] else [])

/-- The lines of a literal block. -/
def literalInside (indent : Nat) (afterBreak : Bool) : List Char → List Char
  | [] => []
  | c :: rest =>
      if isBreak c then c :: literalInside indent true rest
      else (if afterBreak then spaces indent else []) ++ c :: literalInside indent false rest

/-- The text as a literal block, or between double quotes if it must be. -/
def literal (indent : Nat) (text : List Char) : List Char :=
  if literalAllowed text then
    '|' :: literalMarks text ++ '\n' :: literalInside indent true text
  else doubleQuoted text

/-- Does the text, written plain, read as text? -/
def readsAsText (text : String) : Bool :=
  readPlain text == .text && !isZeroPadded text.toList

/-- A text in the style that suits it. -/
def textChars (indent : Nat) (content : String) : List Char :=
  let text := content.toList
  if text.contains '\n' then literal indent text
  else if readsAsText content && plainAllowed text then text
  else singleQuoted indent text

/-- Ends a line, unless the text that was written ends in a break. -/
def endLine (written : List Char) : List Char :=
  if written.getLast?.any isBreak then written else written ++ ['\n']

mutual

/-- A value after its key, whose mapping stands at `indent`. -/
def valueChars (indent : Nat) : Block → List Char
  | .number value => ' ' :: Text.decimal value ++ ['\n']
  | .text content => endLine (' ' :: textChars (indent + 2) content)
  | .character c => ' ' :: singleQuoted (indent + 2) [c] ++ ['\n']
  | .sequence [] => " []\n".toList
  | .sequence items => '\n' :: itemsChars indent items
  | .mapping [] => " \x7b\x7d\n".toList
  | .mapping entries => '\n' :: entriesChars (indent + 2) false entries

/-- The items of a list whose dashes stand at `indent`. -/
def itemsChars (indent : Nat) : List Block → List Char
  | [] => []
  | item :: rest => spaces indent ++ '-' :: itemChars indent item ++ itemsChars indent rest

/-- An item after its dash. -/
def itemChars (indent : Nat) : Block → List Char
  | .mapping (entry :: rest) => ' ' :: entriesChars (indent + 2) true (entry :: rest)
  | .mapping [] => " \x7b\x7d\n".toList
  | .sequence [] => " []\n".toList
  | .sequence items => '\n' :: itemsChars (indent + 2) items
  | .number value => ' ' :: Text.decimal value ++ ['\n']
  | .text content => endLine (' ' :: textChars (indent + 2) content)
  | .character c => ' ' :: singleQuoted (indent + 2) [c] ++ ['\n']

/-- The entries of a mapping; the first may continue a line. -/
def entriesChars (indent : Nat) (continues : Bool) : List (String × Block) → List Char
  | [] => []
  | (key, value) :: rest =>
      (if continues then [] else spaces indent) ++ key.toList ++ ':' :: valueChars indent value
        ++ entriesChars indent false rest

end

/-- A document that holds a mapping. -/
def printMapping (entries : List (String × Block)) : String :=
  String.ofList (entriesChars 0 false entries)

end ExpressLinks.Yaml
