import ExpressLinks.Text.Digits
import ExpressLinks.Text.Split

/-!
# Command lines

A command line names a command, after and among options. An option is a word
after two dashes or a letter after one; letters may be joined. Its value is the
next argument, unless that starts with a dash, or stands in the same argument,
after an equals sign or directly after the letter. Two dashes alone end the
options. No option may stand twice beside the same command word, but one that
belongs to all commands may stand beside each; the last one counts.
-/

namespace ExpressLinks

/-- What the user asks for. -/
inductive Command where
  /-- Validate the links of documents. -/
  | links (manifest : String) (documents output json markdown : Option String) (jobs : Option Nat)
  /-- Check files for characters that are not ASCII. -/
  | ascii (path : String) (recursive yaml : Bool)
  /-- Resolve paths. -/
  | resolve (manifest : String) (paths : List String)
  deriving DecidableEq, Repr

/-- A command with the options that belong to all commands. -/
structure Invocation where
  config : Option String
  verbose : Bool
  command : Command
  deriving DecidableEq, Repr

namespace Command

/-- An option: its word, its letter, and whether it has a value. -/
structure Flag where
  word : String
  letter : Option Char := none
  hasValue : Bool := false
  deriving DecidableEq, Repr

/-- The options that belong to all commands. -/
def commonFlags : List Flag :=
  [{ word := "config", letter := some 'c', hasValue := true },
   { word := "verbose", letter := some 'v' }]

/-- The options of link validation. -/
def linksFlags : List Flag :=
  commonFlags ++
    [{ word := "json", hasValue := true },
     { word := "markdown", hasValue := true },
     { word := "jobs", letter := some 'j', hasValue := true }]

/-- The options of the ASCII check. -/
def asciiFlags : List Flag :=
  commonFlags ++
    [{ word := "recursive", letter := some 'r' },
     { word := "yaml", letter := some 'y' }]

/-- Options as given, by word, with their values; one without value has the
    empty text. -/
abbrev Given := List (String × String)

/-- An argument that holds options: those that are complete, and the word of one
    whose value is still to come. -/
structure Cluster where
  given : Given
  waiting : Option String
  deriving DecidableEq, Repr

/-- Reads joined letters. -/
def letters? (flags : List Flag) : List Char → Option Cluster
  | [] => some ⟨[], none⟩
  | c :: rest =>
      match flags.find? (·.letter == some c) with
      | none => none
      | some flag =>
          if flag.hasValue then
            match rest with
            | [] => some ⟨[], some flag.word⟩
            | '=' :: value => some ⟨[(flag.word, String.ofList value)], none⟩
            | value => some ⟨[(flag.word, String.ofList value)], none⟩
          else
            (letters? flags rest).map fun cluster =>
              { cluster with given := (flag.word, "") :: cluster.given }

/-- Reads a word and perhaps an equals sign with a value. -/
def word? (flags : List Flag) (text : List Char) : Option Cluster :=
  let word := String.ofList (text.takeWhile (· != '='))
  match flags.find? (·.word == word), text.dropWhile (· != '=') with
  | none, _ => none
  | some flag, [] => some (if flag.hasValue then ⟨[], some word⟩ else ⟨[(word, "")], none⟩)
  | some flag, _ :: value =>
      if flag.hasValue then some ⟨[(word, String.ofList value)], none⟩ else none

/-- Can the argument be a value? -/
def isValue (argument : String) : Bool :=
  match argument.toList with
  | '-' :: _ :: _ => false
  | _ => true

/-- Cuts arguments into options and operands. For a command that has commands of
    its own, `nested`, the operands start at the first one and are not looked
    at. -/
def split? (flags : List Flag) (nested : Bool) : List String → Option (Given × List String)
  | [] => some ([], [])
  | "--" :: rest => if nested then none else some ([], rest)
  | argument :: rest =>
      if isValue argument then
        if nested then some ([], argument :: rest)
        else (split? flags nested rest).map fun (given, operands) => (given, argument :: operands)
      else
        let cluster := match argument.toList with
          | '-' :: '-' :: word => word? flags word
          | _ :: letters => letters? flags letters
          | [] => none
        match cluster with
        | none => none
        | some ⟨complete, none⟩ =>
            (split? flags nested rest).map fun (given, operands) => (complete ++ given, operands)
        | some ⟨complete, some word⟩ =>
            match rest with
            | [] => none
            | value :: rest =>
                if isValue value then
                  (split? flags nested rest).map fun (given, operands) =>
                    (complete ++ (word, value) :: given, operands)
                else none

/-- Does no option stand twice? -/
def isDistinct : Given → Bool
  | [] => true
  | (word, _) :: rest => !rest.any (·.1 == word) && isDistinct rest

/-- Cuts arguments, with each option at most once. -/
def arguments? (flags : List Flag) (nested : Bool) (arguments : List String) :
    Option (Given × List String) := do
  let (given, operands) ← split? flags nested arguments
  if isDistinct given then some (given, operands) else none

/-- A path, which may not be empty. -/
def path? (text : String) : Option String := if text = "" then none else some text

/-- A natural number of at most 64 bits; a plus sign may stand before it. -/
def count? (text : String) : Option Nat := do
  let digits := match text.toList with
    | '+' :: digits => digits
    | digits => digits
  let value ← Text.readDecimal? digits
  if value < UInt64.size then some value else none

/-- The value of an option, read if it is given. -/
def optional? {α : Type} (given : Given) (word : String) (read? : String → Option α) :
    Option (Option α) :=
  match given.lookup word with
  | none => some none
  | some value => (read? value).map some

/-- The command of link validation. -/
def links? (given : Given) (operands : List String) : Option Command := do
  let json ← optional? given "json" path?
  let markdown ← optional? given "markdown" path?
  let jobs ← optional? given "jobs" count?
  match ← operands.mapM path? with
  | [] => some (.links "schemas-srl.yml" none none json markdown jobs)
  | [manifest] => some (.links manifest none none json markdown jobs)
  | [manifest, documents] => some (.links manifest documents none json markdown jobs)
  | [manifest, documents, output] => some (.links manifest documents output json markdown jobs)
  | _ => none

/-- The command of the ASCII check. -/
def ascii? (given : Given) (operands : List String) : Option Command := do
  match operands with
  | [path] =>
      some (.ascii (← path? path) (given.lookup "recursive").isSome (given.lookup "yaml").isSome)
  | _ => none

/-- The command that resolves paths, of which there must be one. -/
def resolve? (operands : List String) : Option Command := do
  match operands with
  | manifest :: path :: paths => some (.resolve (← path? manifest) (path :: paths))
  | _ => none

/-- A command with the common options that stand beside each of its words, from
    the first to the last. -/
def invocation? (levels : List Given) (command : Command) : Option Invocation := do
  let configs ← (levels.filterMap (·.lookup "config")).mapM path?
  let verbose := levels.any fun given => (given.lookup "verbose").isSome
  some { config := configs.getLast?, verbose, command }

end Command

open Command

/-- Reads a command line without the name of the program. -/
def Invocation.ofArguments? (arguments : List String) : Option Invocation := do
  let (outer, operands) ← arguments? commonFlags true arguments
  match operands with
  | "resolve" :: rest =>
      let (inner, operands) ← arguments? commonFlags false rest
      invocation? [outer, inner] (← resolve? operands)
  | "validate" :: rest =>
      let (middle, operands) ← arguments? commonFlags true rest
      match operands with
      | "links" :: rest =>
          let (inner, operands) ← arguments? linksFlags false rest
          invocation? [outer, middle, inner] (← links? inner operands)
      | "ascii" :: rest =>
          let (inner, operands) ← arguments? asciiFlags false rest
          invocation? [outer, middle, inner] (← ascii? inner operands)
      | _ => none
  | _ => none

end ExpressLinks
