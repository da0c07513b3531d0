import ExpressLinks.Toml.Value

/-!
# Building TOML tables

Statements fill a table from top to bottom. A header opens a table, a double
header one more element of an array of tables, and an assignment gives a value
to a name in what is open. Nothing can be given twice: a header opens a table
that was only implied by headers below it, but none that a header or a dotted
name has opened, and dotted names extend only tables that dotted names made.
-/

namespace ExpressLinks.Toml

/-- How a table came to be: a header named it, a header below it implied it, or
    a dotted name did. -/
inductive Standing where
  | named
  | implied
  | dotted
  deriving DecidableEq, Repr

/-- What a name stands for while a document is read. Tables in an array are kept
    last first. -/
inductive Item where
  | value (value : Value)
  | table (standing : Standing) (entries : List (String × Item))
  | tables (last : List (String × Item)) (earlier : List (List (String × Item)))
  deriving Repr

/-- Names with what they stand for. -/
abbrev Entries := List (String × Item)

namespace Entries

/-- Gives a name another meaning, or a first one. -/
def put (name : String) (item : Item) : Entries → Entries
  | [] => [(name, item)]
  | (old, other) :: rest =>
      if old = name then (name, item) :: rest else (old, other) :: put name item rest

/-- Changes the table at the end of a path. Missing tables on the way are made,
    of the standing `made`; of an array of tables the last is meant. A dotted
    name passes through no table that was named. -/
def change (made : Standing) (at_ : Standing → Entries → Option Entries) :
    List String → Standing → Entries → Option Entries
  | [], standing, entries => at_ standing entries
  | name :: path, _, entries =>
      match entries.lookup name with
      | none => do
          let below ← change made at_ path made []
          some (put name (.table made below) entries)
      | some (.value _) => none
      | some (.tables last earlier) => do
          let last ← change made at_ path .named last
          some (put name (.tables last earlier) entries)
      | some (.table standing below) =>
          if made = .dotted ∧ standing = .named then none
          else do
            let below ← change made at_ path standing below
            some (put name (.table standing below) entries)

/-- Gives a value to a name that has none. -/
def assignHere (name : String) (item : Item) (entries : Entries) : Option Entries :=
  match entries.lookup name with
  | none => some (put name item entries)
  | some _ => none

/-- Gives a value to a dotted name. -/
def assign (path : List String) (name : String) (value : Value) (entries : Entries) :
    Option Entries :=
  let here := fun standing entries =>
    if standing = Standing.dotted ∨ path = [] then assignHere name (.value value) entries else none
  change .dotted here path .named entries

/-- Opens a table that no header or dotted name has opened. -/
def openTable (path : List String) (name : String) (entries : Entries) : Option Entries :=
  let here := fun _ entries =>
    match entries.lookup name with
    | none => some (put name (.table .named []) entries)
    | some (.table .implied below) => some (put name (.table .named below) entries)
    | some _ => none
  change .implied here path .named entries

/-- Opens one more element of an array of tables. -/
def openElement (path : List String) (name : String) (entries : Entries) : Option Entries :=
  let here := fun _ entries =>
    match entries.lookup name with
    | none => some (put name (.tables [] []) entries)
    | some (.tables last earlier) => some (put name (.tables [] (last :: earlier)) entries)
    | some _ => none
  change .implied here path .named entries

end Entries

mutual

/-- The value of what a name stands for. -/
def Item.toValue : Item → Value
  | .value value => value
  | .table _ entries => .table (entriesToValues entries)
  | .tables last earlier =>
      .array ((.table (entriesToValues last) :: tablesToValues earlier).reverse)

/-- The values of names. -/
def entriesToValues : List (String × Item) → List (String × Value)
  | [] => []
  | (name, item) :: rest => (name, item.toValue) :: entriesToValues rest

/-- The values of tables. -/
def tablesToValues : List (List (String × Item)) → List Value
  | [] => []
  | entries :: rest => .table (entriesToValues entries) :: tablesToValues rest

end

end ExpressLinks.Toml
