import ExpressLinks.Yaml.Node
import ExpressLinks.Yaml.Plain

/-!
# YAML values

The value of a node is what is left when anchors, references and spellings are
gone. References may be followed only so often, and values nest only so deep,
so that a small document cannot stand for an enormous value. No mapping has two
equal keys.
-/

namespace ExpressLinks.Yaml

/-- The value of a node. -/
inductive Value where
  | null
  | bool (value : Bool)
  | int (value : Int)
  | float (value : Double)
  | text (content : String)
  | sequence (items : List Value)
  | mapping (entries : List (Value × Value))
  | tagged (tag : String) (value : Value)
  deriving Repr

namespace Value

/-- Equality of two numbers with a fraction: zeros of either sign are equal. -/
def sameDouble : Double → Double → Bool
  | .finite negative mantissa exponent, .finite negative' mantissa' exponent' =>
      (mantissa == 0 && mantissa' == 0)
        || (negative == negative' && mantissa == mantissa' && exponent == exponent')
  | x, y => x == y

mutual

/-- Equality of values. The entries of mappings may stand in any order. -/
def same : Value → Value → Bool
  | .null, .null => true
  | .bool x, .bool y => x == y
  | .int x, .int y => x == y
  | .float x, .float y => sameDouble x y
  | .text x, .text y => x == y
  | .sequence xs, .sequence ys => sameItems xs ys
  | .mapping xs, .mapping ys => xs.length == ys.length && haveSame xs ys
  | .tagged tag x, .tagged tag' y => tag == tag' && same x y
  | _, _ => false

/-- Equality of items in order. -/
def sameItems : List Value → List Value → Bool
  | [], [] => true
  | x :: xs, y :: ys => same x y && sameItems xs ys
  | _, _ => false

/-- Does every entry of the first mapping stand in the second? -/
def haveSame : List (Value × Value) → List (Value × Value) → Bool
  | [], _ => true
  | (key, value) :: xs, ys =>
      (ys.any fun entry => same key entry.1 && same value entry.2) && haveSame xs ys

end

/-- The value without tags around it. -/
def untagged : Value → Value
  | .tagged _ value => untagged value
  | value => value

end Value

namespace Node

/-- The anchors that have been given, each with its number. -/
abbrev Anchors := List (String × Nat)

/-- Gives an anchor. Its number is how many different anchors have been given
    before; giving one again changes its number. -/
def giveAnchor (name : Option String) : StateT Anchors Option (Option Nat) := do
  match name with
  | none => pure none
  | some name =>
      let anchors ← get
      set ((name, anchors.length) :: anchors.filter fun anchor => anchor.1 != name)
      pure (some anchors.length)

mutual

/-- Replaces anchors by numbers, in the order in which nodes start. A reference
    to an anchor that has not been given is refused. -/
def number? : Node String → StateT Anchors Option (Node Nat)
  | .scalar properties plain text => do
      let anchor ← giveAnchor properties.anchor
      pure (.scalar { anchor, tag := properties.tag } plain text)
  | .sequence properties items => do
      let anchor ← giveAnchor properties.anchor
      let items ← numberItems? items
      pure (.sequence { anchor, tag := properties.tag } items)
  | .mapping properties entries => do
      let anchor ← giveAnchor properties.anchor
      let entries ← numberEntries? entries
      pure (.mapping { anchor, tag := properties.tag } entries)
  | .reference name => do
      match (← get).lookup name with
      | none => failure
      | some anchor => pure (.reference anchor)

/-- Replaces anchors in items. -/
def numberItems? : List (Node String) → StateT Anchors Option (List (Node Nat))
  | [] => pure []
  | item :: items => do
      let item ← number? item
      let items ← numberItems? items
      pure (item :: items)

/-- Replaces anchors in entries. -/
def numberEntries? :
    List (Node String × Node String) → StateT Anchors Option (List (Node Nat × Node Nat))
  | [] => pure []
  | (key, value) :: entries => do
      let key ← number? key
      let value ← number? value
      let entries ← numberEntries? entries
      pure ((key, value) :: entries)

end

/-- A node under its anchor, if it has one. -/
def underAnchor (properties : Properties Nat) (node : Node Nat) : List (Nat × Node Nat) :=
  match properties.anchor with
  | none => []
  | some anchor => [(anchor, node)]

mutual

/-- The anchored nodes in the order in which they start. -/
def anchored : Node Nat → List (Nat × Node Nat)
  | .scalar properties plain text => underAnchor properties (.scalar properties plain text)
  | .sequence properties items =>
      underAnchor properties (.sequence properties items) ++ anchoredItems items
  | .mapping properties entries =>
      underAnchor properties (.mapping properties entries) ++ anchoredEntries entries
  | .reference _ => []

/-- The anchored nodes in items. -/
def anchoredItems : List (Node Nat) → List (Nat × Node Nat)
  | [] => []
  | item :: items => anchored item ++ anchoredItems items

/-- The anchored nodes in entries. -/
def anchoredEntries : List (Node Nat × Node Nat) → List (Nat × Node Nat)
  | [] => []
  | (key, value) :: entries => anchored key ++ anchored value ++ anchoredEntries entries

end

mutual

/-- The number of parts of a node: one for a scalar or reference, two for a
    collection and those of what is in it. -/
def size {Anchor : Type} : Node Anchor → Nat
  | .scalar .. => 1
  | .sequence _ items => 2 + sizeItems items
  | .mapping _ entries => 2 + sizeEntries entries
  | .reference _ => 1

/-- The number of parts of items. -/
def sizeItems {Anchor : Type} : List (Node Anchor) → Nat
  | [] => 0
  | item :: items => size item + sizeItems items

/-- The number of parts of entries. -/
def sizeEntries {Anchor : Type} : List (Node Anchor × Node Anchor) → Nat
  | [] => 0
  | (key, value) :: entries => size key + size value + sizeEntries entries

end

end Node

/-- A document ready to be evaluated: its root, and its anchored nodes, those
    that count first. -/
structure Document where
  root : Node Nat
  anchored : List (Nat × Node Nat)
  deriving Repr

namespace Document

/-- The document with this root. Of two nodes with one number the later counts. -/
def ofNode? (node : Node String) : Option Document := do
  let (root, _) ← (node.number?).run []
  some { root, anchored := root.anchored.reverse }

/-- The document that a text writes. -/
def ofText? (text : List Char) : Option Document := (Node.ofText? text).bind ofNode?

/-- How often references may be followed. -/
def jumps (document : Document) : Nat := 100 * document.root.size

/-- How deep collections may nest. -/
def depth : Nat := 128

end Document

/-- An evaluation: the state is how many references may still be followed. -/
abbrev Evaluation := StateT Nat Option

/-- The node itself, or the one it refers to. -/
def deref (document : Document) (node : Node Nat) : Evaluation (Node Nat) := do
  match node with
  | .reference anchor =>
      match ← get with
      | 0 => failure
      | left + 1 =>
          set left
          match document.anchored.lookup anchor with
          | none => failure
          | some target => pure target
  | node => pure node

/-- The name in a local tag, which starts with an exclamation mark. -/
def localTag? (tag : Option String) : Option String := do
  match (← tag).toList with
  | '!' :: name => some (String.ofList name)
  | _ => none

/-- A whole number of at most 64 bits, signed or not. -/
def wholeNumber? (value : Int) : Option Value :=
  if -0x8000000000000000 ≤ value ∧ value ≤ 0xFFFFFFFFFFFFFFFF then some (.int value) else none

/-- The value of plain text without tag. -/
def plainValue? (text : String) : Option Value :=
  match readPlain text with
  | .null => some .null
  | .bool value => some (.bool value)
  | .int value => wholeNumber? value
  | .float value => some (.float value)
  | .text => some (.text text)

/-- The value of a scalar under a tag that is not local. The tags of simple
    values want text that reads as such; all others make it text. -/
def taggedScalar? (tag text : String) : Option Value :=
  if tag = "tag:yaml.org,2002:bool" then (readBool? text).map .bool
  else if tag = "tag:yaml.org,2002:int" then (readInt? text.toList).bind wholeNumber?
  else if tag = "tag:yaml.org,2002:float" then (readFloat? text.toList).map .float
  else if tag = "tag:yaml.org,2002:null" then if isNullWord text then some .null else none
  else some (.text text)

/-- The value of a scalar. -/
def scalarValue? (tag : Option String) (plain : Bool) (text : String) : Option Value :=
  match localTag? tag, tag with
  | none, some tag => taggedScalar? tag text
  | _, _ => if plain then plainValue? text else some (.text text)

/-- A value under its local tag, if it has one. The empty tag is none. -/
def withTag? (tag : Option String) (value : Value) : Option Value :=
  match localTag? tag with
  | none => some value
  | some name => if name = "" then none else some (.tagged name value)

/-- Evaluates the entries of a mapping in order. A key that equals an earlier one
    is refused. -/
def evalEntries (eval : Node Nat → Evaluation Value) (known : List (Value × Value)) :
    List (Node Nat × Node Nat) → Evaluation (List (Value × Value))
  | [] => pure known.reverse
  | (key, value) :: rest => do
      let key ← eval key
      if known.any fun entry => Value.same key entry.1 then failure
      else
        let value ← eval value
        evalEntries eval ((key, value) :: known) rest

/-- Evaluates a node with at most `depth` collections inside each other. -/
def eval (document : Document) : Nat → Node Nat → Evaluation Value
  | depth, node => do
      match ← deref document node, depth with
      | .scalar properties plain text, _ =>
          let value ← liftM (scalarValue? properties.tag plain text)
          liftM (withTag? properties.tag value)
      | .sequence properties items, depth + 1 =>
          let values ← items.mapM (eval document depth)
          liftM (withTag? properties.tag (.sequence values))
      | .mapping properties entries, depth + 1 =>
          let values ← evalEntries (eval document depth) [] entries
          liftM (withTag? properties.tag (.mapping values))
      | _, _ => failure

end ExpressLinks.Yaml
