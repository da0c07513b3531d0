import ExpressLinks.Json.Read
import ExpressLinks.Proofs.Json.Lexeme

/-!
# Texts that write a value

A value is a sequence of tokens, and a text lays the tokens out with any blanks between
them. Cutting such a text gives the tokens back, putting these together gives the
value, so every text that writes a value is read as that value.
-/

namespace ExpressLinks.Json

/-- The text consists of spellings of the tokens in order, with blanks anywhere between
    them. What follows a value without parts is no continuation of a number. -/
inductive Layout : List JsonToken → List Char → Prop
  | done : Layout [] []
  | blank {c : Char} {tokens : List JsonToken} {text : List Char} :
      isSpace c = true → Layout tokens text → Layout tokens (c :: text)
  | sign {c : Char} {token : JsonToken} {tokens : List JsonToken} {text : List Char} :
      SpellsSign c token → Layout tokens text → Layout (token :: tokens) (c :: text)
  | atom {atom : JsonAtom} {tokens : List JsonToken} {lexeme text : List Char} :
      SpellsAtom lexeme atom → EndsNumber text → Layout tokens text →
      Layout (.atom atom :: tokens) (lexeme ++ text)

mutual

/-- The tokens of a value. -/
def tokens : Json → List JsonToken
  | .atom a => [.atom a]
  | .array items => .arrayOpen :: itemTokens true items
  | .object members => .objectOpen :: memberTokens true members

/-- The tokens of the items from here on and of the end of the array. -/
def itemTokens (first : Bool) : List Json → List JsonToken
  | [] => [.arrayClose]
  | item :: rest => (if first then [] else [.comma]) ++ item.tokens ++ itemTokens false rest

/-- The tokens of the members from here on and of the end of the object. -/
def memberTokens (first : Bool) : List (Option String × Json) → List JsonToken
  | [] => [.objectClose]
  | (name, value) :: rest =>
      (if first then [] else [.comma]) ++ .atom (.text name) :: .colon :: value.tokens
        ++ memberTokens false rest

end

/-- The text writes the value: its tokens in order, spelt in any way, with any blanks. -/
def Writes (text : List Char) (json : Json) : Prop := Layout json.tokens text

section Cutting

variable {tokens : List JsonToken} {text : List Char}

/-- A step cuts off one token. -/
theorem tokensWithin?_append {lexeme : List Char} {token : JsonToken} {fuel : Nat}
    (starts : ∃ c cs, lexeme = c :: cs ∧ isSpace c = false)
    (next : nextToken? (lexeme ++ text) = some (token, text))
    (rest : tokensWithin? fuel text = some tokens) :
    tokensWithin? (fuel + 1) (lexeme ++ text) = some (token :: tokens) := by
  obtain ⟨c, cs, rfl, ink⟩ := starts
  rw [List.cons_append] at next ⊢
  simp [tokensWithin?, ink, next, rest]

/-- With a step for each character all tokens are cut off. -/
theorem tokensWithin?_of_layout (layout : Layout tokens text) (fuel : Nat)
    (enough : text.length ≤ fuel) : tokensWithin? fuel text = some tokens := by
  induction layout generalizing fuel with
  | done => cases fuel <;> rfl
  | blank space _ ih =>
      cases fuel with
      | zero => simp at enough
      | succ fuel =>
          rw [tokensWithin?, if_pos space]
          exact ih fuel (by simpa using enough)
  | @sign c token tokens text spells _ ih =>
      cases fuel with
      | zero => simp at enough
      | succ fuel =>
          have rest := ih fuel (by simpa using enough)
          have starts : ∃ d ds, [c] = d :: ds ∧ isSpace d = false :=
            ⟨c, [], rfl, spells.not_isSpace⟩
          exact tokensWithin?_append starts (nextToken?_of_spellsSign spells) rest
  | @atom a tokens lexeme text spells ends _ ih =>
      have starts := spells.exists_cons
      have shorter : text.length < (lexeme ++ text).length := by
        obtain ⟨c, cs, rfl, -⟩ := starts
        simp
      cases fuel with
      | zero => omega
      | succ fuel =>
          have rest := ih fuel (by omega)
          exact tokensWithin?_append starts (nextToken?_of_spellsAtom spells ends) rest

theorem tokens?_of_layout (layout : Layout tokens text) : tokens? text = some tokens :=
  tokensWithin?_of_layout layout text.length (Nat.le_refl _)

end Cutting

section Building

/-- No value starts with the end of an array. -/
theorem exists_tokens_cons (json : Json) :
    ∃ token rest, json.tokens = token :: rest ∧ token ≠ .arrayClose := by
  cases json with
  | atom a => exact ⟨_, _, rfl, nofun⟩
  | array items => exact ⟨_, _, rfl, nofun⟩
  | object members => exact ⟨_, _, rfl, nofun⟩

/-- An array that does not end at once starts with a value. -/
theorem build_item (json : Json) (stack : List Frame) (rest : List JsonToken) :
    build .item stack (json.tokens ++ rest) =
      build .value (.array [] :: stack) (json.tokens ++ rest) := by
  obtain ⟨token, later, starts, open_⟩ := exists_tokens_cons json
  rw [starts, List.cons_append]
  cases token <;> first | rfl | exact absurd rfl open_

mutual

/-- The tokens of a value give the value. -/
theorem build_tokens (json : Json) (stack : List Frame) (rest : List JsonToken) :
    build .value stack (json.tokens ++ rest) = build (.more json) stack rest := by
  match json with
  | .atom a => rfl
  | .array [] => rfl
  | .array (item :: items) =>
      have first := build_tokens item (.array [] :: stack) (itemTokens false items ++ rest)
      have others := build_itemTokens items [] item stack rest
      rw [← build_item] at first
      simp only [tokens, itemTokens, if_true, List.nil_append, List.cons_append, List.append_assoc,
        build, first, others]
      rfl
  | .object [] => rfl
  | .object ((name, value) :: members) =>
      have first := build_tokens value (.member [] name :: stack)
        (memberTokens false members ++ rest)
      have others := build_memberTokens members [] name value stack rest
      simp only [tokens, memberTokens, if_true, List.nil_append, List.cons_append,
        List.append_assoc, build, first, others]
      rfl

/-- Behind an item the tokens of the others give the array. -/
theorem build_itemTokens (items before : List Json) (item : Json) (stack : List Frame)
    (rest : List JsonToken) :
    build (.more item) (.array before :: stack) (itemTokens false items ++ rest) =
      build (.more (.array ((item :: before).reverse ++ items))) stack rest := by
  match items with
  | [] => simp [itemTokens, build]
  | next :: items =>
      have first := build_tokens next (.array (item :: before) :: stack)
        (itemTokens false items ++ rest)
      have others := build_itemTokens items (item :: before) next stack rest
      simp [itemTokens, build, first, others]

/-- Behind a member the tokens of the others give the object. -/
theorem build_memberTokens (members before : List (Option String × Json)) (name : Option String)
    (value : Json) (stack : List Frame) (rest : List JsonToken) :
    build (.more value) (.member before name :: stack) (memberTokens false members ++ rest) =
      build (.more (.object (((name, value) :: before).reverse ++ members))) stack rest := by
  match members with
  | [] => simp [memberTokens, build]
  | (nextName, next) :: members =>
      have first := build_tokens next (.member ((name, value) :: before) nextName :: stack)
        (memberTokens false members ++ rest)
      have others := build_memberTokens members ((name, value) :: before) nextName next stack rest
      simp [memberTokens, build, first, others]

end

end Building

/-- Every text that writes a value is read as the value. -/
theorem read?_of_writes {json : Json} {text : List Char} (writes : Writes text json) :
    read? text = some json := by
  have built := build_tokens json [] []
  rw [List.append_nil] at built
  simp [read?, tokens?_of_layout writes, built, build]

end ExpressLinks.Json
