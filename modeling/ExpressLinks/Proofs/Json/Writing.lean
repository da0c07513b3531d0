import ExpressLinks.Json.Decode
import ExpressLinks.Json.Print
import ExpressLinks.Proofs.Json.Layout

/-!
# Printing writes the value

Both printed forms of a value, on one line and with one part to a line, are texts that
write the value, so reading gives it back. Of all values only numbers that are no plain
natural numbers are kept as text, and these have to be spelt as numbers.
-/

namespace ExpressLinks

/-- A number that is kept as text is spelt as a number. -/
def JsonAtom.WellSpelt : JsonAtom → Prop
  | .number lexeme => Json.NumberText lexeme.toList
  | _ => True

namespace Json

mutual

/-- All numbers in the value are spelt as numbers. -/
def Writable : Json → Prop
  | .atom a => a.WellSpelt
  | .array items => WritableItems items
  | .object members => WritableMembers members

/-- All numbers in the items are spelt as numbers. -/
def WritableItems : List Json → Prop
  | [] => True
  | item :: rest => item.Writable ∧ WritableItems rest

/-- All numbers in the members are spelt as numbers. -/
def WritableMembers : List (Option String × Json) → Prop
  | [] => True
  | (_, value) :: rest => value.Writable ∧ WritableMembers rest

end

section Writable

theorem writableItems_iff {items : List Json} :
    WritableItems items ↔ ∀ item ∈ items, item.Writable := by
  induction items with
  | nil => simp [WritableItems]
  | cons item rest ih => simp [WritableItems, ih]

theorem writableMembers_iff {members : List (Option String × Json)} :
    WritableMembers members ↔ ∀ member ∈ members, member.2.Writable := by
  induction members with
  | nil => simp [WritableMembers]
  | cons member rest ih => simp [WritableMembers, ih]

@[simp] theorem writable_array {items : List Json} :
    (Json.array items).Writable ↔ ∀ item ∈ items, item.Writable := by
  rw [Writable, writableItems_iff]

@[simp] theorem writable_ofMembers {members : List (String × Json)} :
    (ofMembers members).Writable ↔ ∀ member ∈ members, member.2.Writable := by
  simp only [ofMembers, Writable, writableMembers_iff, List.forall_mem_map]

@[simp] theorem writable_null : Json.null.Writable := trivial

@[simp] theorem writable_bool (value : Bool) : (Json.bool value).Writable := trivial

@[simp] theorem writable_number (lexeme : String) :
    (Json.atom (.number lexeme)).Writable ↔ NumberText lexeme.toList := Iff.rfl

@[simp] theorem writable_nat (value : Nat) : (Json.nat value).Writable := trivial

@[simp] theorem writable_text (content : String) : (Json.text content).Writable := trivial

@[simp] theorem writable_ofOption {α : Type} {encode : α → Json} {a : Option α} :
    (ofOption encode a).Writable ↔ ∀ value ∈ a, (encode value).Writable := by
  cases a <;> simp [ofOption]

@[simp] theorem writable_ofList {α : Type} {encode : α → Json} {values : List α} :
    (ofList encode values).Writable ↔ ∀ value ∈ values, (encode value).Writable := by
  simp [ofList]

end Writable

section Strings

/-- An escaped unit that is no half of a pair is a character by itself. -/
theorem unitsText?_code {unit : Nat} (small : unit < 0xD800) (units : List StringUnit) :
    unitsText? (.code unit :: units) = (unitsText? units).map (Char.ofNat unit :: ·) := by
  have noHigh : ¬ (0xD800 ≤ unit ∧ unit < 0xDC00) := by omega
  have noLow : ¬ (0xDC00 ≤ unit ∧ unit < 0xE000) := by omega
  have noHalf : ¬ (0xD800 ≤ unit ∧ unit < 0xE000) := by omega
  cases units with
  | nil => simp [unitsText?, noHalf]
  | cons next units =>
      cases next with
      | char c => simp [unitsText?, noHalf]
      | code low => rw [unitsText?, if_neg noHigh, if_neg noLow]

/-- A character of a string is escaped by two characters or by its number, or is written
    as it is. -/
theorem escapeChar_cases (c : Char) :
    (∃ letter, escapeChar c = ['\\', letter] ∧ simpleEscape? letter = some c) ∨
      (escapeChar c = '\\' :: 'u' :: (Text.hexDigits 4 c.toNat).map Char.toLower ∧
        c.toNat < 0x20) ∨
      (escapeChar c = [c] ∧ 0x20 ≤ c.toNat ∧ c ≠ '"' ∧ c ≠ '\\') := by
  unfold escapeChar
  split_ifs <;> simp_all [simpleEscape?]

/-- What is written for a character of a string is a spelling of that character. -/
theorem exists_spellsUnit_escapeChar (c : Char) :
    ∃ unit, SpellsUnit (escapeChar c) unit ∧
      ∀ units, unitsText? (unit :: units) = (unitsText? units).map (c :: ·) := by
  rcases escapeChar_cases c with ⟨letter, written, escape⟩ | ⟨written, control⟩ |
    ⟨written, large, noQuote, noBackslash⟩
  · rw [written]
    exact ⟨.char c, .short escape, fun _ => rfl⟩
  · have digits : Text.readHex? ((Text.hexDigits 4 c.toNat).map Char.toLower) = some c.toNat :=
      Text.readHex?_map_hexDigits Text.hexValue?_toLower_hexDigit (by decide) (by omega)
    rw [written]
    refine ⟨.code c.toNat, .code (by simp) digits, ?_⟩
    intro units
    rw [unitsText?_code (by omega), Char.ofNat_toNat]
  · rw [written]
    exact ⟨.char c, .plain large noQuote noBackslash, fun _ => rfl⟩

theorem exists_spellsUnits_escaped (text : List Char) :
    ∃ units, SpellsUnits (text.flatMap escapeChar) units ∧ unitsText? units = some text := by
  induction text with
  | nil => exact ⟨[], .nil, rfl⟩
  | cons c cs ih =>
      obtain ⟨units, spells, read⟩ := ih
      obtain ⟨unit, first, reads⟩ := exists_spellsUnit_escapeChar c
      exact ⟨unit :: units, .cons first spells, by rw [reads, read]; rfl⟩

/-- A string between quotes is a spelling of itself. -/
theorem spellsAtom_quoted (content : Option String) :
    SpellsAtom (quoted content) (.text content) := by
  cases content with
  | none =>
      have half : SpellsUnit "\\ud800".toList (.code 0xD800) := .code (by decide) (by decide)
      exact .text (.cons half .nil)
  | some text =>
      obtain ⟨units, spells, read⟩ := exists_spellsUnits_escaped text.toList
      have spelt := SpellsAtom.text spells
      rw [read, Option.map_some, String.ofList_toList] at spelt
      exact spelt

theorem spellsAtom_atomChars {a : JsonAtom} (spelt : a.WellSpelt) : SpellsAtom (atomChars a) a := by
  cases a with
  | null => exact .null
  | bool value =>
      cases value with
      | true => exact .isTrue
      | false => exact .isFalse
  | nat value => exact .nat value
  | number lexeme =>
      have number := SpellsAtom.number spelt
      rw [String.ofList_toList] at number
      exact number
  | text content => exact spellsAtom_quoted content

end Strings

section Layouts

variable {following : List JsonToken} {text : List Char}

theorem Layout.newLine (layout : Layout following text) (level : Nat) :
    Layout following (Json.newLine level ++ text) := by
  have spaces (count : Nat) : Layout following (List.replicate count ' ' ++ text) := by
    induction count with
    | zero => exact layout
    | succ count ih => exact .blank rfl ih
  exact .blank rfl (spaces (2 * level))

theorem Layout.comma (layout : Layout following text) (first : Bool) :
    Layout ((if first then [] else [.comma]) ++ following)
      ((if first then [] else [',']) ++ text) := by
  cases first with
  | true => exact layout
  | false => exact .sign .comma layout

theorem endsNumber_prettyItems (level : Nat) (first : Bool) (items : List Json)
    (text : List Char) : EndsNumber (prettyItems level first items ++ text) := by
  cases items <;> cases first <;> simp +decide [prettyItems, newLine]

theorem endsNumber_prettyMembers (level : Nat) (first : Bool)
    (members : List (Option String × Json)) (text : List Char) :
    EndsNumber (prettyMembers level first members ++ text) := by
  cases members <;> cases first <;> simp +decide [prettyMembers, newLine]

mutual

/-- A value with one part to a line, in front of a text, is laid out as its tokens. -/
theorem layout_prettyChars {following : List JsonToken} {text : List Char} (level : Nat)
    (json : Json) (writable : json.Writable) (ends : EndsNumber text)
    (layout : Layout following text) :
    Layout (json.tokens ++ following) (prettyChars level json ++ text) := by
  match json with
  | .atom a => exact .atom (spellsAtom_atomChars writable) ends layout
  | .array items => exact .sign .arrayOpen (layout_prettyItems level true items writable layout)
  | .object members =>
      exact .sign .objectOpen (layout_prettyMembers level true members writable layout)

theorem layout_prettyItems {following : List JsonToken} {text : List Char} (level : Nat)
    (first : Bool) (items : List Json) (writable : WritableItems items)
    (layout : Layout following text) :
    Layout (itemTokens first items ++ following) (prettyItems level first items ++ text) := by
  match items with
  | [] =>
      have closed : Layout (.arrayClose :: following) (']' :: text) := .sign .arrayClose layout
      cases first with
      | true => exact closed
      | false => simpa [prettyItems, itemTokens] using closed.newLine level
  | item :: rest =>
      have others := layout_prettyItems level false rest writable.2 layout
      have whole := layout_prettyChars (level + 1) item writable.1
        (endsNumber_prettyItems level false rest text) others
      simpa [prettyItems, itemTokens] using (whole.newLine (level + 1)).comma first

theorem layout_prettyMembers {following : List JsonToken} {text : List Char} (level : Nat)
    (first : Bool) (members : List (Option String × Json)) (writable : WritableMembers members)
    (layout : Layout following text) :
    Layout (memberTokens first members ++ following)
      (prettyMembers level first members ++ text) := by
  match members with
  | [] =>
      have closed : Layout (.objectClose :: following) ('\x7d' :: text) := .sign .objectClose layout
      cases first with
      | true => exact closed
      | false => simpa [prettyMembers, memberTokens] using closed.newLine level
  | (name, value) :: rest =>
      have others := layout_prettyMembers level false rest writable.2 layout
      have whole := layout_prettyChars (level + 1) value writable.1
        (endsNumber_prettyMembers level false rest text) others
      have colon : Layout (.colon :: (value.tokens ++ (memberTokens false rest ++ following)))
          (':' :: ' ' :: (prettyChars (level + 1) value ++
            (prettyMembers level false rest ++ text))) :=
        .sign .colon (.blank rfl whole)
      have named := Layout.atom (spellsAtom_quoted name) (by simp +decide) colon
      simpa [prettyMembers, memberTokens] using (named.newLine (level + 1)).comma first

end

theorem endsNumber_compactItems (items : List Json) (text : List Char) :
    EndsNumber (compactItems false items ++ text) := by
  cases items <;> simp +decide [compactItems]

theorem endsNumber_compactMembers (members : List (Option String × Json)) (text : List Char) :
    EndsNumber (compactMembers false members ++ text) := by
  cases members <;> simp +decide [compactMembers]

mutual

/-- A value on one line, in front of a text, is laid out as its tokens. -/
theorem layout_compactChars {following : List JsonToken} {text : List Char} (json : Json)
    (writable : json.Writable) (ends : EndsNumber text) (layout : Layout following text) :
    Layout (json.tokens ++ following) (compactChars json ++ text) := by
  match json with
  | .atom a => exact .atom (spellsAtom_atomChars writable) ends layout
  | .array items => exact .sign .arrayOpen (layout_compactItems true items writable layout)
  | .object members => exact .sign .objectOpen (layout_compactMembers true members writable layout)

theorem layout_compactItems {following : List JsonToken} {text : List Char} (first : Bool)
    (items : List Json) (writable : WritableItems items) (layout : Layout following text) :
    Layout (itemTokens first items ++ following) (compactItems first items ++ text) := by
  match items with
  | [] => exact .sign .arrayClose layout
  | item :: rest =>
      have others := layout_compactItems false rest writable.2 layout
      have whole := layout_compactChars item writable.1 (endsNumber_compactItems rest text) others
      simpa [compactItems, itemTokens] using whole.comma first

theorem layout_compactMembers {following : List JsonToken} {text : List Char} (first : Bool)
    (members : List (Option String × Json)) (writable : WritableMembers members)
    (layout : Layout following text) :
    Layout (memberTokens first members ++ following) (compactMembers first members ++ text) := by
  match members with
  | [] => exact .sign .objectClose layout
  | (name, value) :: rest =>
      have others := layout_compactMembers false rest writable.2 layout
      have whole := layout_compactChars value writable.1 (endsNumber_compactMembers rest text)
        others
      have named := Layout.atom (spellsAtom_quoted name) (by simp +decide) (.sign .colon whole)
      simpa [compactMembers, memberTokens] using named.comma first

end

/-- The printed form with one part to a line writes the value. -/
theorem writes_pretty {json : Json} (writable : json.Writable) :
    Writes json.pretty.toList json := by
  have layout := layout_prettyChars 0 json writable endsNumber_nil .done
  simpa [Writes, pretty] using layout

/-- The printed form on one line writes the value. -/
theorem writes_compact {json : Json} (writable : json.Writable) :
    Writes json.compact.toList json := by
  have layout := layout_compactChars json writable endsNumber_nil .done
  simpa [Writes, compact] using layout

end Layouts

end Json

end ExpressLinks
