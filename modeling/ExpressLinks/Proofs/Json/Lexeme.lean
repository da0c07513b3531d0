import ExpressLinks.Json.Token
import ExpressLinks.Proofs.Text.Digits

/-!
# How JSON tokens are spelt

The grammar of the tokens, written without a reader: `SpellsAtom` and `SpellsSign` relate
a text to what it spells. A string has many spellings, as each of its characters may
stand for itself or be escaped, and a natural number has one. `nextToken?` reads every
spelling, whatever follows it, as long as a number does not run on.
-/

namespace ExpressLinks.Json

/-- Digits, one at least. -/
structure Digits (text : List Char) : Prop where
  given : text ≠ []
  digits : ∀ c ∈ text, Text.isDigit c = true

/-- The digits in front of the point, without a zero in front of others. -/
inductive IntegerText : List Char → Prop
  | zero : IntegerText ['0']
  | digits {text : List Char} : Digits text → text.head? ≠ some '0' → IntegerText text

/-- A point with digits, or nothing. -/
inductive FractionText : List Char → Prop
  | absent : FractionText []
  | given {digits : List Char} : Digits digits → FractionText ('.' :: digits)

/-- An exponent with or without a sign, or nothing. -/
inductive ExponentText : List Char → Prop
  | absent : ExponentText []
  | plain {mark : Char} {digits : List Char} :
      mark = 'e' ∨ mark = 'E' → Digits digits → ExponentText (mark :: digits)
  | signed {mark sign : Char} {digits : List Char} :
      mark = 'e' ∨ mark = 'E' → sign = '+' ∨ sign = '-' → Digits digits →
      ExponentText (mark :: sign :: digits)

/-- A number that has a sign, a fraction or an exponent. -/
inductive NumberText : List Char → Prop
  | intro {sign integer fraction exponent : List Char} :
      sign = [] ∨ sign = ['-'] → IntegerText integer → FractionText fraction →
      ExponentText exponent → ¬ (sign = [] ∧ fraction = [] ∧ exponent = []) →
      NumberText (sign ++ (integer ++ (fraction ++ exponent)))

/-- The spellings of a piece of a string: the character itself, an escape of two
    characters, or four hexadecimal digits for a unit of 16 bits. -/
inductive SpellsUnit : List Char → StringUnit → Prop
  | plain {c : Char} : 0x20 ≤ c.toNat → c ≠ '"' → c ≠ '\\' → SpellsUnit [c] (.char c)
  | short {letter c : Char} : simpleEscape? letter = some c → SpellsUnit ['\\', letter] (.char c)
  | code {digits : List Char} {unit : Nat} :
      digits.length = 4 → Text.readHex? digits = some unit →
      SpellsUnit ('\\' :: 'u' :: digits) (.code unit)

/-- The spellings of the pieces of a string, one after the other. -/
inductive SpellsUnits : List Char → List StringUnit → Prop
  | nil : SpellsUnits [] []
  | cons {piece rest : List Char} {unit : StringUnit} {units : List StringUnit} :
      SpellsUnit piece unit → SpellsUnits rest units → SpellsUnits (piece ++ rest) (unit :: units)

/-- The spellings of a value without parts. -/
inductive SpellsAtom : List Char → JsonAtom → Prop
  | null : SpellsAtom "null".toList .null
  | isTrue : SpellsAtom "true".toList (.bool true)
  | isFalse : SpellsAtom "false".toList (.bool false)
  | nat (value : Nat) : SpellsAtom (Text.decimal value) (.nat value)
  | number {text : List Char} : NumberText text → SpellsAtom text (.number (String.ofList text))
  | text {body : List Char} {units : List StringUnit} :
      SpellsUnits body units →
      SpellsAtom ('"' :: (body ++ ['"'])) (.text ((unitsText? units).map String.ofList))

/-- The characters that are tokens by themselves. -/
inductive SpellsSign : Char → JsonToken → Prop
  | arrayOpen : SpellsSign '[' .arrayOpen
  | arrayClose : SpellsSign ']' .arrayClose
  | objectOpen : SpellsSign '\x7b' .objectOpen
  | objectClose : SpellsSign '\x7d' .objectClose
  | comma : SpellsSign ',' .comma
  | colon : SpellsSign ':' .colon

/-- A text that does not start with a character of a number. -/
def EndsNumber (text : List Char) : Prop :=
  ∀ c ∈ text.head?, Text.isDigit c = false ∧ c ≠ '.' ∧ c ≠ 'e' ∧ c ≠ 'E'

@[simp] theorem endsNumber_nil : EndsNumber [] := by simp [EndsNumber]

@[simp] theorem endsNumber_cons {c : Char} {text : List Char} :
    EndsNumber (c :: text) ↔ Text.isDigit c = false ∧ c ≠ '.' ∧ c ≠ 'e' ∧ c ≠ 'E' := by
  simp [EndsNumber]

variable {text rest integer fraction exponent : List Char}

section Numbers

theorem Digits.exists_cons (digits : Digits text) :
    ∃ c cs, text = c :: cs ∧ Text.isDigit c = true := by
  obtain ⟨c, cs, rfl⟩ := List.exists_cons_of_ne_nil digits.given
  exact ⟨c, cs, rfl, digits.digits c List.mem_cons_self⟩

/-- Digits are read up to the first character that is none. -/
theorem readDigits?_append (digits : Digits text)
    (ends : ∀ c ∈ rest.head?, Text.isDigit c = false) :
    readDigits? (text ++ rest) = some (text, rest) := by
  have none_taken : rest.takeWhile Text.isDigit = [] := by
    cases rest with
    | nil => rfl
    | cons c cs => simp [ends c rfl]
  have none_dropped : rest.dropWhile Text.isDigit = rest := by
    cases rest with
    | nil => rfl
    | cons c cs => simp [ends c rfl]
  have taken : (text ++ rest).takeWhile Text.isDigit = text := by
    rw [List.takeWhile_append_of_pos digits.digits, none_taken, List.append_nil]
  have dropped : (text ++ rest).dropWhile Text.isDigit = rest := by
    rw [List.dropWhile_append_of_pos digits.digits, none_dropped]
  rw [readDigits?, taken, dropped]
  cases text with
  | nil => exact absurd rfl digits.given
  | cons c cs => rfl

theorem readInteger?_append (whole : IntegerText integer)
    (ends : ∀ c ∈ rest.head?, Text.isDigit c = false) :
    readInteger? (integer ++ rest) = some (integer, rest) := by
  cases whole with
  | zero => rfl
  | digits digits noZero =>
      obtain ⟨c, cs, rfl, -⟩ := digits.exists_cons
      have other : c ≠ '0' := by simpa using noZero
      rw [← readDigits?_append digits ends, List.cons_append, readInteger?]
      intro later starts
      exact other (List.cons.inj starts).1

theorem readFraction?_append (part : FractionText fraction)
    (ends : ∀ c ∈ rest.head?, Text.isDigit c = false ∧ c ≠ '.') :
    readFraction? (fraction ++ rest) = some (fraction, rest) := by
  cases part with
  | absent =>
      cases rest with
      | nil => rfl
      | cons c cs =>
          rw [List.nil_append, readFraction?]
          intro later starts
          exact (ends c rfl).2 (List.cons.inj starts).1
  | given digits =>
      have noDigit : ∀ c ∈ rest.head?, Text.isDigit c = false := fun c first => (ends c first).1
      rw [List.cons_append, readFraction?, readDigits?_append digits noDigit]
      rfl

theorem readSigned?_append (digits : Digits text)
    (ends : ∀ c ∈ rest.head?, Text.isDigit c = false) :
    readSigned? (text ++ rest) = some (text, rest) := by
  obtain ⟨c, cs, rfl, digit⟩ := digits.exists_cons
  rw [← readDigits?_append digits ends, List.cons_append, readSigned?]
  all_goals
    intro later starts
    rw [(List.cons.inj starts).1] at digit
    exact absurd digit (by decide)

theorem readExponent?_append (power : ExponentText exponent) (ends : EndsNumber rest) :
    readExponent? (exponent ++ rest) = some (exponent, rest) := by
  have noDigit : ∀ c ∈ rest.head?, Text.isDigit c = false := fun c first => (ends c first).1
  cases power with
  | absent =>
      cases rest with
      | nil => rfl
      | cons c cs =>
          obtain ⟨-, -, small, capital⟩ := ends c rfl
          rw [List.nil_append, readExponent?]
          · intro later starts
            exact small (List.cons.inj starts).1
          · intro later starts
            exact capital (List.cons.inj starts).1
  | plain mark digits =>
      have read := readSigned?_append digits noDigit
      rcases mark with rfl | rfl <;> simp [readExponent?, read]
  | signed mark sign digits =>
      have read := readDigits?_append digits noDigit
      rcases mark with rfl | rfl <;> rcases sign with rfl | rfl <;>
        simp [readExponent?, readSigned?, read]

theorem IntegerText.exists_cons (whole : IntegerText integer) :
    ∃ c cs, integer = c :: cs ∧ Text.isDigit c = true := by
  cases whole with
  | zero => exact ⟨'0', [], rfl, by decide⟩
  | digits digits _ => exact digits.exists_cons

/-- Behind the integer part of a number stands no digit. -/
theorem not_isDigit_of_head? (part : FractionText fraction) (power : ExponentText exponent)
    (ends : EndsNumber rest) :
    ∀ c ∈ (fraction ++ (exponent ++ rest)).head?, Text.isDigit c = false := by
  cases part with
  | given digits => simp +decide
  | absent =>
      cases power with
      | absent => exact fun c first => (ends c first).1
      | plain mark digits => rcases mark with rfl | rfl <;> simp +decide
      | signed mark sign digits => rcases mark with rfl | rfl <;> simp +decide

/-- Behind the fraction of a number stands neither a digit nor a point. -/
theorem not_point_of_head? (power : ExponentText exponent) (ends : EndsNumber rest) :
    ∀ c ∈ (exponent ++ rest).head?, Text.isDigit c = false ∧ c ≠ '.' := by
  cases power with
  | absent => exact fun c first => ⟨(ends c first).1, (ends c first).2.1⟩
  | plain mark digits => rcases mark with rfl | rfl <;> simp +decide
  | signed mark sign digits => rcases mark with rfl | rfl <;> simp +decide

/-- A number is read part by part, and as a natural number if it is digits only. -/
theorem readNumber?_append {sign : List Char} (signed : sign = [] ∨ sign = ['-'])
    (whole : IntegerText integer) (part : FractionText fraction) (power : ExponentText exponent)
    (ends : EndsNumber rest) :
    readNumber? (sign ++ (integer ++ (fraction ++ (exponent ++ rest)))) =
      if sign = [] ∧ fraction = [] ∧ exponent = [] then
        (Text.readDecimal? integer).map fun value => (.nat value, rest)
      else some (.number (String.ofList (sign ++ (integer ++ (fraction ++ exponent)))), rest) := by
  have integerRead := readInteger?_append whole (not_isDigit_of_head? part power ends)
  have fractionRead := readFraction?_append part (not_point_of_head? power ends)
  have exponentRead := readExponent?_append power ends
  rcases signed with rfl | rfl
  · obtain ⟨c, cs, rfl, digit⟩ := whole.exists_cons
    -- the text starts with a digit, so it is not taken for a sign
    have noSign : c ≠ '-' := by
      rintro rfl
      exact absurd digit (by decide)
    rw [List.cons_append] at integerRead
    simp only [readNumber?, List.nil_append, List.cons_append]
    split
    · next rest' starts => exact absurd (List.cons.inj starts).1 noSign
    · simp only [integerRead, fractionRead, exponentRead, Option.bind_eq_bind, Option.bind_some]
      simp [Option.map_eq_bind]
  · simp [readNumber?, integerRead, fractionRead, exponentRead]

end Numbers

section Strings

/-- A piece of a string is read whatever the rest of the string holds. -/
theorem readUnits?_append {piece later : List Char} {unit : StringUnit} {units : List StringUnit}
    (spells : SpellsUnit piece unit) (read : readUnits? text = some (units, later)) :
    readUnits? (piece ++ text) = some (unit :: units, later) := by
  cases spells with
  | @plain c large noQuote noBackslash =>
      have readable : ¬ (c.toNat < 0x20 || c == '\\') := by
        simp [noBackslash]
        omega
      rw [List.singleton_append, readUnits?, if_neg readable, read]
      · rfl
      · exact noQuote
      · exact fun _ _ _ _ _ backslash => absurd backslash noBackslash
      · exact fun _ _ backslash => absurd backslash noBackslash
  | @short letter c escape =>
      have noCode : letter ≠ 'u' := by
        rintro rfl
        simp [simpleEscape?] at escape
      rw [List.cons_append, List.singleton_append, readUnits?, escape, read]
      · rfl
      · exact fun _ _ _ _ _ code => absurd code noCode
  | code four value =>
      obtain ⟨a, b, c, d, rfl⟩ := List.length_eq_four.mp four
      simp [readUnits?, value, read]

/-- A string is read up to its closing quote. -/
theorem readUnits?_of_spells {body : List Char} {units : List StringUnit}
    (spells : SpellsUnits body units) (rest : List Char) :
    readUnits? (body ++ '"' :: rest) = some (units, rest) := by
  induction spells with
  | nil => rfl
  | cons unit _ ih =>
      rw [List.append_assoc]
      exact readUnits?_append unit ih

end Strings

section Tokens

/-- What starts like a number is read as one. -/
theorem nextToken?_of_number {c : Char} {cs : List Char}
    (starts : c = '-' ∨ Text.isDigit c = true) :
    nextToken? (c :: cs) =
      (readNumber? (c :: cs)).map fun (number, rest) => (.atom number, rest) := by
  rw [nextToken?]
  all_goals
    intro later same
    obtain rfl := (List.cons.inj same).1
    revert starts
    decide

theorem nextToken?_of_spellsAtom {lexeme : List Char} {atom : JsonAtom}
    (spells : SpellsAtom lexeme atom) (ends : EndsNumber rest) :
    nextToken? (lexeme ++ rest) = some (.atom atom, rest) := by
  cases spells with
  | null => rfl
  | isTrue => rfl
  | isFalse => rfl
  | nat value =>
      have digits : Digits (Text.decimal value) :=
        ⟨Text.decimal_ne_nil value, fun _ => Text.isDigit_of_mem_decimal⟩
      have whole : IntegerText (Text.decimal value) := by
        by_cases zero : value = 0
        · subst zero
          exact .zero
        · exact .digits digits (mt Text.eq_zero_of_head?_decimal zero)
      have read := readNumber?_append (.inl rfl) whole .absent .absent ends
      obtain ⟨c, cs, text, digit⟩ := digits.exists_cons
      simp only [List.nil_append, and_self, if_true, Text.readDecimal?_decimal, Option.map_some]
        at read
      rw [text, List.cons_append] at read ⊢
      rw [nextToken?_of_number (.inr digit), read]
      rfl
  | number number =>
      cases number with
      | @intro sign integer fraction exponent signed whole part power proper =>
          have read := readNumber?_append signed whole part power ends
          rw [if_neg proper] at read
          have starts : ∃ c cs, sign ++ (integer ++ (fraction ++ (exponent ++ rest))) = c :: cs ∧
              (c = '-' ∨ Text.isDigit c = true) := by
            rcases signed with rfl | rfl
            · obtain ⟨c, cs, rfl, digit⟩ := whole.exists_cons
              exact ⟨c, _, rfl, .inr digit⟩
            · exact ⟨'-', _, rfl, .inl rfl⟩
          obtain ⟨c, cs, text, first⟩ := starts
          simp only [List.append_assoc]
          rw [text] at read ⊢
          rw [nextToken?_of_number first, read]
          rfl
  | text units =>
      have read := readUnits?_of_spells units rest
      simp [nextToken?, read]

theorem nextToken?_of_spellsSign {c : Char} {token : JsonToken} (spells : SpellsSign c token) :
    nextToken? (c :: rest) = some (token, rest) := by
  cases spells <;> rfl

/-- A token starts with no blank. -/
theorem SpellsAtom.exists_cons {lexeme : List Char} {atom : JsonAtom}
    (spells : SpellsAtom lexeme atom) : ∃ c cs, lexeme = c :: cs ∧ isSpace c = false := by
  have inked {c : Char} (digit : Text.isDigit c = true) : isSpace c = false := by
    simp only [isSpace, Bool.or_eq_false_iff, beq_eq_false_iff_ne]
    refine ⟨⟨⟨?_, ?_⟩, ?_⟩, ?_⟩ <;> rintro rfl <;> exact absurd digit (by decide)
  cases spells with
  | null => exact ⟨_, _, rfl, by decide⟩
  | isTrue => exact ⟨_, _, rfl, by decide⟩
  | isFalse => exact ⟨_, _, rfl, by decide⟩
  | nat value =>
      obtain ⟨c, cs, text⟩ := List.exists_cons_of_ne_nil (Text.decimal_ne_nil value)
      have digit : Text.isDigit c = true := by
        apply Text.isDigit_of_mem_decimal (n := value)
        simp [text]
      exact ⟨c, cs, text, inked digit⟩
  | number number =>
      cases number with
      | intro signed whole =>
          rcases signed with rfl | rfl
          · obtain ⟨c, cs, rfl, digit⟩ := whole.exists_cons
            exact ⟨c, _, rfl, inked digit⟩
          · exact ⟨_, _, rfl, by decide⟩
  | text => exact ⟨_, _, rfl, by decide⟩

theorem SpellsSign.not_isSpace {c : Char} {token : JsonToken} (spells : SpellsSign c token) :
    isSpace c = false := by
  cases spells <;> decide

end Tokens

end ExpressLinks.Json
