import ExpressLinks.Proofs.Resolution.Failing
import ExpressLinks.Proofs.Text.Pieces
import Mathlib.Data.Nat.Digits.Lemmas

/-!
# What a reason quotes

Apart from what it quotes a message holds no line feed, and it quotes names of the path
as they are written and names of schemas and their elements as they are declared. So
the message for a path stands on one line if the path does and the declared names do.
-/

namespace ExpressLinks

theorem Text.not_mem_toString_nat {c : Char} (other : c.isDigit = false) (n : Nat) :
    c ∉ (toString n).toList := by
  rw [Nat.toString_eq_ofList_toDigits, String.toList_ofList]
  intro member
  have digit := Nat.isDigit_of_mem_toDigits (by decide) (by decide) member
  exact absurd (other.symm.trans digit) (by decide)

theorem Text.toString_string (text : String) : toString text = text := rfl

theorem BuiltinType.feed_not_mem_keyword (builtin : BuiltinType) :
    '\n' ∉ builtin.keyword.toList := by
  cases builtin <;> decide

namespace Reason

/-- The texts that the message takes over from the path and the declarations. -/
def quoted : Reason → List String
  | schemaNotFound schema => [schema]
  | elementNotFound element schema => [element, schema]
  | attributeNotFound name path => [name, path]
  | enumValueNotFound value path => [value, path]
  | baseTypeNotFound _ path => [path]
  | builtinType _ path => [path]
  | enumValueLeaf path => [path]
  | notNavigable path => [path]
  | redirectionLimit path _ => [path]

theorem feed_mem_message_iff {reason : Reason} :
    '\n' ∈ reason.message.toList ↔ ∃ text ∈ reason.quoted, '\n' ∈ text.toList := by
  have limit := Text.not_mem_toString_nat (c := '\n') rfl
  have keyword := BuiltinType.feed_not_mem_keyword
  -- what stands between the quoted texts is fixed and can be looked through
  cases reason <;> unfold message quoted <;>
    simp +decide only [String.toList_append, List.mem_append, List.mem_cons, List.not_mem_nil,
      or_false, false_or, exists_eq_or_imp, exists_eq_left, limit, keyword,
      Text.toString_string]

end Reason

namespace Schema

/-- The schema and its elements have names without line feeds. -/
structure NamesOnOneLine (schema : Schema) : Prop where
  own : '\n' ∉ schema.id.toList
  elements : ∀ element ∈ schema.elements, '\n' ∉ element.id.toList

theorem feed_not_mem_extendPath {path name : String} (before : '\n' ∉ path.toList)
    (last : '\n' ∉ name.toList) : '\n' ∉ (extendPath path name).toList := by
  simp [extendPath, Text.toString_string, before, last]

/-- Below a declaration a reason quotes the declaration and the name at fault only. -/
theorem MemberFailsAt.feed_not_mem_quoted {schema : Schema} {path name : String}
    {element : Element} {later : List String} {segment : Nat} {reason : Reason}
    (fails : schema.MemberFailsAt path name element later segment reason)
    (before : '\n' ∉ path.toList) (last : '\n' ∉ name.toList) :
    ∀ text ∈ reason.quoted, '\n' ∉ text.toList := by
  have longer := feed_not_mem_extendPath before last
  cases fails <;> simp [Reason.quoted, before, last, longer]

end Schema

/-- A reason quotes names of the path and the names of a schema and an element of it. -/
theorem FailsAt.feed_not_mem_quoted {schemas : List Schema} {segments : List String}
    {segment : Nat} {reason : Reason} (fails : FailsAt schemas segments segment reason)
    (declared : ∀ schema ∈ schemas, schema.NamesOnOneLine)
    (written : ∀ name ∈ segments, '\n' ∉ name.toList) :
    ∀ text ∈ reason.quoted, '\n' ∉ text.toList := by
  cases fails with
  | schema missing =>
      have schemaName := written _ List.mem_cons_self
      simp [Reason.quoted, schemaName]
  | element held same missing =>
      obtain ⟨schemaName, elementName, -⟩ := by simpa using written
      simp [Reason.quoted, schemaName, elementName]
  | member held same nonempty first fails =>
      have names := declared _ held
      have path := Schema.feed_not_mem_extendPath names.own (names.elements _ first.mem)
      exact fails.feed_not_mem_quoted path (written _ (by simp))

namespace Corpus

/-- The message for a path without line feeds holds none if the declared names hold none. -/
theorem feed_not_mem_message {schemas : List Schema} {corpus : Corpus} {path : String}
    {segment : Nat} {reason : Reason} (built : ofSchemas schemas = .ok corpus)
    (declared : ∀ schema ∈ schemas, schema.NamesOnOneLine)
    (unresolved : corpus.resolve path = .unresolved segment reason)
    (written : '\n' ∉ path.toList) : '\n' ∉ reason.message.toList := by
  obtain ⟨wellFiled, rfl⟩ := ofSchemas_ok built
  have fails := wellFiled.resolveSegments_eq_unresolved_iff.mp unresolved
  have segments : ∀ name ∈ pathSegments path, '\n' ∉ name.toList := fun name member feed =>
    written (Text.mem_of_mem_splitString member feed)
  rw [Reason.feed_mem_message_iff]
  rintro ⟨text, quoted, feed⟩
  exact fails.feed_not_mem_quoted declared segments text quoted feed

end Corpus

end ExpressLinks
