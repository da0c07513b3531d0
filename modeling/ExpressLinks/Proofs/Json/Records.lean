import Mathlib.Data.List.Forall2
import Mathlib.Data.List.Nodup
import ExpressLinks.Json.Decode

/-!
# Records in objects

What a document may show for a record, written without a decoder. The object has a member
for each field that is given, in any order, and any members of other names besides. An
optional field that is absent may be left out or null, an empty list may be left out.
Decoding finds every field as it was given.
-/

namespace ExpressLinks.Json

section Records

/-- The members of the fields that are given. -/
def given (slots : List (String × Option Json)) : List (String × Json) :=
  slots.filterMap fun slot => slot.2.map (slot.1, ·)

/-- An object with the given fields and with members of unknown names, in any order.
    Unknown names may be repeated. -/
inductive RecordOf (slots : List (String × Option Json)) : Json → Prop
  | intro {members unknown : List (String × Json)} :
      members.Perm (given slots ++ unknown) →
      (∀ member ∈ unknown, member.1 ∉ slots.map Prod.fst) →
      RecordOf slots (.ofMembers members)

variable {slots : List (String × Option Json)}

theorem mem_given_iff {name : String} {value : Json} :
    (name, value) ∈ given slots ↔ (name, some value) ∈ slots := by
  constructor
  · intro listed
    obtain ⟨⟨known, content⟩, isSlot, shows⟩ := List.mem_filterMap.mp listed
    obtain ⟨value', rfl, same⟩ := Option.map_eq_some_iff.mp shows
    cases same
    exact isSlot
  · intro isSlot
    exact List.mem_filterMap.mpr ⟨_, isSlot, rfl⟩

theorem map_fst_given_sublist (slots : List (String × Option Json)) :
    ((given slots).map Prod.fst).Sublist (slots.map Prod.fst) := by
  induction slots with
  | nil => exact .slnil
  | cons slot rest ih =>
      obtain ⟨name, content⟩ := slot
      cases content with
      | none => exact ih.cons name
      | some value => exact ih.cons_cons name

/-- The given fields by themselves make a record. -/
theorem recordOf_given (slots : List (String × Option Json)) :
    RecordOf slots (.ofMembers (given slots)) := by
  have same : (given slots).Perm (given slots ++ []) := by rw [List.append_nil]
  exact .intro same (by simp)

theorem namedMembers?_map (members : List (String × Json)) :
    namedMembers? (members.map fun member => (some member.1, member.2)) = some members := by
  induction members with
  | nil => rfl
  | cons member rest ih => simp [namedMembers?, ih]

theorem distinctNames_iff {known : List String} {members : List (String × Json)} :
    distinctNames known members = true ↔
      ((members.map Prod.fst).filter (known.contains ·)).Nodup := by
  induction members with
  | nil => simp [distinctNames]
  | cons member rest ih =>
      obtain ⟨name, value⟩ := member
      have again : rest.any (·.1 == name) = true ↔ name ∈ rest.map Prod.fst := by
        simp only [List.any_eq_true, beq_iff_eq, List.mem_map]
      by_cases isKnown : name ∈ known
      · rw [List.map_cons, List.filter_cons_of_pos (by simpa using isKnown), List.nodup_cons, ← ih,
          List.mem_filter, ← again, distinctNames, Bool.and_eq_true, Bool.not_eq_true',
          ← Bool.not_eq_true, Bool.and_eq_true, and_comm (a := known.contains name = true)]
      · simp [distinctNames, ih, isKnown]

/-- A name that stands for one value at most is looked up as that value. -/
theorem lookup_eq_of_forall {members : List (String × Json)} {name : String}
    {content : Option Json} (only : ∀ value, (name, value) ∈ members ↔ content = some value) :
    members.lookup name = content := by
  cases found : members.lookup name with
  | none =>
      have missing := List.lookup_eq_none_iff.mp found
      cases content with
      | none => rfl
      | some value =>
          have listed := (only value).mpr rfl
          simpa using missing _ listed
  | some value =>
      obtain ⟨before, after, rfl, -⟩ := List.lookup_eq_some_iff.mp found
      exact ((only value).mp (by simp)).symm

/-- The fields come from an object, and are those of the slots. -/
structure Fields.Hold (fields : Fields) (slots : List (String × Option Json)) : Prop where
  named : fields.positional = false
  found {name : String} {content : Option Json} :
    (name, content) ∈ slots → fields.find? name = content

/-- In the object of a record every field is found as it was given. -/
theorem fields?_of_recordOf (known : List String) {json : Json} (record : RecordOf slots json)
    (names : slots.map Prod.fst = known) (distinct : known.Nodup) :
    ∃ fields, fields? known json = some fields ∧ fields.Hold slots := by
  subst names
  obtain @⟨members, unknown, order, others⟩ := record
  -- Only known names must not be repeated, and no unknown member bears one.
  have noOthers : (unknown.map Prod.fst).filter ((slots.map Prod.fst).contains ·) = [] := by
    simpa using others
  have once : distinctNames (slots.map Prod.fst) members = true := by
    have names := (order.map Prod.fst).filter ((slots.map Prod.fst).contains ·)
    rw [List.map_append, List.filter_append, noOthers, List.append_nil] at names
    rw [distinctNames_iff, names.nodup_iff]
    exact ((map_fst_given_sublist slots).nodup distinct).filter _
  refine ⟨⟨false, members⟩, ?_, rfl, ?_⟩
  · simp [fields?, ofMembers, namedMembers?_map, once]
  · intro name content isSlot
    apply lookup_eq_of_forall
    intro value
    rw [order.mem_iff, List.mem_append, mem_given_iff]
    constructor
    · rintro (same | other)
      · exact congrArg Prod.snd (List.inj_on_of_nodup_map distinct isSlot same rfl)
      · exact absurd (List.mem_map_of_mem isSlot) (others _ other)
    · rintro rfl
      exact .inl isSlot

end Records

section FieldValues

variable {α : Type} {presents : α → Json → Prop} {decode : Json → Option α}

/-- A text as a value. -/
inductive TextOf : String → Json → Prop
  | intro (content : String) : TextOf content (.text content)

/-- A list as a value: an array of its items in order. -/
inductive ListOf (presents : α → Json → Prop) : List α → Json → Prop
  | intro {items : List α} {values : List Json} :
      List.Forall₂ presents items values → ListOf presents items (.array values)

/-- What may stand in a field for a list: the list, or nothing at all for a list without
    items. -/
inductive ListFieldOf (presents : α → Json → Prop) : List α → Option Json → Prop
  | leftOut : ListFieldOf presents [] none
  | given {items : List α} {value : Json} :
      ListOf presents items value → ListFieldOf presents items (some value)

/-- What may stand in an optional field: the value that is there; null or nothing at all
    if there is none. -/
inductive OptionFieldOf (presents : α → Json → Prop) : Option α → Option Json → Prop
  | leftOut : OptionFieldOf presents none none
  | null : OptionFieldOf presents none (some .null)
  | given {a : α} {value : Json} :
      presents a value → OptionFieldOf presents (some a) (some value)

theorem asText?_text (content : String) : asText? (.text content) = some content := rfl

theorem asText?_of_textOf {content : String} {json : Json} (text : TextOf content json) :
    asText? json = some content := by
  cases text
  exact asText?_text content

theorem asList?_of_listOf {items : List α} {value : Json}
    (sound : ∀ {a value}, presents a value → decode value = some a)
    (shown : ListOf presents items value) : asList? decode value = some items := by
  obtain ⟨related⟩ := shown
  unfold asList?
  induction related with
  | nil => rfl
  | cons first _ ih => simp [List.mapM_cons, sound first, ih]

theorem nullable_eq_some {value : Json} {a : α} (noNull : decode .null = none)
    (decoded : decode value = some a) : Fields.nullable decode value = some (some a) := by
  unfold Fields.nullable
  split
  · exact absurd (noNull.symm.trans decoded) nofun
  · rw [decoded]
    rfl

section Encoded

variable {encode : α → Json}

/-- A member that is left out when there is no value shows the value. -/
theorem optionFieldOf_map {a : Option α} (shown : ∀ value ∈ a, presents value (encode value)) :
    OptionFieldOf presents a (a.map encode) := by
  cases a with
  | none => exact .leftOut
  | some value => exact .given (shown value rfl)

/-- A member that is null when there is no value shows the value. -/
theorem optionFieldOf_ofOption {a : Option α}
    (shown : ∀ value ∈ a, presents value (encode value)) :
    OptionFieldOf presents a (some (ofOption encode a)) := by
  cases a with
  | none => exact .null
  | some value => exact .given (shown value rfl)

theorem listOf_ofList {values : List α}
    (shown : ∀ value ∈ values, presents value (encode value)) :
    ListOf presents values (ofList encode values) := by
  apply ListOf.intro
  rw [List.forall₂_map_right_iff, List.forall₂_same]
  exact shown

end Encoded

variable {fields : Fields} {slots : List (String × Option Json)} {name : String}

namespace Fields.Hold

theorem required {value : Json} {a : α} (hold : fields.Hold slots)
    (isSlot : (name, some value) ∈ slots) (decoded : decode value = some a) :
    fields.required name decode = some a := by
  rw [Fields.required, hold.found isSlot]
  exact decoded

theorem withDefault {items : List α} {content : Option Json} (hold : fields.Hold slots)
    (isSlot : (name, content) ∈ slots)
    (sound : ∀ {a value}, presents a value → decode value = some a)
    (shown : ListFieldOf presents items content) :
    fields.withDefault name (asList? decode) [] = some items := by
  rw [Fields.withDefault, hold.found isSlot]
  cases shown with
  | leftOut => rfl
  | given shown => exact asList?_of_listOf sound shown

theorem optional {a : Option α} {content : Option Json} (hold : fields.Hold slots)
    (isSlot : (name, content) ∈ slots) (noNull : decode .null = none)
    (sound : ∀ {a value}, presents a value → decode value = some a)
    (shown : OptionFieldOf presents a content) :
    fields.optional name decode = some a := by
  rw [Fields.optional, Fields.withDefault, hold.found isSlot]
  cases shown with
  | leftOut => rfl
  | null => rfl
  | given shown => exact nullable_eq_some noNull (sound shown)

/-- From an object the two kinds of optional fields are read alike. -/
theorem optionalInPlace {a : Option α} {content : Option Json} (hold : fields.Hold slots)
    (isSlot : (name, content) ∈ slots) (noNull : decode .null = none)
    (sound : ∀ {a value}, presents a value → decode value = some a)
    (shown : OptionFieldOf presents a content) : fields.optionalInPlace name decode = some a := by
  have alike : fields.optionalInPlace name decode = fields.optional name decode := by
    unfold Fields.optionalInPlace Fields.optional Fields.withDefault
    rw [hold.named]
    rfl
  rw [alike]
  exact hold.optional isSlot noNull sound shown

end Fields.Hold

end FieldValues

end ExpressLinks.Json
