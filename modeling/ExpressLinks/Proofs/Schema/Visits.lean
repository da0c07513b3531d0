import ExpressLinks.Proofs.Schema.Ending

/-!
# What a chain of base types visits

A chain starts at the first type of a name and goes on to the first type of the name
that is the base of the type it has come to. Several types may bear one name, so
declarations are told apart by their places among the types. A chain visits some place
twice exactly when it never ends.
-/

namespace ExpressLinks.Schema

open Relation

/-- The place of the first type of a name. -/
def typePlace? (schema : Schema) (name : String) : Option Nat :=
  schema.types.findIdx? fun type => Ident.same type.id name

/-- The place of the type that the one at a place has as its base, if the base is no
    keyword and some type bears the name. -/
def basePlace? (schema : Schema) (place : Nat) : Option Nat :=
  match schema.types[place]? with
  | none => none
  | some type =>
      match type.base with
      | .named name => schema.typePlace? name
      | _ => none

/-- The place that the chain from the first type of a name visits after so many steps. -/
def visited? (schema : Schema) (name : String) : Nat → Option Nat
  | 0 => schema.typePlace? name
  | steps + 1 => (schema.visited? name steps).bind schema.basePlace?

/-- The chain from the first type of a name visits some declaration twice. -/
def VisitsTwice (schema : Schema) (name : String) : Prop :=
  ∃ first again place, first < again ∧ schema.visited? name first = some place ∧
    schema.visited? name again = some place

/-- The type stands at the place and is the first of its name. -/
structure StandsAt (schema : Schema) (type : TypeDecl) (place : Nat) : Prop where
  found : schema.types[place]? = some type
  first : schema.typePlace? type.id = some place

variable {schema : Schema} {name : String} {type source target : TypeDecl} {place next : Nat}

theorem StandsAt.unique (stands : schema.StandsAt type place)
    (stands' : schema.StandsAt type next) :
    place = next :=
  Option.some.inj (stands.first.symm.trans stands'.first)

/-- Names that are the same lead to the same place. -/
theorem typePlace?_congr {other : String} (same : Ident.same name other) :
    schema.typePlace? name = schema.typePlace? other := by
  rw [Ident.same_iff_folded_eq] at same
  have agree (type : TypeDecl) : Ident.same type.id name = Ident.same type.id other := by
    rw [Bool.eq_iff_iff, Ident.same_iff_folded_eq, Ident.same_iff_folded_eq, same]
  simp [typePlace?, agree]

/-- The type that a name refers to stands at the place to which the name leads. -/
theorem findType?_eq_some_iff_standsAt :
    schema.findType? name = some type ↔
      ∃ place, schema.typePlace? name = some place ∧ schema.StandsAt type place := by
  constructor
  · intro found
    have same : Ident.same type.id name := by simpa using List.find?_some found
    obtain ⟨-, place, inside, here, before⟩ := List.find?_eq_some_iff_getElem.mp found
    have leads : schema.typePlace? name = some place := by
      rw [typePlace?, List.findIdx?_eq_some_iff_getElem]
      refine ⟨inside, ?_, ?_⟩
      · rw [here]
        exact same
      · intro earlier less
        simpa using before earlier less
    refine ⟨place, leads, ?_, ?_⟩
    · rw [List.getElem?_eq_getElem inside, here]
    · rw [typePlace?_congr same]
      exact leads
  · rintro ⟨place, leads, stands⟩
    rw [typePlace?, List.findIdx?_eq_some_iff_getElem] at leads
    obtain ⟨inside, same, before⟩ := leads
    have here := stands.found
    rw [List.getElem?_eq_getElem inside] at here
    rw [Option.some.inj here] at same
    rw [findType?, List.find?_eq_some_iff_getElem]
    refine ⟨same, place, inside, Option.some.inj here, ?_⟩
    intro earlier less
    simpa using before earlier less

theorem exists_standsAt_of_typePlace? (leads : schema.typePlace? name = some place) :
    ∃ type, schema.findType? name = some type ∧ schema.StandsAt type place := by
  obtain ⟨inside, same, -⟩ := List.findIdx?_eq_some_iff_getElem.mp leads
  have stands : schema.StandsAt schema.types[place] place := by
    refine ⟨List.getElem?_eq_getElem inside, ?_⟩
    rw [typePlace?_congr same]
    exact leads
  exact ⟨_, findType?_eq_some_iff_standsAt.mpr ⟨place, leads, stands⟩, stands⟩

/-- Going from place to place is going from a type to its base. -/
theorem basePlace?_eq_some_iff (stands : schema.StandsAt source place) :
    schema.basePlace? place = some next ↔
      ∃ target, schema.BaseStep source target ∧ schema.StandsAt target next := by
  have named : schema.basePlace? place = some next ↔
      ∃ name, source.base = .named name ∧ schema.typePlace? name = some next := by
    rw [basePlace?, stands.found]
    cases base : source.base <;> simp [base]
  rw [named]
  constructor
  · rintro ⟨name, base, leads⟩
    obtain ⟨target, found, stands'⟩ := exists_standsAt_of_typePlace? leads
    exact ⟨target, baseStep_iff.mpr ⟨name, base, found⟩, stands'⟩
  · rintro ⟨target, step, stands'⟩
    obtain ⟨name, base, found⟩ := baseStep_iff.mp step
    obtain ⟨place', leads, stands''⟩ := findType?_eq_some_iff_standsAt.mp found
    obtain rfl := stands''.unique stands'
    exact ⟨name, base, leads⟩

/-- What is visited later is reached by steps to bases. -/
theorem exists_reached_of_visited? {first : Nat} (here : schema.visited? name first = some place)
    (stands : schema.StandsAt source place) (more : Nat)
    (later : schema.visited? name (first + more) = some next) :
    ∃ target, schema.StandsAt target next ∧ ReflTransGen schema.BaseStep source target ∧
      (0 < more → TransGen schema.BaseStep source target) := by
  induction more generalizing next with
  | zero =>
      obtain rfl : place = next := by simpa [here] using later
      exact ⟨source, stands, .refl, by simp⟩
  | succ more ih =>
      rw [Nat.add_succ, visited?, Option.bind_eq_some_iff] at later
      obtain ⟨before, came, leads⟩ := later
      obtain ⟨middle, stands', reaches, -⟩ := ih came
      obtain ⟨target, step, stands''⟩ := (basePlace?_eq_some_iff stands').mp leads
      exact ⟨target, stands'', reaches.tail step, fun _ => .tail' reaches step⟩

/-- What is reached by steps to bases is visited. -/
theorem exists_visited?_of_reaches {first : Nat} (here : schema.visited? name first = some place)
    (stands : schema.StandsAt source place) (reaches : ReflTransGen schema.BaseStep source target) :
    ∃ more next, schema.visited? name (first + more) = some next ∧ schema.StandsAt target next := by
  induction reaches with
  | refl => exact ⟨0, place, here, stands⟩
  | tail _ step ih =>
      obtain ⟨more, before, came, stands'⟩ := ih
      obtain ⟨name', base, found⟩ := baseStep_iff.mp step
      obtain ⟨next, -, stands''⟩ := findType?_eq_some_iff_standsAt.mp found
      have leads := (basePlace?_eq_some_iff stands').mpr ⟨_, step, stands''⟩
      refine ⟨more + 1, next, ?_, stands''⟩
      rw [← Nat.add_assoc, visited?, came]
      exact leads

/-- A chain visits a declaration twice exactly when it goes in a circle. -/
theorem visitsTwice_iff_endsIn_endless (found : schema.findType? name = some type) :
    schema.VisitsTwice name ↔ schema.EndsIn type .endless := by
  obtain ⟨start, leads, stands⟩ := findType?_eq_some_iff_standsAt.mp found
  have begins : schema.visited? name 0 = some start := leads
  constructor
  · rintro ⟨first, again, place, before, here, there⟩
    obtain ⟨source, stands', reaches, -⟩ :=
      exists_reached_of_visited? begins stands first (by simpa using here)
    obtain ⟨more, rfl⟩ := Nat.exists_eq_add_of_lt before
    obtain ⟨target, stands'', -, circle⟩ := exists_reached_of_visited? here stands' (more + 1) there
    -- one place holds one type
    obtain rfl : source = target := by simpa [stands'.found] using stands''.found
    exact .circle reaches (circle (by simp))
  · intro ends
    cases ends with
    | stop _ stops => exact absurd rfl stops.ne_endless
    | circle reaches circle =>
        obtain ⟨first, place, here, stands'⟩ := exists_visited?_of_reaches begins stands reaches
        obtain ⟨target, step, back⟩ := TransGen.head'_iff.mp circle
        obtain ⟨name', base, found'⟩ := baseStep_iff.mp step
        obtain ⟨next, -, onward⟩ := findType?_eq_some_iff_standsAt.mp found'
        have after : schema.visited? name (0 + first + 1) = some next := by
          rw [visited?, here]
          exact (basePlace?_eq_some_iff stands').mpr ⟨target, step, onward⟩
        obtain ⟨more, place', there, stands''⟩ := exists_visited?_of_reaches after onward back
        obtain rfl := stands'.unique stands''
        exact ⟨_, _, place, by omega, here, there⟩

end ExpressLinks.Schema
