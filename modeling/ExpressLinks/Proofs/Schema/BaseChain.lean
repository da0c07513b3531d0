import Mathlib.Data.List.Perm.Subperm
import Mathlib.Logic.Relation
import ExpressLinks.Proofs.Schema.Lookup
import ExpressLinks.Resolution

/-!
# Chains of base types

One step leads from a type to the type that its base type names. `chainEnd`
follows such steps under a budget; this module says where the steps lead without
one. A type has one next step at most and otherwise stops the chain, so a chain
that stops never comes back to a type it has left. All types after the first are
declared, hence a chain that stops takes fewer steps than the schema has types,
and the budget of `chainEnd` is large enough.
-/

namespace ExpressLinks.Schema

open Relation

/-- The base type of `source` is no keyword and names `target` among the types. -/
def BaseStep (schema : Schema) (source target : TypeDecl) : Prop :=
  ∃ name, source.baseType = some name ∧ BuiltinType.ofKeyword? name = none ∧
    FirstNamed TypeDecl.id name schema.types target

/-- What a chain ends in when it stops at a type; nothing if it goes on. -/
def stop? (schema : Schema) (type : TypeDecl) : Option ChainEnd :=
  match type.base with
  | .absent => some (if type.enumValues.isSome then .enumeration type else .bare)
  | .builtin builtin => some (.builtin builtin)
  | .named name => if (schema.findType? name).isSome then none else some (.undeclared name)

variable {schema : Schema} {source target other type last : TypeDecl} {ending : ChainEnd}

theorem base_eq_named_iff {name : String} :
    type.base = .named name ↔ type.baseType = some name ∧ BuiltinType.ofKeyword? name = none := by
  unfold TypeDecl.base
  cases type.baseType with
  | none => simp
  | some text =>
      constructor
      · cases keyword : BuiltinType.ofKeyword? text with
        | none =>
            intro named
            obtain rfl : text = name := by simpa [keyword] using named
            exact ⟨rfl, keyword⟩
        | some builtin => simp [keyword]
      · rintro ⟨written, keyword⟩
        obtain rfl : text = name := Option.some.inj written
        simp [keyword]

theorem base_eq_absent_iff : type.base = .absent ↔ type.baseType = none := by
  unfold TypeDecl.base
  cases type.baseType with
  | none => simp
  | some text => cases keyword : BuiltinType.ofKeyword? text <;> simp [keyword]

theorem baseStep_iff :
    schema.BaseStep source target ↔
      ∃ name, source.base = .named name ∧ schema.findType? name = some target := by
  unfold BaseStep
  simp only [base_eq_named_iff, findType?_eq_some_iff, and_assoc]

/-- The type after a step is declared. -/
theorem BaseStep.mem (step : schema.BaseStep source target) : target ∈ schema.types := by
  obtain ⟨name, -, -, first⟩ := step
  exact first.mem

/-- There is one next type at most. -/
theorem BaseStep.unique (step : schema.BaseStep source target)
    (step' : schema.BaseStep source other) : target = other := by
  obtain ⟨name, named, -, first⟩ := step
  obtain ⟨name', named', -, first'⟩ := step'
  obtain rfl : name = name' := Option.some.inj (named.symm.trans named')
  exact first.unique first'

/-- A chain goes on exactly where it does not stop. -/
theorem stop?_eq_none_iff : schema.stop? source = none ↔ ∃ target, schema.BaseStep source target := by
  simp only [baseStep_iff]
  unfold stop?
  cases source.base with
  | absent => simp
  | builtin builtin => simp
  | named name => simp [Option.isSome_iff_exists]

theorem BaseStep.stop?_eq_none (step : schema.BaseStep source target) : schema.stop? source = none :=
  stop?_eq_none_iff.mpr ⟨target, step⟩

/-- A chain ends in an enumeration where a type without a base type lists values. -/
theorem stop?_eq_enumeration_iff :
    schema.stop? type = some (.enumeration last) ↔
      type = last ∧ last.baseType = none ∧ last.enumValues.isSome := by
  rw [← base_eq_absent_iff]
  unfold stop?
  constructor
  · intro stops
    cases base : type.base with
    | absent =>
        by_cases listed : type.enumValues.isSome
        · obtain rfl : type = last := by simpa [base, listed] using stops
          exact ⟨rfl, base, listed⟩
        · simp [base, listed] at stops
    | builtin builtin => simp [base] at stops
    | named name =>
        by_cases found : (schema.findType? name).isSome <;> simp [base, found] at stops
  · rintro ⟨rfl, absent, listed⟩
    simp [absent, listed]

/-- Where the chain stops, `chainEnd` says so as soon as it may look up one name. -/
theorem chainEnd_of_stop (stops : schema.stop? type = some ending) (budget : Nat) :
    schema.chainEnd (budget + 1) type = ending := by
  unfold stop? at stops
  unfold chainEnd
  cases base : type.base with
  | absent => simpa [base] using stops
  | builtin builtin => simpa [base] using stops
  | named name =>
      simp only [base] at stops ⊢
      cases found : schema.findType? name with
      | none => simpa [found] using stops
      | some target => simp [found] at stops

/-- A step costs one unit of the budget. -/
theorem chainEnd_of_step (step : schema.BaseStep source target) (budget : Nat) :
    schema.chainEnd (budget + 1) source = schema.chainEnd budget target := by
  obtain ⟨name, base, found⟩ := baseStep_iff.mp step
  rw [chainEnd, base]
  simp only [found]

/-- Without a budget nothing is looked up. -/
theorem chainEnd_zero (ends : schema.chainEnd 0 type ≠ .endless) :
    schema.stop? type = some (schema.chainEnd 0 type) := by
  unfold chainEnd at ends ⊢
  unfold stop?
  cases base : type.base with
  | absent => rfl
  | builtin builtin => rfl
  | named name => simp [base] at ends

/-- An end that `chainEnd` reports is where the steps lead. -/
theorem exists_stop_of_chainEnd {budget : Nat} (ends : schema.chainEnd budget type = ending)
    (finite : ending ≠ .endless) :
    ∃ last, ReflTransGen schema.BaseStep type last ∧ schema.stop? last = some ending := by
  induction budget generalizing type with
  | zero =>
      subst ends
      exact ⟨type, .refl, chainEnd_zero finite⟩
  | succ budget ih =>
      cases stops : schema.stop? type with
      | some reached =>
          rw [chainEnd_of_stop stops] at ends
          exact ⟨type, .refl, ends ▸ stops⟩
      | none =>
          obtain ⟨target, step⟩ := stop?_eq_none_iff.mp stops
          rw [chainEnd_of_step step] at ends
          obtain ⟨last, reaches, stopped⟩ := ih ends
          exact ⟨last, .head step reaches, stopped⟩

/-- A chain that stops does not come back to where it started. -/
theorem not_transGen_self_of_stop (reaches : ReflTransGen schema.BaseStep type last)
    (stops : schema.stop? last = some ending) : ¬ TransGen schema.BaseStep type type := by
  induction reaches using ReflTransGen.head_induction_on with
  | refl =>
      intro circle
      obtain ⟨target, step, -⟩ := TransGen.head'_iff.mp circle
      simp [step.stop?_eq_none] at stops
  | head step _ ih =>
      -- a circle through the source passes its one target, so it is one of the target
      intro circle
      obtain ⟨target, step', back⟩ := TransGen.head'_iff.mp circle
      obtain rfl := step.unique step'
      exact ih (TransGen.tail' back step)

/-- The types `left` behind on the way to a type: each is declared, none comes twice or is
    the type reached, and the type was reached from each of them. -/
structure Trail (schema : Schema) (left : List TypeDecl) (type : TypeDecl) : Prop where
  distinct : (type :: left).Nodup
  declared : type :: left ⊆ schema.types
  passed : ∀ earlier ∈ left, TransGen schema.BaseStep earlier type

namespace Trail

variable {left : List TypeDecl}

theorem start (declared : type ∈ schema.types) : schema.Trail [] type where
  distinct := by simp
  declared := by simpa using declared
  passed := by simp

/-- Fewer types are left behind than the schema has. -/
theorem length_lt (trail : schema.Trail left type) : left.length < schema.types.length := by
  have bound := (trail.distinct.subperm trail.declared).length_le
  rw [List.length_cons] at bound
  exact Nat.lt_of_succ_le bound

/-- The next type is reached from the present one and from those before it. -/
theorem reached (trail : schema.Trail left type) (step : schema.BaseStep type target) :
    ∀ earlier ∈ type :: left, TransGen schema.BaseStep earlier target := by
  intro earlier member
  rcases List.mem_cons.mp member with rfl | member
  · exact .single step
  · exact (trail.passed earlier member).tail step

/-- A step to a type not met before moves the type it leaves to those left behind. -/
theorem step (trail : schema.Trail left type) (step : schema.BaseStep type target)
    (fresh : target ∉ type :: left) : schema.Trail (type :: left) target where
  distinct := List.nodup_cons.mpr ⟨fresh, trail.distinct⟩
  declared := List.cons_subset.mpr ⟨step.mem, trail.declared⟩
  passed := trail.reached step

end Trail

/-- Along a chain that stops the budget never runs out. -/
theorem chainEnd_of_reaches_stop (reaches : ReflTransGen schema.BaseStep type last)
    (stops : schema.stop? last = some ending) (left : List TypeDecl) (budget : Nat)
    (trail : schema.Trail left type) (enough : schema.types.length ≤ left.length + budget) :
    schema.chainEnd budget type = ending := by
  -- Each step moves the type it leaves to `left`, which keeps its length and the
  -- budget together at the number of types.
  induction reaches using ReflTransGen.head_induction_on generalizing left budget with
  | refl =>
      have fewer := trail.length_lt
      obtain ⟨rest, rfl⟩ : ∃ rest, budget = rest + 1 := ⟨budget - 1, by omega⟩
      exact chainEnd_of_stop stops rest
  | @head type target step reaches ih =>
      have fewer := trail.length_lt
      obtain ⟨rest, rfl⟩ : ∃ rest, budget = rest + 1 := ⟨budget - 1, by omega⟩
      rw [chainEnd_of_step step]
      have fresh : target ∉ type :: left := by
        intro member
        exact not_transGen_self_of_stop reaches stops (trail.reached step target member)
      apply ih (type :: left) rest (trail.step step fresh)
      simp only [List.length_cons]
      omega

/-- With one unit for each type, `chainEnd` reports exactly where the steps from a
    declared type lead when they stop. -/
theorem chainEnd_length_eq_iff (declared : type ∈ schema.types) (finite : ending ≠ .endless) :
    schema.chainEnd schema.types.length type = ending ↔
      ∃ last, ReflTransGen schema.BaseStep type last ∧ schema.stop? last = some ending := by
  constructor
  · intro ends
    exact exists_stop_of_chainEnd ends finite
  · rintro ⟨last, reaches, stops⟩
    exact chainEnd_of_reaches_stop reaches stops [] _ (.start declared) (by simp)

end ExpressLinks.Schema
