import ExpressLinks.Proofs.Schema.BaseChain

/-!
# Where chains of base types end

`EndsIn` says, without a budget, what following the base types of a type comes to:
a type that has none, a keyword, a name that no type bears, or a circle. With one unit
for each type of the schema, `chainEnd` reports exactly this of a declared type.
-/

namespace ExpressLinks

namespace BuiltinType

/-- The text is the keyword of the simple type, blanks around it and letter case aside. -/
def SpelledBy (builtin : BuiltinType) (text : String) : Prop :=
  Ident.same (String.ofList (Text.trimBlank text.toList)) builtin.keyword

/-- No keyword belongs to two simple types. -/
theorem keyword_injective {builtin other : BuiltinType}
    (same : Ident.folded builtin.keyword = Ident.folded other.keyword) : builtin = other := by
  revert same
  cases builtin <;> cases other <;> decide

theorem SpelledBy.unique {builtin other : BuiltinType} {text : String}
    (spelled : builtin.SpelledBy text) (spelled' : other.SpelledBy text) : builtin = other := by
  unfold SpelledBy at spelled spelled'
  rw [Ident.same_iff_folded_eq] at spelled spelled'
  exact keyword_injective (spelled.symm.trans spelled')

theorem ofKeyword?_eq_none_iff {text : String} :
    ofKeyword? text = none ↔ ∀ builtin : BuiltinType, ¬ builtin.SpelledBy text := by
  have every (builtin : BuiltinType) : builtin ∈ all := by
    cases builtin <;> simp [all]
  simp [ofKeyword?, SpelledBy, every]

/-- The simple type read from a text is the one that the text spells. -/
theorem ofKeyword?_eq_some_iff {builtin : BuiltinType} {text : String} :
    ofKeyword? text = some builtin ↔ builtin.SpelledBy text := by
  have sound {found : BuiltinType} (read : ofKeyword? text = some found) :
      found.SpelledBy text := by
    have held := List.find?_some read
    exact held
  constructor
  · exact sound
  · intro spelled
    cases read : ofKeyword? text with
    | none => exact absurd spelled (ofKeyword?_eq_none_iff.mp read builtin)
    | some found => rw [(sound read).unique spelled]

end BuiltinType

namespace Schema

open Relation

/-- A chain comes to its end at a type that has no base type, or whose base type is
    a keyword or a name that no type bears. -/
inductive StopsIn (schema : Schema) (last : TypeDecl) : ChainEnd → Prop
  | enumeration {values : List String} :
      last.baseType = none → last.enumValues = some values → StopsIn schema last (.enumeration last)
  | bare : last.baseType = none → last.enumValues = none → StopsIn schema last .bare
  | builtin {builtin : BuiltinType} {text : String} :
      last.baseType = some text → builtin.SpelledBy text → StopsIn schema last (.builtin builtin)
  | undeclared {name : String} :
      last.baseType = some name → (∀ builtin : BuiltinType, ¬ builtin.SpelledBy name) →
      (∀ declared ∈ schema.types, ¬ Ident.same declared.id name) →
      StopsIn schema last (.undeclared name)

/-- What following the base types of a type comes to: the type where they stop, or a
    type to which they lead back. -/
inductive EndsIn (schema : Schema) (type : TypeDecl) : ChainEnd → Prop
  | stop {last : TypeDecl} {ending : ChainEnd} :
      ReflTransGen schema.BaseStep type last → schema.StopsIn last ending →
      EndsIn schema type ending
  | circle {again : TypeDecl} :
      ReflTransGen schema.BaseStep type again → TransGen schema.BaseStep again again →
      EndsIn schema type .endless

variable {schema : Schema} {type last again : TypeDecl} {ending : ChainEnd}

theorem base_eq_builtin_iff {builtin : BuiltinType} :
    type.base = .builtin builtin ↔
      ∃ text, type.baseType = some text ∧ builtin.SpelledBy text := by
  unfold TypeDecl.base
  simp only [← BuiltinType.ofKeyword?_eq_some_iff]
  cases type.baseType with
  | none => simp
  | some text => cases keyword : BuiltinType.ofKeyword? text <;> simp [keyword]

/-- The test for a stop finds the stops. -/
theorem stop?_eq_some_iff : schema.stop? last = some ending ↔ schema.StopsIn last ending := by
  constructor
  · intro stops
    unfold stop? at stops
    cases base : last.base with
    | absent =>
        have absent := base_eq_absent_iff.mp base
        cases listed : last.enumValues with
        | none =>
            obtain rfl : ChainEnd.bare = ending := by simpa [base, listed] using stops
            exact .bare absent listed
        | some values =>
            obtain rfl : ChainEnd.enumeration last = ending := by simpa [base, listed] using stops
            exact .enumeration absent listed
    | builtin builtin =>
        obtain rfl : ChainEnd.builtin builtin = ending := by simpa [base] using stops
        obtain ⟨text, written, spelled⟩ := base_eq_builtin_iff.mp base
        exact .builtin written spelled
    | named name =>
        obtain ⟨written, noKeyword⟩ := base_eq_named_iff.mp base
        cases found : schema.findType? name with
        | some target => simp [base, found] at stops
        | none =>
            obtain rfl : ChainEnd.undeclared name = ending := by simpa [base, found] using stops
            exact .undeclared written (BuiltinType.ofKeyword?_eq_none_iff.mp noKeyword)
              (findType?_eq_none_iff.mp found)
  · intro stops
    unfold stop?
    cases stops with
    | enumeration absent listed => simp [base_eq_absent_iff.mpr absent, listed]
    | bare absent listed => simp [base_eq_absent_iff.mpr absent, listed]
    | builtin written spelled => simp [base_eq_builtin_iff.mpr ⟨_, written, spelled⟩]
    | undeclared written noKeyword missing =>
        have named := base_eq_named_iff.mpr
          ⟨written, BuiltinType.ofKeyword?_eq_none_iff.mpr noKeyword⟩
        simp [named, findType?_eq_none_iff.mpr missing]

theorem StopsIn.ne_endless (stops : schema.StopsIn last ending) : ending ≠ .endless := by
  cases stops <;> simp

/-- A chain that leads back to a type never stops. -/
theorem not_stop_of_circle (reaches : ReflTransGen schema.BaseStep type again)
    (circle : TransGen schema.BaseStep again again)
    (ends : ReflTransGen schema.BaseStep type last) : schema.stop? last = none := by
  have unique : Relator.RightUnique schema.BaseStep := fun _ _ _ step step' => step.unique step'
  cases stops : schema.stop? last with
  | none => rfl
  | some ending =>
      exfalso
      rcases ReflTransGen.total_of_right_unique unique reaches ends with onward | back
      · exact not_transGen_self_of_stop onward stops circle
      · rcases ReflTransGen.cases_head back with rfl | ⟨target, step, -⟩
        · exact not_transGen_self_of_stop .refl stops circle
        · simp [step.stop?_eq_none] at stops

/-- A budget of one unit for each type runs out only on a circle. -/
theorem exists_circle_of_endless (left : List TypeDecl) (budget : Nat)
    (endless : schema.chainEnd budget type = .endless) (trail : schema.Trail left type)
    (enough : schema.types.length ≤ left.length + budget) :
    ∃ again, ReflTransGen schema.BaseStep type again ∧ TransGen schema.BaseStep again again := by
  -- With the budget gone there would be as many types left behind as the schema has, so
  -- before that a step leads to one of them, and from there back to itself.
  have fewer := trail.length_lt
  induction budget generalizing type left with
  | zero => omega
  | succ budget ih =>
      cases stops : schema.stop? type with
      | some ending =>
          rw [chainEnd_of_stop stops] at endless
          exact absurd endless (stop?_eq_some_iff.mp stops).ne_endless
      | none =>
          obtain ⟨target, step⟩ := stop?_eq_none_iff.mp stops
          rw [chainEnd_of_step step] at endless
          by_cases known : target ∈ type :: left
          · exact ⟨target, .single step, trail.reached step target known⟩
          · have onward := trail.step step known
            have enoughOn : schema.types.length ≤ (type :: left).length + budget := by
              simp only [List.length_cons]
              omega
            obtain ⟨again, reaches, circle⟩ :=
              ih (type :: left) endless onward enoughOn onward.length_lt
            exact ⟨again, .head step reaches, circle⟩

/-- With one unit for each type, `chainEnd` reports how a declared type ends. -/
theorem chainEnd_length_eq_iff_endsIn (declared : type ∈ schema.types) :
    schema.chainEnd schema.types.length type = ending ↔ schema.EndsIn type ending := by
  constructor
  · intro ends
    by_cases endless : ending = .endless
    · subst endless
      obtain ⟨again, reaches, circle⟩ :=
        exists_circle_of_endless [] _ ends (.start declared) (by simp)
      exact .circle reaches circle
    · obtain ⟨last, reaches, stops⟩ := (chainEnd_length_eq_iff declared endless).mp ends
      exact .stop reaches (stop?_eq_some_iff.mp stops)
  · intro ends
    cases ends with
    | stop reaches stops =>
        exact (chainEnd_length_eq_iff declared stops.ne_endless).mpr
          ⟨_, reaches, stop?_eq_some_iff.mpr stops⟩
    | circle reaches circle =>
        by_contra finite
        obtain ⟨last, ends, stops⟩ := exists_stop_of_chainEnd rfl finite
        simp [not_stop_of_circle reaches circle ends] at stops

end Schema

end ExpressLinks
