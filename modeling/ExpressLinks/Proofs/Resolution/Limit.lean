import ExpressLinks.Proofs.Resolution.Failing
import ExpressLinks.Proofs.Schema.Visits

/-!
# When a chain of base types is cut off

A path through a type is cut off exactly when the chain of base types that starts at
the type visits a declaration twice. Any other chain is followed to its end, however
many of the types it visits on the way.
-/

namespace ExpressLinks

open Relation

namespace Schema

variable {schema : Schema} {type : TypeDecl} {name path : String} {later : List String}

/-- A type to which a name refers among all declarations is the first type of the name. -/
theorem findType?_of_firstNamed
    (reached : FirstNamed Element.id name schema.elements (.type type)) :
    schema.findType? name = some type := by
  have found := find?_same_eq_some_iff.mpr reached
  -- only the collection of types yields a type
  simp [elements, List.find?_map, Option.map_eq_some_iff] at found
  exact found.2

theorem mem_types_of_findType? (found : schema.findType? name = some type) :
    type ∈ schema.types :=
  (findType?_eq_some_iff.mp found).mem

/-- Of the reasons for which a path fails below a type the limit is given for endless
    chains, and it is the number of types. -/
theorem memberFailsAt_redirectionLimit_iff {segment limit : Nat} {quoted : String} :
    schema.MemberFailsAt path name (.type type) later segment (.redirectionLimit quoted limit) ↔
      schema.EndsIn type .endless ∧ segment = 2 ∧ quoted = path ∧ limit = schema.types.length := by
  constructor
  · intro fails
    cases fails with
    | endless ends => exact ⟨ends, rfl, rfl, rfl⟩
  · rintro ⟨ends, rfl, rfl, rfl⟩
    exact .endless ends

/-- A chain ends in one way only, so one that goes in a circle does not stop. -/
theorem endsIn_endless_iff_not_stops (declared : type ∈ schema.types) :
    schema.EndsIn type .endless ↔
      ¬ ∃ last ending, ReflTransGen schema.BaseStep type last ∧ schema.StopsIn last ending := by
  have ends := (chainEnd_length_eq_iff_endsIn declared).mp rfl
  constructor
  · intro endless
    rintro ⟨last, ending, reaches, stops⟩
    have reported := (chainEnd_length_eq_iff_endsIn declared).mpr endless
    rw [(chainEnd_length_eq_iff_endsIn declared).mpr (.stop reaches stops)] at reported
    exact stops.ne_endless reported
  · intro stopless
    cases reported : schema.chainEnd schema.types.length type with
    | endless => exact reported ▸ ends
    | _ =>
        rw [reported] at ends
        cases ends with
        | stop reaches stops => exact absurd ⟨_, _, reaches, stops⟩ stopless

end Schema

namespace Corpus

/-- A path that goes on below a type is cut off exactly when the chain of base types from
    the type visits some declaration twice. It then fails at the third segment, and the
    limit it gives is the number of types. A chain that visits no declaration twice comes
    to an end, and a chain that comes to an end visits none twice, even where it visits
    all types of the schema. -/
theorem resolve_redirectionLimit_iff_visitsTwice {schemas : List Schema} {corpus : Corpus}
    {schema : Schema} {type : TypeDecl} {path schemaName typeName memberName : String}
    {later : List String} (built : Corpus.ofSchemas schemas = .ok corpus)
    (segments : pathSegments path = schemaName :: typeName :: memberName :: later)
    (held : schema ∈ schemas) (named : Ident.same schema.id schemaName) (given : typeName ≠ "")
    (reached : FirstNamed Element.id typeName schema.elements (.type type)) :
    ((∃ segment quoted limit,
        corpus.resolve path = .unresolved segment (.redirectionLimit quoted limit)) ↔
      schema.VisitsTwice typeName) ∧
    (∀ segment quoted limit,
      corpus.resolve path = .unresolved segment (.redirectionLimit quoted limit) →
      segment = 2 ∧ limit = schema.types.length) ∧
    (¬ schema.VisitsTwice typeName ↔
      ∃ last ending, ReflTransGen schema.BaseStep type last ∧ schema.StopsIn last ending) := by
  obtain ⟨wellFiled, rfl⟩ := ofSchemas_ok built
  have found := Schema.findType?_of_firstNamed reached
  have circle := Schema.visitsTwice_iff_endsIn_endless found
  have outcome : corpus.resolve path = schema.resolveMember (.type type)
      (Schema.extendPath schema.id type.id) (memberName :: later) := by
    rw [resolve, segments, resolveSegments, wellFiled.lookup?_eq_some_iff.mpr ⟨held, named⟩]
    simp only [Schema.referencedElement?_eq_some_iff.mpr ⟨given, reached⟩]
    rfl
  have cut (segment : Nat) (quoted : String) (limit : Nat) :
      corpus.resolve path = .unresolved segment (.redirectionLimit quoted limit) ↔
        schema.VisitsTwice typeName ∧ segment = 2 ∧
          quoted = Schema.extendPath schema.id type.id ∧ limit = schema.types.length := by
    rw [outcome, Schema.resolveMember_eq_unresolved_iff reached.mem,
      Schema.memberFailsAt_redirectionLimit_iff, circle]
  refine ⟨?_, ?_, ?_⟩
  · simp [cut]
  · intro segment quoted limit unresolved
    obtain ⟨-, third, -, number⟩ := (cut segment quoted limit).mp unresolved
    exact ⟨third, number⟩
  · rw [circle, Schema.endsIn_endless_iff_not_stops (Schema.mem_types_of_findType? found), not_not]

/-- Of two types of one name the first counts: with it the chain runs in a circle behind
    its first type. A chain through all three types that then leads nowhere is not
    cut off. -/
theorem resolve_redirectionLimit_behind_first_type :
    let circular : Schema :=
      { id := "Plant"
        types := [⟨"Mode", some "STATE", none⟩, ⟨"State", some "Level", none⟩,
          ⟨"LEVEL", some "state", some ["on"]⟩, ⟨"level", none, some ["on"]⟩] }
    let open_ended : Schema :=
      { id := "Plant"
        types := [⟨"Mode", some "STATE", none⟩, ⟨"State", some "Level", none⟩,
          ⟨"LEVEL", some "Rank", some ["on"]⟩] }
    ∃ corpus corpus', Corpus.ofSchemas [circular] = .ok corpus ∧
      Corpus.ofSchemas [open_ended] = .ok corpus' ∧ circular.VisitsTwice "mode" ∧
      corpus.resolve "plant.mode.on" = .unresolved 2 (.redirectionLimit "Plant.Mode" 4) ∧
      ¬ open_ended.VisitsTwice "mode" ∧
      corpus'.resolve "plant.mode.on" = .unresolved 2 (.baseTypeNotFound "Rank" "Plant.Mode") := by
  intro circular open_ended
  have built : Corpus.ofSchemas [circular] = .ok ⟨[(Ident.folded circular.id, circular)]⟩ := rfl
  have built' : Corpus.ofSchemas [open_ended] =
      .ok ⟨[(Ident.folded open_ended.id, open_ended)]⟩ := rfl
  have segments : pathSegments "plant.mode.on" = ["plant", "mode", "on"] := by decide
  have first : FirstNamed Element.id "mode" circular.elements
      (.type ⟨"Mode", some "STATE", none⟩) := Schema.findElement?_eq_some_iff.mp (by decide)
  have first' : FirstNamed Element.id "mode" open_ended.elements
      (.type ⟨"Mode", some "STATE", none⟩) := Schema.findElement?_eq_some_iff.mp (by decide)
  have cut : Corpus.resolve ⟨[(Ident.folded circular.id, circular)]⟩ "plant.mode.on" =
      .unresolved 2 (.redirectionLimit "Plant.Mode" 4) := by decide
  have open_fails : Corpus.resolve ⟨[(Ident.folded open_ended.id, open_ended)]⟩ "plant.mode.on" =
      .unresolved 2 (.baseTypeNotFound "Rank" "Plant.Mode") := by decide
  have limited := resolve_redirectionLimit_iff_visitsTwice built segments List.mem_cons_self
    (by decide) (by decide) first
  have followed := resolve_redirectionLimit_iff_visitsTwice built' segments List.mem_cons_self
    (by decide) (by decide) first'
  refine ⟨_, _, built, built', limited.1.mp ⟨_, _, _, cut⟩, cut, ?_, open_fails⟩
  intro twice
  obtain ⟨segment, quoted, limit, unresolved⟩ := followed.1.mpr twice
  rw [open_fails] at unresolved
  cases unresolved

end Corpus

end ExpressLinks
