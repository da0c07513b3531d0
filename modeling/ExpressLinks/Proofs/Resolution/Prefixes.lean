import ExpressLinks.Proofs.Resolution.Failing
import ExpressLinks.Proofs.Text.Pieces

/-!
# Longer and shorter paths

A situation in which a path fails does not depend on what follows the segment at
fault, so the failure stays when segments are added. What stands before that segment
refers to something, and so does every beginning of a path that refers to something.
-/

namespace ExpressLinks

theorem Refers.ne_nil {schemas : List Schema} {segments : List String}
    (refers : Refers schemas segments) : segments ≠ [] := by
  cases refers <;> simp

theorem Schema.MemberFailsAt.append {schema : Schema} {path name : String} {element : Element}
    {later : List String} {segment : Nat} {reason : Reason}
    (fails : schema.MemberFailsAt path name element later segment reason) (more : List String) :
    schema.MemberFailsAt path name element (later ++ more) segment reason := by
  cases fails with
  | noAttribute missing => exact .noAttribute missing
  | belowAttribute member same => exact .belowAttribute member same
  | builtin ends => exact .builtin ends
  | undeclared ends => exact .undeclared ends
  | noValue ends listed missing => exact .noValue ends listed missing
  | belowValue ends listed member same => exact .belowValue ends listed member same
  | bare ends => exact .bare ends
  | endless ends => exact .endless ends
  | named => exact .named

/-- Below a declaration a path fails at the member, or behind it if there is such a
    member. -/
theorem Schema.MemberFailsAt.segment_eq {schema : Schema} {path name : String}
    {element : Element} {later : List String} {segment : Nat} {reason : Reason}
    (fails : schema.MemberFailsAt path name element later segment reason) :
    segment = 2 ∨ segment = 3 ∧ schema.HasMember element name := by
  cases fails with
  | belowAttribute member same => exact .inr ⟨rfl, .ofEntity member same⟩
  | _ => exact .inl rfl

namespace FailsAt

variable {schemas : List Schema} {segments : List String} {segment : Nat} {reason : Reason}

/-- A failure does not depend on the segments added. -/
theorem append (fails : FailsAt schemas segments segment reason) (more : List String) :
    FailsAt schemas (segments ++ more) segment reason := by
  cases fails with
  | schema missing => exact .schema missing
  | element held same missing => exact .element held same missing
  | member held same nonempty first fails =>
      exact .member held same nonempty first (fails.append more)

/-- The segments before the one at fault refer to something. -/
theorem refers_take (fails : FailsAt schemas segments segment reason) (inside : 1 ≤ segment) :
    Refers schemas (segments.take segment) := by
  cases fails with
  | schema => exact absurd inside (by decide)
  | element held same => exact .schema held same
  | member held same nonempty first fails =>
      rcases fails.segment_eq with rfl | ⟨rfl, member⟩
      · exact .element held same nonempty first.mem first.same
      · exact .member held same nonempty first member

end FailsAt

namespace Corpus

variable {corpus : Corpus} {segments : List String}

theorem pathSegments_append (path more : String) :
    pathSegments (path ++ "." ++ more) = pathSegments path ++ pathSegments more := by
  have letters : (path ++ "." ++ more).toList = path.toList ++ '.' :: more.toList := by simp
  rw [pathSegments, pathSegments, pathSegments, Text.splitString, letters,
    Text.splitAt_append_cons, List.map_append]
  rfl

/-- The path made of the first segments of a path has these segments. -/
theorem pathSegments_joinStrings_take (path : String) {count : Nat} (some_taken : 1 ≤ count) :
    pathSegments (Text.joinStrings '.' ((pathSegments path).take count)) =
      (pathSegments path).take count := by
  have given := pathSegments_ne_nil path
  apply Text.splitString_joinStrings
  · intro nothing
    rcases List.take_eq_nil_iff.mp nothing with none_taken | empty
    · omega
    · exact given empty
  · intro piece member
    exact Text.not_mem_of_mem_splitString (List.mem_of_mem_take member)

/-- The beginning of segments that resolve resolves: it does not fail, as the failure
    would stay. -/
theorem WellFiled.resolveSegments_take (h : corpus.WellFiled)
    (resolved : corpus.resolveSegments segments = .resolved) (count : Nat) :
    corpus.resolveSegments (segments.take count) = .resolved := by
  cases outcome : corpus.resolveSegments (segments.take count) with
  | resolved => rfl
  | unresolved segment reason =>
      have stays := (h.resolveSegments_eq_unresolved_iff.mp outcome).append (segments.drop count)
      rw [List.take_append_drop, ← h.resolveSegments_eq_unresolved_iff, resolved] at stays
      cases stays

/-- A path that fails keeps its segment at fault and its reason whatever is added to it,
    and what stands before that segment resolves. Every beginning of a path that
    resolves does so too. -/
theorem resolve_longer_and_shorter {schemas : List Schema} {corpus : Corpus}
    (built : Corpus.ofSchemas schemas = .ok corpus) (path : String) :
    (∀ segment reason, corpus.resolve path = .unresolved segment reason →
      (∀ more : String, corpus.resolve (path ++ "." ++ more) = .unresolved segment reason) ∧
      (1 ≤ segment → corpus.resolve (Text.joinStrings '.' ((pathSegments path).take segment)) =
        .resolved)) ∧
    (corpus.resolve path = .resolved → ∀ count, 1 ≤ count →
      corpus.resolve (Text.joinStrings '.' ((pathSegments path).take count)) = .resolved) := by
  obtain ⟨wellFiled, -⟩ := ofSchemas_ok built
  refine ⟨?_, ?_⟩
  · intro segment reason unresolved
    have fails := wellFiled.resolveSegments_eq_unresolved_iff.mp unresolved
    refine ⟨?_, ?_⟩
    · intro more
      rw [resolve, pathSegments_append, wellFiled.resolveSegments_eq_unresolved_iff]
      exact fails.append (pathSegments more)
    · intro inside
      have refers := fails.refers_take inside
      rw [resolve, pathSegments_joinStrings_take path inside]
      exact (wellFiled.resolveSegments_eq_resolved_iff refers.ne_nil).mpr refers
  · intro resolved count some_taken
    rw [resolve, pathSegments_joinStrings_take path some_taken]
    exact wellFiled.resolveSegments_take resolved count

/-- Below a value and below an attribute: what is added changes nothing, and the path up
    to the segment at fault resolves. -/
theorem resolve_longer_and_shorter_below_members :
    let schema : Schema :=
      { id := "Plant", entities := [⟨"Item", [⟨"Label", none⟩], []⟩]
        types := [⟨"Mode", none, some ["ON"]⟩] }
    ∃ corpus, Corpus.ofSchemas [schema] = .ok corpus ∧
      corpus.resolve "plant.mode.on.x" = .unresolved 2 (.enumValueLeaf "Plant.Mode.on") ∧
      corpus.resolve ("plant.mode.on.x" ++ "." ++ "y..z") =
        .unresolved 2 (.enumValueLeaf "Plant.Mode.on") ∧
      corpus.resolve "plant.item.label.x" = .unresolved 3 (.notNavigable "Plant.Item.label") ∧
      corpus.resolve (Text.joinStrings '.' ((pathSegments "plant.item.label.x").take 3)) =
        .resolved ∧
      corpus.resolve "plant.mode.on" = .resolved ∧
      corpus.resolve (Text.joinStrings '.' ((pathSegments "plant.mode.on").take 2)) =
        .resolved := by
  intro schema
  have built : Corpus.ofSchemas [schema] = .ok ⟨[(Ident.folded schema.id, schema)]⟩ := rfl
  have leaf := resolve_longer_and_shorter built "plant.mode.on.x"
  have member := resolve_longer_and_shorter built "plant.item.label.x"
  have whole := resolve_longer_and_shorter built "plant.mode.on"
  refine ⟨_, built, by decide, (leaf.1 2 _ (by decide)).1 "y..z", by decide, ?_, by decide, ?_⟩
  · exact (member.1 3 (.notNavigable "Plant.Item.label") (by decide)).2 (by decide)
  · exact whole.2 (by decide) 2 (by decide)

end Corpus

end ExpressLinks
