import ExpressLinks.Proofs.Resolution.LetterCase
import ExpressLinks.Proofs.Resolution.Prefixes
import ExpressLinks.Proofs.Resolution.Quoting

/-!
# The path that a reason quotes

Every reason but the first two quotes the beginning of the path, up to the segment at
fault: the schema and its element as they are declared, what comes behind them as it is
written. Base types leave no trace in it. What is quoted is another spelling of that
beginning and resolves.
-/

namespace ExpressLinks

namespace Reason

/-- The path that a reason quotes, if it quotes one. -/
def path? : Reason → Option String
  | schemaNotFound _ => none
  | elementNotFound _ _ => none
  | attributeNotFound _ path => some path
  | enumValueNotFound _ path => some path
  | baseTypeNotFound _ path => some path
  | builtinType _ path => some path
  | enumValueLeaf path => some path
  | notNavigable path => some path
  | redirectionLimit path _ => some path

/-- How many segments a reason quotes that is given at a segment: those before it, and the
    segment itself where it is a value with something behind it. -/
def quotedCount (segment : Nat) : Reason → Nat
  | enumValueLeaf _ => segment + 1
  | _ => segment

end Reason

/-- A text quotes segments when it joins the names of the schema and of the element to
    which the first two refer and, as they are, the segments behind these. -/
inductive Quotes (schemas : List Schema) : List String → String → Prop
  | intro {schema : Schema} {element : Element} {schemaName elementName : String}
      {members : List String} :
      schema ∈ schemas → Ident.same schema.id schemaName →
      FirstNamed Element.id elementName schema.elements element →
      Quotes schemas (schemaName :: elementName :: members)
        (Text.joinStrings '.' (schema.id :: element.id :: members))

theorem Ident.folded_joinStrings (pieces : List String) :
    folded (Text.joinStrings '.' pieces) = Text.joinStrings '.' (pieces.map folded) := by
  have letters : String.toList ∘ folded = List.map Char.toLower ∘ String.toList := by
    funext piece
    simp
  rw [folded, Text.joinStrings, Text.joinStrings, String.toList_ofList,
    Text.map_joinWith (by decide), List.map_map, List.map_map, letters]

/-- A quotation is another spelling of what it quotes. -/
theorem Quotes.same {schemas : List Schema} {segments : List String} {quoted : String}
    (quotes : Quotes schemas segments quoted) :
    Ident.same quoted (Text.joinStrings '.' segments) := by
  cases quotes with
  | intro held schemaSame first =>
      have elementSame := first.same
      rw [Ident.same_iff_folded_eq] at schemaSame elementSame ⊢
      simp only [Ident.folded_joinStrings, List.map_cons, schemaSame, elementSame]

namespace Schema

theorem extendPath_eq_joinStrings (first second : String) :
    extendPath first second = Text.joinStrings '.' [first, second] := by
  simp [extendPath, Text.joinStrings, Text.joinWith, Text.toString_string, String.append_assoc]

theorem extendPath_extendPath_eq_joinStrings (first second third : String) :
    extendPath (extendPath first second) third = Text.joinStrings '.' [first, second, third] := by
  simp [extendPath, Text.joinStrings, Text.joinWith, Text.toString_string, String.append_assoc]

/-- An enumeration in which the chain of a type ends gives the type its values. -/
theorem EndsIn.hasMember {schema : Schema} {type last : TypeDecl} {values : List String}
    {value name : String} (ends : schema.EndsIn type (.enumeration last))
    (listed : last.enumValues = some values) (member : value ∈ values)
    (same : Ident.same value name) : schema.HasMember (.type type) name := by
  cases ends with
  | stop reaches stops =>
      cases stops with
      | enumeration absent _ => exact .ofType reaches absent listed member same

/-- Below a declaration a reason quotes the path to it, or the path to a member with
    something behind it. -/
theorem MemberFailsAt.path?_eq {schema : Schema} {path name : String} {element : Element}
    {later : List String} {segment : Nat} {reason : Reason}
    (fails : schema.MemberFailsAt path name element later segment reason) :
    reason.path? = some path ∧ reason.quotedCount segment = 2 ∨
      reason.path? = some (extendPath path name) ∧ reason.quotedCount segment = 3 ∧
        schema.HasMember element name := by
  cases fails with
  | belowAttribute member same => exact .inr ⟨rfl, rfl, .ofEntity member same⟩
  | belowValue ends listed member same => exact .inr ⟨rfl, rfl, ends.hasMember listed member same⟩
  | _ => exact .inl ⟨rfl, rfl⟩

end Schema

/-- A reason quotes a beginning of the segments, and the beginning refers to something. -/
theorem FailsAt.quotes {schemas : List Schema} {segments : List String} {segment : Nat}
    {reason : Reason} {quoted : String} (fails : FailsAt schemas segments segment reason)
    (given : reason.path? = some quoted) :
    2 ≤ reason.quotedCount segment ∧
      Quotes schemas (segments.take (reason.quotedCount segment)) quoted ∧
      Refers schemas (segments.take (reason.quotedCount segment)) := by
  cases fails with
  | schema missing => simp [Reason.path?] at given
  | element held same missing => simp [Reason.path?] at given
  | @member schema element schemaName elementName memberName later _ _ held same nonempty first
      fails =>
      rcases fails.path?_eq with ⟨path, count⟩ | ⟨path, count, member⟩
      · rw [path, Option.some.injEq, Schema.extendPath_eq_joinStrings] at given
        rw [count, ← given]
        exact ⟨Nat.le_refl 2, .intro held same first,
          .element held same nonempty first.mem first.same⟩
      · rw [path, Option.some.injEq, Schema.extendPath_extendPath_eq_joinStrings] at given
        rw [count, ← given]
        exact ⟨by decide, .intro held same first, .member held same nonempty first member⟩

namespace Corpus

/-- Where a path fails for a reason that quotes a path, the quotation is the beginning of
    the path up to the segment at fault, with the schema and the element spelt as they are
    declared, and it resolves. The segment at fault is part of it where it is an
    enumeration value. -/
theorem resolve_quotes_resolving_path {schemas : List Schema} {corpus : Corpus}
    {path quoted : String} {segment : Nat} {reason : Reason}
    (built : Corpus.ofSchemas schemas = .ok corpus)
    (unresolved : corpus.resolve path = .unresolved segment reason)
    (given : reason.path? = some quoted) :
    Ident.same quoted
      (Text.joinStrings '.' ((pathSegments path).take (reason.quotedCount segment))) ∧
    Quotes schemas ((pathSegments path).take (reason.quotedCount segment)) quoted ∧
    corpus.resolve quoted = .resolved := by
  obtain ⟨wellFiled, rfl⟩ := ofSchemas_ok built
  have fails := wellFiled.resolveSegments_eq_unresolved_iff.mp unresolved
  obtain ⟨count, quotes, refers⟩ := fails.quotes given
  have beginning : corpus.resolve
      (Text.joinStrings '.' ((pathSegments path).take (reason.quotedCount segment))) =
        .resolved := by
    rw [resolve, pathSegments_joinStrings_take path (by omega)]
    exact (wellFiled.resolveSegments_eq_resolved_iff refers.ne_nil).mpr refers
  exact ⟨quotes.same, quotes, (resolve_eq_resolved_iff_of_same quotes.same).mpr beginning⟩

/-- Behind a value of a base type the value is quoted as well; at a value that is missing
    there, and behind an attribute, the quotation stops short of the segment at fault. -/
theorem resolve_quotes_resolving_path_of_members :
    let schema : Schema :=
      { id := "Plant", entities := [⟨"Item", [⟨"Label", none⟩], []⟩]
        types := [⟨"Mode", some "STATE", none⟩, ⟨"State", none, some ["ON"]⟩] }
    ∃ corpus, Corpus.ofSchemas [schema] = .ok corpus ∧
      corpus.resolve "plant.MODE.on.x" = .unresolved 2 (.enumValueLeaf "Plant.Mode.on") ∧
      corpus.resolve "Plant.Mode.on" = .resolved ∧
      corpus.resolve "plant.MODE.off" = .unresolved 2 (.enumValueNotFound "off" "Plant.Mode") ∧
      Ident.same "Plant.Mode"
        (Text.joinStrings '.' ((pathSegments "plant.MODE.off").take 2)) ∧
      corpus.resolve "PLANT.item.LABEL.x" = .unresolved 3 (.notNavigable "Plant.Item.LABEL") ∧
      Quotes [schema] ((pathSegments "PLANT.item.LABEL.x").take 3) "Plant.Item.LABEL" := by
  intro schema
  have built : Corpus.ofSchemas [schema] = .ok ⟨[(Ident.folded schema.id, schema)]⟩ := rfl
  have leaf : Corpus.resolve ⟨[(Ident.folded schema.id, schema)]⟩ "plant.MODE.on.x" =
      .unresolved 2 (.enumValueLeaf "Plant.Mode.on") := by decide
  have missing : Corpus.resolve ⟨[(Ident.folded schema.id, schema)]⟩ "plant.MODE.off" =
      .unresolved 2 (.enumValueNotFound "off" "Plant.Mode") := by decide
  have below : Corpus.resolve ⟨[(Ident.folded schema.id, schema)]⟩ "PLANT.item.LABEL.x" =
      .unresolved 3 (.notNavigable "Plant.Item.LABEL") := by decide
  exact ⟨_, built, leaf, (resolve_quotes_resolving_path built leaf rfl).2.2, missing,
    (resolve_quotes_resolving_path built missing rfl).1, below,
    (resolve_quotes_resolving_path built below rfl).2.1⟩

end Corpus

end ExpressLinks
