import ExpressLinks.Proofs.Corpus.Filing
import ExpressLinks.Proofs.Schema.Folding
import ExpressLinks.Proofs.Text.Pieces

/-!
# Letter case in resolutions

Resolving the folded path in the folded corpus gives the folded outcome. So corpora
that differ in letter case only, and paths that do, have outcomes that differ in
letter case only: the same segment, the same kind of reason with the same simple type
and limit, and names and quoted paths that are the same names.
-/

namespace ExpressLinks

/-- The reason with the names and the path in it folded. -/
def Reason.folded : Reason → Reason
  | schemaNotFound schema => schemaNotFound (Ident.folded schema)
  | elementNotFound element schema => elementNotFound (Ident.folded element) (Ident.folded schema)
  | attributeNotFound name path => attributeNotFound (Ident.folded name) (Ident.folded path)
  | enumValueNotFound value path => enumValueNotFound (Ident.folded value) (Ident.folded path)
  | baseTypeNotFound base path => baseTypeNotFound (Ident.folded base) (Ident.folded path)
  | builtinType simple path => builtinType simple (Ident.folded path)
  | enumValueLeaf path => enumValueLeaf (Ident.folded path)
  | notNavigable path => notNavigable (Ident.folded path)
  | redirectionLimit path limit => redirectionLimit (Ident.folded path) limit

/-- The outcome with the names and the path in its reason folded. -/
def Resolution.folded : Resolution → Resolution
  | resolved => resolved
  | unresolved segment reason => unresolved segment reason.folded

/-- The corpus with its schemas folded; they are filed as they were. -/
def Corpus.folded (corpus : Corpus) : Corpus :=
  ⟨corpus.entries.map fun entry => (entry.1, entry.2.folded)⟩

namespace Schema

theorem folded_extendPath (path name : String) :
    Ident.folded (extendPath path name) = extendPath (Ident.folded path) (Ident.folded name) := by
  have joined (first second : String) :
      (extendPath first second).toList = first.toList ++ '.' :: second.toList := by
    have text : extendPath first second = first ++ "." ++ second := rfl
    simp [text]
  have dot : Char.toLower '.' = '.' := rfl
  rw [← String.toList_inj, joined, Ident.toList_folded, joined, List.map_append, List.map_cons, dot,
    Ident.toList_folded, Ident.toList_folded]

theorem resolveMember_folded (schema : Schema) (element : Element) (path : String)
    (names : List String) :
    schema.folded.resolveMember element.folded (Ident.folded path) (names.map Ident.folded) =
      (schema.resolveMember element path names).folded := by
  cases names with
  | nil => rfl
  | cons name rest =>
      cases element with
      | entity entity =>
          simp only [List.map_cons, Element.folded, resolveMember, Entity.findAttribute?_folded]
          cases entity.findAttribute? name with
          | none => rfl
          | some declared =>
              cases rest with
              | nil => rfl
              | cons next later =>
                  simp [Resolution.folded, Reason.folded, folded_extendPath]
      | type type =>
          -- the budget is the number of types, which folding keeps
          have limit : schema.folded.types.length = schema.types.length := by simp [folded]
          simp only [List.map_cons, Element.folded, resolveMember, limit, chainEnd_folded]
          cases schema.chainEnd schema.types.length type with
          | builtin simple => rfl
          | endless => rfl
          | undeclared base => rfl
          | bare => rfl
          | enumeration last =>
              simp only [ChainEnd.folded, TypeDecl.findEnumValue?_folded]
              cases last.findEnumValue? name with
              | none => rfl
              | some value =>
                  cases rest with
                  | nil => rfl
                  | cons next later =>
                      simp [Resolution.folded, Reason.folded, folded_extendPath]
      | named kind declaration => rfl

end Schema

namespace Corpus

theorem lookup?_folded (corpus : Corpus) (name : String) :
    corpus.folded.lookup? (Ident.folded name) = (corpus.lookup? name).map Schema.folded := by
  obtain ⟨entries⟩ := corpus
  simp only [lookup?, folded, Ident.folded_folded]
  induction entries with
  | nil => rfl
  | cons entry rest ih =>
      rw [List.map_cons, List.lookup_cons, List.lookup_cons]
      split
      · rfl
      · exact ih

theorem resolveSegments_folded (corpus : Corpus) (segments : List String) :
    corpus.folded.resolveSegments (segments.map Ident.folded) =
      (corpus.resolveSegments segments).folded := by
  cases segments with
  | nil => rfl
  | cons schemaName rest =>
      rw [List.map_cons, resolveSegments, resolveSegments, lookup?_folded]
      cases corpus.lookup? schemaName with
      | none => rfl
      | some schema =>
          cases rest with
          | nil => rfl
          | cons elementName members =>
              simp only [Option.map_some, List.map_cons, Schema.referencedElement?_folded]
              cases schema.referencedElement? elementName with
              | none => rfl
              | some element =>
                  have quoted : Schema.extendPath schema.folded.id element.folded.id =
                      Ident.folded (Schema.extendPath schema.id element.id) := by
                    rw [Element.id_folded, Schema.folded_extendPath]
                    rfl
                  simp only [Option.map_some, quoted]
                  exact schema.resolveMember_folded element _ members

/-- The segments of the folded path are the folded segments of the path. -/
theorem pathSegments_folded (path : String) :
    pathSegments (Ident.folded path) = (pathSegments path).map Ident.folded := by
  have keeps (c : Char) : c.toLower = '.' ↔ c = '.' := Ident.toLower_eq_iff_of_lt (by decide)
  rw [pathSegments, pathSegments, Text.splitString, Text.splitString, Ident.toList_folded,
    Text.splitAt_map keeps, List.map_map, List.map_map]
  simp only [Function.comp_def, Ident.folded, String.toList_ofList]

/-- Folding the corpus and the path folds the outcome. -/
theorem resolve_folded (corpus : Corpus) (path : String) :
    corpus.folded.resolve (Ident.folded path) = (corpus.resolve path).folded := by
  rw [resolve, resolve, pathSegments_folded, resolveSegments_folded]

/-- Two spellings of a path resolve both or neither. -/
theorem resolve_eq_resolved_iff_of_same {corpus : Corpus} {path path' : String}
    (same : Ident.same path path') :
    corpus.resolve path = .resolved ↔ corpus.resolve path' = .resolved := by
  have resolved_iff (outcome : Resolution) : outcome = .resolved ↔ outcome.folded = .resolved := by
    cases outcome <;> simp [Resolution.folded]
  rw [resolved_iff, resolved_iff (corpus.resolve path'), ← resolve_folded, ← resolve_folded,
    (Ident.same_iff_folded_eq path path').mp same]

/-- The folded corpus is given by the folded schemas. -/
theorem WellFiled.folded_eq {corpus : Corpus} (h : corpus.WellFiled) :
    corpus.folded =
      ⟨(corpus.schemas.map Schema.folded).map fun schema => (schema.id, schema)⟩ := by
  rw [folded, schemas, List.map_map, List.map_map, Corpus.mk.injEq]
  apply List.map_congr_left
  intro entry member
  rw [h.filed entry member]
  rfl

/-- Letter case does not matter: in two corpora, built from schemas that are the same
    once folded, two paths that are the same once folded have outcomes that are the
    same once folded. -/
theorem resolve_ignores_letter_case {schemas schemas' : List Schema} {corpus corpus' : Corpus}
    {path path' : String} (built : Corpus.ofSchemas schemas = .ok corpus)
    (built' : Corpus.ofSchemas schemas' = .ok corpus')
    (sameSchemas : schemas.map Schema.folded = schemas'.map Schema.folded)
    (samePath : Ident.same path path') :
    (corpus.resolve path).folded = (corpus'.resolve path').folded := by
  obtain ⟨wellFiled, rfl⟩ := ofSchemas_ok built
  obtain ⟨wellFiled', rfl⟩ := ofSchemas_ok built'
  have sameCorpus : corpus.folded = corpus'.folded := by
    rw [wellFiled.folded_eq, wellFiled'.folded_eq, sameSchemas]
  calc
    (corpus.resolve path).folded = corpus.folded.resolve (Ident.folded path) :=
      (resolve_folded corpus path).symm
    _ = corpus'.folded.resolve (Ident.folded path') := by
      rw [sameCorpus, (Ident.same_iff_folded_eq path path').mp samePath]
    _ = (corpus'.resolve path').folded := resolve_folded corpus' path'

/-- A name, a base type among blanks and a value, each in other letters: the same value is
    missing from the same type, and the same keyword is met. -/
theorem resolve_ignores_letter_case_of_base_types :
    let upper : Schema :=
      { id := "PLANT"
        types := [⟨"MODE", some "STATE", none⟩, ⟨"STATE", none, some ["ON"]⟩,
          ⟨"NAME", some " STRING ", none⟩] }
    let mixed : Schema :=
      { id := "Plant"
        types := [⟨"mode", some "State", none⟩, ⟨"sTate", none, some ["on"]⟩,
          ⟨"Name", some " String ", none⟩] }
    ∃ corpus corpus', Corpus.ofSchemas [upper] = .ok corpus ∧
      Corpus.ofSchemas [mixed] = .ok corpus' ∧
      [upper].map Schema.folded = [mixed].map Schema.folded ∧
      Ident.same "plant.MODE.Off" "PLANT.mode.OFF" ∧
      corpus.resolve "plant.MODE.Off" = .unresolved 2 (.enumValueNotFound "Off" "PLANT.MODE") ∧
      (corpus.resolve "plant.MODE.Off").folded = (corpus'.resolve "PLANT.mode.OFF").folded ∧
      (corpus.resolve "plant.name.x").folded = (corpus'.resolve "PLANT.NAME.X").folded := by
  intro upper mixed
  have built : Corpus.ofSchemas [upper] = .ok ⟨[(Ident.folded upper.id, upper)]⟩ := rfl
  have built' : Corpus.ofSchemas [mixed] = .ok ⟨[(Ident.folded mixed.id, mixed)]⟩ := rfl
  have sameSchemas : [upper].map Schema.folded = [mixed].map Schema.folded := by
    decide +kernel
  refine ⟨_, _, built, built', sameSchemas, by decide, by decide +kernel, ?_, ?_⟩
  · exact resolve_ignores_letter_case built built' sameSchemas (by decide)
  · exact resolve_ignores_letter_case built built' sameSchemas (by decide)

end Corpus

end ExpressLinks
