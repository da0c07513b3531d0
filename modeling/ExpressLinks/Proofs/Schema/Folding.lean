import ExpressLinks.Proofs.Schema.Lookup
import ExpressLinks.Resolution

/-!
# Schemas in folded spelling

The folded form of a schema spells every name that a look-up compares, and every base
type, in small letters; two schemas differ in letter case only when their folded
forms are equal. Looking up the folded name in the folded schema finds the folded form
of what the name finds in the schema, and chains of base types end where they ended.
-/

namespace ExpressLinks

/-- The attribute with its own name folded. -/
def Attribute.folded (declared : Attribute) : Attribute :=
  { declared with id := Ident.folded declared.id }

/-- The entity with its own name and those of its attributes folded. -/
def Entity.folded (entity : Entity) : Entity :=
  { entity with
    id := Ident.folded entity.id
    attributes := entity.attributes.map Attribute.folded }

/-- The type with its name, its base type and its values folded. -/
def TypeDecl.folded (type : TypeDecl) : TypeDecl where
  id := Ident.folded type.id
  baseType := type.baseType.map Ident.folded
  enumValues := type.enumValues.map (List.map Ident.folded)

/-- The declaration with its name folded. -/
def Declaration.folded (declaration : Declaration) : Declaration := ⟨Ident.folded declaration.id⟩

/-- The schema with its name and all its declarations folded. -/
def Schema.folded (schema : Schema) : Schema where
  id := Ident.folded schema.id
  entities := schema.entities.map Entity.folded
  types := schema.types.map TypeDecl.folded
  constants := schema.constants.map Declaration.folded
  functions := schema.functions.map Declaration.folded
  rules := schema.rules.map Declaration.folded
  procedures := schema.procedures.map Declaration.folded
  subtypeConstraints := schema.subtypeConstraints.map Declaration.folded

/-- The declaration folded, of the kind it was. -/
def Element.folded : Element → Element
  | entity e => entity e.folded
  | type t => type t.folded
  | named kind declaration => named kind declaration.folded

/-- The reference with the name in it folded. -/
def BaseReference.folded : BaseReference → BaseReference
  | absent => absent
  | builtin simple => builtin simple
  | named name => named (Ident.folded name)

/-- The end with the type or the name in it folded. -/
def ChainEnd.folded : ChainEnd → ChainEnd
  | enumeration type => enumeration type.folded
  | bare => bare
  | builtin simple => builtin simple
  | undeclared name => undeclared (Ident.folded name)
  | endless => endless

namespace Text

theorem isBlank_toLower (c : Char) : isBlank c.toLower = isBlank c := by
  rcases Ident.toLower_eq_self_or_capital c with same | ⟨above, below, moved⟩
  · rw [same]
  · simp only [isBlank, blankRanges, moved, List.any_cons, List.any_nil, Bool.or_false]
    grind

/-- Blanks are no letters, so they are the same in the folded spelling. -/
theorem trimBlank_map_toLower (text : List Char) :
    trimBlank (text.map Char.toLower) = (trimBlank text).map Char.toLower := by
  have unmoved : isBlank ∘ Char.toLower = isBlank := funext isBlank_toLower
  simp only [trimBlank, List.dropWhile_map, unmoved, ← List.map_reverse]

end Text

/-- A text spells the same simple type in its folded spelling. -/
theorem BuiltinType.ofKeyword?_folded (text : String) :
    ofKeyword? (Ident.folded text) = ofKeyword? text := by
  have word : String.ofList (Text.trimBlank (Ident.folded text).toList) =
      Ident.folded (String.ofList (Text.trimBlank text.toList)) := by
    rw [Ident.toList_folded, Text.trimBlank_map_toLower, Ident.folded, String.toList_ofList]
  have same (keyword : String) :
      Ident.same (String.ofList (Text.trimBlank (Ident.folded text).toList)) keyword =
        Ident.same (String.ofList (Text.trimBlank text.toList)) keyword := by
    rw [word, Bool.eq_iff_iff, Ident.same_iff_folded_eq, Ident.same_iff_folded_eq,
      Ident.folded_folded]
  simp only [ofKeyword?, same]

theorem Entity.findAttribute?_folded (entity : Entity) (name : String) :
    entity.folded.findAttribute? (Ident.folded name) =
      (entity.findAttribute? name).map Attribute.folded :=
  find?_same_map_folded Attribute.id Attribute.folded (fun _ => rfl) entity.attributes name

namespace TypeDecl

theorem findEnumValue?_folded (type : TypeDecl) (name : String) :
    type.folded.findEnumValue? (Ident.folded name) =
      (type.findEnumValue? name).map Ident.folded := by
  unfold findEnumValue?
  cases listed : type.enumValues with
  | none => simp [folded, listed]
  | some values =>
      simp only [folded, listed, Option.map_some, Option.getD_some]
      exact find?_same_map_folded (fun value => value) Ident.folded (fun _ => rfl) values name

theorem base_folded (type : TypeDecl) : type.folded.base = type.base.folded := by
  unfold base
  cases written : type.baseType with
  | none => simp [folded, written, BaseReference.folded]
  | some text =>
      simp only [folded, written, Option.map_some, BuiltinType.ofKeyword?_folded]
      cases BuiltinType.ofKeyword? text <;> rfl

/-- A type without a base type ends a chain as it does in folded spelling. -/
theorem stop_folded (type : TypeDecl) :
    (if type.folded.enumValues.isSome then ChainEnd.enumeration type.folded else .bare) =
      ChainEnd.folded (if type.enumValues.isSome then .enumeration type else .bare) := by
  have listed : type.folded.enumValues.isSome = type.enumValues.isSome := by simp [folded]
  rw [listed]
  split <;> rfl

end TypeDecl

theorem Element.id_folded (element : Element) : element.folded.id = Ident.folded element.id := by
  cases element <;> rfl

namespace Schema

variable (schema : Schema)

theorem elements_folded : schema.folded.elements = schema.elements.map Element.folded := by
  simp [elements, folded, List.map_map, Function.comp_def, Element.folded]

theorem findType?_folded (name : String) :
    schema.folded.findType? (Ident.folded name) = (schema.findType? name).map TypeDecl.folded :=
  find?_same_map_folded TypeDecl.id TypeDecl.folded (fun _ => rfl) schema.types name

theorem referencedElement?_folded (name : String) :
    schema.folded.referencedElement? (Ident.folded name) =
      (schema.referencedElement? name).map Element.folded := by
  unfold referencedElement?
  by_cases empty : name = ""
  · simp [empty, Ident.folded]
  · rw [if_neg (mt Ident.folded_eq_empty_iff.mp empty), if_neg empty,
      findElement?_eq_find?_elements, findElement?_eq_find?_elements, elements_folded]
    exact find?_same_map_folded Element.id Element.folded Element.id_folded schema.elements name

/-- Letter case does not change where a chain of base types ends. -/
theorem chainEnd_folded (budget : Nat) (type : TypeDecl) :
    schema.folded.chainEnd budget type.folded = (schema.chainEnd budget type).folded := by
  induction budget generalizing type with
  | zero =>
      rw [chainEnd, chainEnd, TypeDecl.base_folded]
      cases type.base with
      | absent => exact type.stop_folded
      | builtin simple => rfl
      | named name => rfl
  | succ budget ih =>
      rw [chainEnd, chainEnd, TypeDecl.base_folded]
      cases type.base with
      | absent => exact type.stop_folded
      | builtin simple => rfl
      | named name =>
          simp only [BaseReference.folded, findType?_folded]
          cases schema.findType? name with
          | none => rfl
          | some target => exact ih target

end Schema

end ExpressLinks
