import ExpressLinks.Proofs.Json.Records
import ExpressLinks.Proofs.Json.Writing
import ExpressLinks.Schema.Document

/-!
# How documents may show schemas

`PresentedBy` relates schemas to the JSON values that show them: objects with their members
in any order, with members of unknown names, without some of the empty collections, and
with an absent type, base type or list of enumeration values null or left out. Every text
that writes such a document is read as its schemas. Their own encoding is one of them.
-/

namespace ExpressLinks

open Json (RecordOf TextOf ListOf ListFieldOf OptionFieldOf)

section Presentations

/-- The value shows the attribute. -/
inductive Attribute.PresentedBy : Attribute → Json → Prop
  | intro {attr : Attribute} {typeName : Option Json} {json : Json} :
      OptionFieldOf TextOf attr.typeName typeName →
      RecordOf [("id", some (.text attr.id)), ("type", typeName)] json →
      Attribute.PresentedBy attr json

/-- The value shows the entity. -/
inductive Entity.PresentedBy : Entity → Json → Prop
  | intro {entity : Entity} {attributes subtypeOf : Option Json} {json : Json} :
      ListFieldOf Attribute.PresentedBy entity.attributes attributes →
      ListFieldOf TextOf entity.subtypeOf subtypeOf →
      RecordOf
        [("id", some (.text entity.id)), ("attributes", attributes), ("subtype_of", subtypeOf)]
        json →
      Entity.PresentedBy entity json

/-- The value shows the type. A list without enumeration values is shown as such. -/
inductive TypeDecl.PresentedBy : TypeDecl → Json → Prop
  | intro {type : TypeDecl} {baseType enumValues : Option Json} {json : Json} :
      OptionFieldOf TextOf type.baseType baseType →
      OptionFieldOf (ListOf TextOf) type.enumValues enumValues →
      RecordOf
        [("id", some (.text type.id)), ("base_type", baseType), ("enum_values", enumValues)]
        json →
      TypeDecl.PresentedBy type json

/-- The value shows the bare declaration. -/
inductive Declaration.PresentedBy : Declaration → Json → Prop
  | intro {declaration : Declaration} {json : Json} :
      RecordOf [("id", some (.text declaration.id))] json →
      Declaration.PresentedBy declaration json

/-- The value shows the schema. -/
inductive Schema.PresentedBy : Schema → Json → Prop
  | intro {schema : Schema} {json : Json}
      {entities types constants functions rules procedures subtypeConstraints : Option Json} :
      ListFieldOf Entity.PresentedBy schema.entities entities →
      ListFieldOf TypeDecl.PresentedBy schema.types types →
      ListFieldOf Declaration.PresentedBy schema.constants constants →
      ListFieldOf Declaration.PresentedBy schema.functions functions →
      ListFieldOf Declaration.PresentedBy schema.rules rules →
      ListFieldOf Declaration.PresentedBy schema.procedures procedures →
      ListFieldOf Declaration.PresentedBy schema.subtypeConstraints subtypeConstraints →
      RecordOf
        [("id", some (.text schema.id)), ("entities", entities), ("types", types),
          ("constants", constants), ("functions", functions), ("rules", rules),
          ("procedures", procedures), ("subtype_constraints", subtypeConstraints)] json →
      Schema.PresentedBy schema json

/-- The value is a document that shows the schemas. -/
inductive SchemaDocument.PresentedBy : List Schema → Json → Prop
  | intro {schemas : List Schema} {listed : Option Json} {json : Json} :
      ListFieldOf Schema.PresentedBy schemas listed → RecordOf [("schemas", listed)] json →
      SchemaDocument.PresentedBy schemas json

end Presentations

section Decoding

variable {json : Json}

theorem Attribute.ofJson?_of_presentedBy {attr : Attribute} (shown : attr.PresentedBy json) :
    ofJson? json = some attr := by
  obtain ⟨typeShown, record⟩ := shown
  obtain ⟨fields, read, hold⟩ := Json.fields?_of_recordOf ["id", "type"] record rfl (by decide)
  have id : fields.required "id" Json.asText? = some attr.id :=
    hold.required (by simp) (Json.asText?_text _)
  have typeName : fields.optional "type" Json.asText? = some attr.typeName :=
    hold.optional (by simp) rfl Json.asText?_of_textOf typeShown
  simp [ofJson?, read, id, typeName]

theorem Entity.ofJson?_of_presentedBy {entity : Entity} (shown : entity.PresentedBy json) :
    ofJson? json = some entity := by
  obtain ⟨attributesShown, subtypeOfShown, record⟩ := shown
  obtain ⟨fields, read, hold⟩ :=
    Json.fields?_of_recordOf ["id", "attributes", "subtype_of"] record rfl (by decide)
  have id : fields.required "id" Json.asText? = some entity.id :=
    hold.required (by simp) (Json.asText?_text _)
  have attributes :
      fields.withDefault "attributes" (Json.asList? Attribute.ofJson?) [] =
        some entity.attributes :=
    hold.withDefault (by simp) Attribute.ofJson?_of_presentedBy attributesShown
  have subtypeOf :
      fields.withDefault "subtype_of" (Json.asList? Json.asText?) [] = some entity.subtypeOf :=
    hold.withDefault (by simp) Json.asText?_of_textOf subtypeOfShown
  simp [ofJson?, read, id, attributes, subtypeOf]

theorem TypeDecl.ofJson?_of_presentedBy {type : TypeDecl} (shown : type.PresentedBy json) :
    ofJson? json = some type := by
  obtain ⟨baseTypeShown, enumValuesShown, record⟩ := shown
  obtain ⟨fields, read, hold⟩ :=
    Json.fields?_of_recordOf ["id", "base_type", "enum_values"] record rfl (by decide)
  have id : fields.required "id" Json.asText? = some type.id :=
    hold.required (by simp) (Json.asText?_text _)
  have baseType : fields.optional "base_type" Json.asText? = some type.baseType :=
    hold.optional (by simp) rfl Json.asText?_of_textOf baseTypeShown
  have enumValues :
      fields.optional "enum_values" (Json.asList? Json.asText?) = some type.enumValues :=
    hold.optional (by simp) rfl (Json.asList?_of_listOf Json.asText?_of_textOf) enumValuesShown
  simp [ofJson?, read, id, baseType, enumValues]

theorem Declaration.ofJson?_of_presentedBy {declaration : Declaration}
    (shown : declaration.PresentedBy json) : ofJson? json = some declaration := by
  obtain ⟨record⟩ := shown
  obtain ⟨fields, read, hold⟩ := Json.fields?_of_recordOf ["id"] record rfl (by decide)
  have id : fields.required "id" Json.asText? = some declaration.id :=
    hold.required (by simp) (Json.asText?_text _)
  simp [ofJson?, read, id]

theorem Schema.ofJson?_of_presentedBy {schema : Schema} (shown : schema.PresentedBy json) :
    ofJson? json = some schema := by
  obtain ⟨entitiesShown, typesShown, constantsShown, functionsShown, rulesShown,
    proceduresShown, subtypeConstraintsShown, record⟩ := shown
  obtain ⟨fields, read, hold⟩ := Json.fields?_of_recordOf fieldNames record rfl (by decide)
  have id : fields.required "id" Json.asText? = some schema.id :=
    hold.required (by simp) (Json.asText?_text _)
  have entities :
      fields.withDefault "entities" (Json.asList? Entity.ofJson?) [] = some schema.entities :=
    hold.withDefault (by simp) Entity.ofJson?_of_presentedBy entitiesShown
  have types : fields.withDefault "types" (Json.asList? TypeDecl.ofJson?) [] = some schema.types :=
    hold.withDefault (by simp) TypeDecl.ofJson?_of_presentedBy typesShown
  -- The other collections are all read in the same way.
  have declared (name : String) {declarations : List Declaration} {content : Option Json}
      (isSlot : (name, content) ∈ _)
      (shown : ListFieldOf Declaration.PresentedBy declarations content) :
      fields.withDefault name (Json.asList? Declaration.ofJson?) [] = some declarations :=
    hold.withDefault isSlot Declaration.ofJson?_of_presentedBy shown
  have constants := declared "constants" (by simp) constantsShown
  have functions := declared "functions" (by simp) functionsShown
  have rules := declared "rules" (by simp) rulesShown
  have procedures := declared "procedures" (by simp) proceduresShown
  have subtypeConstraints := declared "subtype_constraints" (by simp) subtypeConstraintsShown
  simp [ofJson?, read, id, entities, types, constants, functions, rules, procedures,
    subtypeConstraints]

theorem SchemaDocument.ofJson?_of_presentedBy {schemas : List Schema}
    (shown : SchemaDocument.PresentedBy schemas json) : ofJson? json = some schemas := by
  obtain ⟨schemasShown, record⟩ := shown
  obtain ⟨fields, read, hold⟩ := Json.fields?_of_recordOf ["schemas"] record rfl (by decide)
  have listed : fields.withDefault "schemas" (Json.asList? Schema.ofJson?) [] = some schemas :=
    hold.withDefault (by simp) Schema.ofJson?_of_presentedBy schemasShown
  simp [ofJson?, read, listed]

end Decoding

section OwnEncoding

theorem Attribute.presentedBy_toJson (attr : Attribute) : attr.PresentedBy attr.toJson := by
  refine .intro (Json.optionFieldOf_map fun word _ => .intro word) ?_
  obtain ⟨id, typeName⟩ := attr
  cases typeName <;> exact Json.recordOf_given _

theorem Entity.presentedBy_toJson (entity : Entity) : entity.PresentedBy entity.toJson :=
  .intro (.given (Json.listOf_ofList fun attr _ => attr.presentedBy_toJson))
    (.given (Json.listOf_ofList fun word _ => .intro word)) (Json.recordOf_given _)

theorem TypeDecl.presentedBy_toJson (type : TypeDecl) : type.PresentedBy type.toJson := by
  refine .intro (Json.optionFieldOf_map fun word _ => .intro word)
    (Json.optionFieldOf_map fun words _ => Json.listOf_ofList fun word _ => .intro word) ?_
  obtain ⟨id, baseType, enumValues⟩ := type
  cases baseType <;> cases enumValues <;> exact Json.recordOf_given _

theorem Declaration.presentedBy_toJson (declaration : Declaration) :
    declaration.PresentedBy declaration.toJson :=
  .intro (Json.recordOf_given _)

theorem Schema.presentedBy_toJson (schema : Schema) : schema.PresentedBy schema.toJson := by
  have declared (declarations : List Declaration) :
      ListFieldOf Declaration.PresentedBy declarations
        (some (Json.ofList Declaration.toJson declarations)) :=
    .given (Json.listOf_ofList fun declaration _ => declaration.presentedBy_toJson)
  exact .intro (.given (Json.listOf_ofList fun entity _ => entity.presentedBy_toJson))
    (.given (Json.listOf_ofList fun type _ => type.presentedBy_toJson)) (declared _) (declared _)
    (declared _) (declared _) (declared _) (Json.recordOf_given _)

theorem SchemaDocument.presentedBy_toJson (schemas : List Schema) :
    SchemaDocument.PresentedBy schemas (SchemaDocument.toJson schemas) :=
  .intro (.given (Json.listOf_ofList fun schema _ => schema.presentedBy_toJson))
    (Json.recordOf_given _)

theorem Attribute.writable_toJson (attr : Attribute) : attr.toJson.Writable := by
  obtain ⟨id, typeName⟩ := attr
  cases typeName <;> simp [toJson, Json.memberIfSome]

theorem TypeDecl.writable_toJson (type : TypeDecl) : type.toJson.Writable := by
  obtain ⟨id, baseType, enumValues⟩ := type
  cases baseType <;> cases enumValues <;> simp [toJson, Json.memberIfSome]

theorem SchemaDocument.writable_toJson (schemas : List Schema) :
    (SchemaDocument.toJson schemas).Writable := by
  simp [SchemaDocument.toJson, Schema.toJson, Entity.toJson, Declaration.toJson,
    Attribute.writable_toJson, TypeDecl.writable_toJson]

end OwnEncoding

namespace SchemaDocument

theorem parse?_of_writes {schemas : List Schema} {json : Json} {text : List Char}
    (shown : PresentedBy schemas json) (written : Json.Writes text json) :
    parse? text = some schemas := by
  rw [parse?, Json.read?_of_writes written]
  exact ofJson?_of_presentedBy shown

/-- A text that writes a document of the schemas, however it shows them, is read as the
    schemas, and so are both printed forms of their own encoding. -/
theorem parse?_eq_some_of_presentedBy (schemas : List Schema) :
    (∀ json text, PresentedBy schemas json → Json.Writes text json →
      parse? text = some schemas) ∧
    parse? (toJson schemas).pretty.toList = some schemas ∧
    parse? (toJson schemas).compact.toList = some schemas := by
  have own := presentedBy_toJson schemas
  have writable := writable_toJson schemas
  refine ⟨fun json text => parse?_of_writes, ?_, ?_⟩
  · exact parse?_of_writes own (Json.writes_pretty writable)
  · exact parse?_of_writes own (Json.writes_compact writable)

/-- Members in other orders and of unknown names, a base type that is null, enumeration
    values that are there but none, and collections that are left out. -/
theorem parse?_eq_some_of_presentedBy_swapped :
    let kind : TypeDecl := { id := "kind", enumValues := some [] }
    let document : Json :=
      .ofMembers
        [("exported", .atom (.number "-1.5e3")),
         ("schemas", .array
           [.ofMembers
             [("types", .array
                [.ofMembers
                  [("base_type", .null), ("id", .text "kind"), ("enum_values", .array []),
                   ("source", .array [.null, .ofMembers [("id", .bool true)]])]]),
              ("id", .text "s")]])]
    parse? document.compact.toList = some [{ id := "s", types := [kind] }] := by
  intro kind document
  have typeShown : kind.PresentedBy
      (.ofMembers
        [("base_type", .null), ("id", .text "kind"), ("enum_values", .array []),
         ("source", .array [.null, .ofMembers [("id", .bool true)]])]) :=
    .intro .null (.given (.intro .nil))
      (@RecordOf.intro _ _ [("source", .array [.null, .ofMembers [("id", .bool true)]])]
        (.swap _ _ _) (by simp))
  have schemaShown :=
    @Schema.PresentedBy.intro { id := "s", types := [kind] } _ _ _ _ _ _ _ _ .leftOut
      (.given (.intro (.cons typeShown .nil))) .leftOut .leftOut .leftOut .leftOut .leftOut
      (@RecordOf.intro _ _ [] (.swap _ _ _) (by simp))
  have shown : PresentedBy [_] document :=
    .intro (.given (.intro (.cons schemaShown .nil)))
      (@RecordOf.intro _ _ [("exported", .atom (.number "-1.5e3"))] (.swap _ _ _) (by simp))
  have written : Json.Writes document.compact.toList document := by
    have digit (c : Char) (isDigit : Text.isDigit c = true) : Json.Digits [c] :=
      ⟨by simp, by simpa using isDigit⟩
    have number : Json.NumberText "-1.5e3".toList :=
      @Json.NumberText.intro ['-'] ['1'] ['.', '5'] ['e', '3'] (.inr rfl)
        (.digits (digit '1' rfl) (by decide)) (.given (digit '5' rfl))
        (.plain (.inl rfl) (digit '3' rfl)) (by simp)
    apply Json.writes_compact
    simpa [document] using number
  exact (parse?_eq_some_of_presentedBy _).1 _ _ shown written

end SchemaDocument

end ExpressLinks
