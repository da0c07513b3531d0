import ExpressLinks.Load
import ExpressLinks.Proofs.Corpus.Loading
import ExpressLinks.Proofs.Text.Pieces
import ExpressLinks.Resolution

/-!
# Which listed schemas a corpus holds

A corpus loaded for a manifest holds the schemas that the documents of the listed files
declare. The names in the manifest are compared with nothing, so a listed schema is in the
corpus exactly when one of the documents declares a schema of its name, and where none
does, a reference to it fails although it is listed.
-/

namespace ExpressLinks

namespace World

/-- What loading the document of an EXPRESS file gives. -/
def document (world : World) (extension path : String) : Corpus.Answer :=
  SchemaDocument.ofReading (SchemaDocument.pathFor extension path)
    (FileTree.textOf (world.read (SchemaDocument.pathFor extension path)))

/-- The document of a listed file declares a schema of that name. -/
def Declares (world : World) (extension : String) (manifest : Manifest) (name : String) : Prop :=
  ∃ path ∈ manifest.schemaPaths.map (·.2), ∃ schemas,
    world.document extension path = .ok schemas ∧ ∃ schema ∈ schemas, Ident.same schema.id name

end World

namespace Corpus

theorem AllLoad.mem_flatten_iff {answer : String → Answer} {paths : List String}
    {loaded : List (List Schema)} {schema : Schema} (all : AllLoad answer paths loaded) :
    schema ∈ loaded.flatten ↔
      ∃ path ∈ paths, ∃ schemas, answer path = .ok schemas ∧ schema ∈ schemas := by
  induction all with
  | nil => simp
  | @cons path schemas rest others loads _ ih =>
      rw [List.flatten_cons, List.mem_append, ih, List.exists_mem_cons_iff]
      constructor
      · rintro (own | later)
        · exact .inl ⟨schemas, loads, own⟩
        · exact .inr later
      · rintro (⟨schemas', loads', own⟩ | later)
        · rw [loads, Except.ok.injEq] at loads'
          exact .inl (loads' ▸ own)
        · exact .inr later

theorem AllLoad.exists_answer {answer : String → Answer} {paths : List String}
    {loaded : List (List Schema)} (all : AllLoad answer paths loaded) :
    ∀ path ∈ paths, ∃ schemas, answer path = .ok schemas := by
  induction all with
  | nil => simp
  | cons loads _ ih => exact List.forall_mem_cons.mpr ⟨⟨_, loads⟩, ih⟩

theorem steady_document (extension : String) :
    Steady (SchemaDocument.load extension : String → Simulation Answer)
      (fun world => world.document extension) (fun world _ => world) where
  answered _ _ := rfl
  kept _ _ := rfl

/-- A path of one name resolves exactly when the name leads to a schema. -/
theorem resolve_eq_resolved_iff_lookup? {corpus : Corpus} {name : String}
    (single : '.' ∉ name.toList) :
    corpus.resolve name = .resolved ↔ (corpus.lookup? name).isSome := by
  rw [resolve, pathSegments, Text.splitString_of_not_mem single, resolveSegments]
  cases corpus.lookup? name <;> simp

/-- A manifest's corpus is made of what the documents of all listed files declare. -/
theorem allLoad_of_loadManifest {extension : String} {manifest : Manifest} {world : World}
    {corpus : Corpus}
    (success : ((loadManifest extension manifest : Simulation _) world).1 = .ok corpus) :
    ∃ loaded, AllLoad (world.document extension) (manifest.schemaPaths.map (·.2)) loaded ∧
      ofSchemas loaded.flatten = .ok corpus :=
  (steady_document extension).allLoad_of_load success

/-- A name leads to a schema exactly when a listed file declares one of that name. -/
theorem lookup?_isSome_iff_declares {extension : String} {manifest : Manifest} {world : World}
    {corpus : Corpus}
    (success : ((loadManifest extension manifest : Simulation _) world).1 = .ok corpus)
    (name : String) :
    (corpus.lookup? name).isSome ↔ world.Declares extension manifest name := by
  obtain ⟨loaded, all, built⟩ := allLoad_of_loadManifest success
  obtain ⟨filed, held⟩ := ofSchemas_ok built
  simp only [Option.isSome_iff_exists, filed.lookup?_eq_some_iff, held, all.mem_flatten_iff]
  constructor
  · rintro ⟨schema, ⟨path, listed, schemas, loads, declared⟩, same⟩
    exact ⟨path, listed, schemas, loads, schema, declared, same⟩
  · rintro ⟨path, listed, schemas, loads, schema, declared, same⟩
    exact ⟨schema, ⟨path, listed, schemas, loads, declared⟩, same⟩

/-- When the corpus of a manifest is loaded, the document of every listed file has been
    read. The corpus holds all schemas that the manifest lists exactly when each of their
    names is that of a schema which some of these documents declare, and only a name of
    such a schema resolves by itself. -/
theorem loadManifest_holds_listed_iff {extension : String} {manifest : Manifest} {world : World}
    {corpus : Corpus}
    (success : ((loadManifest extension manifest : Simulation _) world).1 = .ok corpus) :
    (∀ path ∈ manifest.schemaPaths.map (·.2), ∃ schemas,
      world.document extension path = .ok schemas) ∧
    ((∀ entry ∈ manifest.entries, (corpus.lookup? entry.id).isSome) ↔
      ∀ entry ∈ manifest.entries, world.Declares extension manifest entry.id) ∧
    ∀ name, '.' ∉ name.toList →
      (corpus.resolve name = .resolved ↔ world.Declares extension manifest name) := by
  have leads := lookup?_isSome_iff_declares success
  obtain ⟨loaded, all, -⟩ := allLoad_of_loadManifest success
  refine ⟨all.exists_answer, ?_, ?_⟩
  · simp only [leads]
  · intro name single
    rw [resolve_eq_resolved_iff_lookup? single, leads]

/-- A schema may be declared beside another one that is listed, and in other letters. -/
theorem loadManifest_holds_listed_beside_another :
    let octets := Text.Utf8.encode
      "\x7b\"schemas\": [\x7b\"id\": \"PLANT\"\x7d, \x7b\"id\": \"Cell\"\x7d]\x7d".toList
    let world : World :=
      { tree := .directory [("plant.json", .file octets), ("cell.json", .file [0x5B, 0x5D])] }
    let manifest : Manifest := { entries := [⟨"plant", "plant.exp"⟩, ⟨"cell", "cell.exp"⟩] }
    let corpus : Corpus :=
      ⟨[("plant", { id := "PLANT" }), ("cell", { id := "Cell" })]⟩
    ((loadManifest "json" manifest : Simulation _) world).1 = .ok corpus ∧
      (∀ entry ∈ manifest.entries, world.Declares "json" manifest entry.id) ∧
      corpus.resolve "cell" = .resolved := by
  intro octets world manifest corpus
  have success : ((loadManifest "json" manifest : Simulation _) world).1 = .ok corpus := by
    decide +kernel
  obtain ⟨-, listed, alone⟩ := loadManifest_holds_listed_iff success
  have declared := listed.mp (by decide)
  have cell := declared ⟨"cell", "cell.exp"⟩ (by decide)
  exact ⟨success, declared, (alone "cell" (by decide)).mpr cell⟩

/-- The document of a listed schema declares a schema of another name: the corpus is
    loaded, and does not hold the listed one. -/
theorem loadManifest_misses_listed_schema :
    let octets := Text.Utf8.encode "\x7b\"schemas\": [\x7b\"id\": \"plants\"\x7d]\x7d".toList
    let world : World := { tree := .directory [("plant.json", .file octets)] }
    let manifest : Manifest := { entries := [⟨"plant", "plant.exp"⟩] }
    ∃ corpus, ((loadManifest "json" manifest : Simulation _) world).1 = .ok corpus ∧
      corpus.lookup? "plant" = none ∧
      corpus.resolve "plant" = .unresolved 0 (.schemaNotFound "plant") := by
  intro octets world manifest
  refine ⟨⟨[("plants", { id := "plants" })]⟩, ?_, by decide, by decide⟩
  decide +kernel

end Corpus

end ExpressLinks
