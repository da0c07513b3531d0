import ExpressLinks.Manifest
import Mathlib.Data.List.Forall2

/-!
# The entries of a manifest

A key and a value list a schema when the key is text and the value is an entry with a path.
An entry is null or a mapping with names for keys; its path is the text under `path`, and
it has none where nothing or null stands there. The manifest has the entries as listed when
all are good. Otherwise the first bad one decides the error: a key that is no text comes
before anything that may be wrong with its value, and what stands behind does not count.
-/

namespace ExpressLinks.Manifest

open Yaml

/-- All keys are names, tags aside, and `named` are the values under them. -/
def Named (entries : List (Value × Value)) (named : List (String × Value)) : Prop :=
  List.Forall₂ (fun entry pair => entry.1.untagged = .text pair.1 ∧ entry.2 = pair.2)
    entries named

/-- A value is a text, tags aside, or null, which stands for no text. -/
inductive IsOptionalText : Value → Option String → Prop
  | null : IsOptionalText .null none
  | text {value : Value} {content : String} : value.untagged = .text content →
      IsOptionalText value (some content)

/-- The path that named values give: nothing stands under `path`, or one value does. -/
inductive GivesPath : List (String × Value) → Option String → Prop
  | absent {named : List (String × Value)} :
      (∀ pair ∈ named, pair.1 ≠ "path") → GivesPath named none
  | present {before after : List (String × Value)} {value : Value} {path : Option String} :
      (∀ pair ∈ before, pair.1 ≠ "path") → (∀ pair ∈ after, pair.1 ≠ "path") →
      IsOptionalText value path → GivesPath (before ++ ("path", value) :: after) path

/-- A value is an entry, with a path or without one. -/
inductive IsEntry : Value → Option String → Prop
  | null {value : Value} : value.untagged = .null → IsEntry value none
  | mapping {value : Value} {entries : List (Value × Value)} {named : List (String × Value)}
      {path : Option String} :
      value.untagged = .mapping entries → Named entries named → GivesPath named path →
      IsEntry value path

/-- A key and a value list a schema. -/
def ListedAs (entry : Value × Value) (decoded : ManifestEntry) : Prop :=
  entry.1 = .text decoded.id ∧ IsEntry entry.2 (some decoded.path)

/-- What is wrong with a key and a value that list no schema. -/
inductive RefusedWith : Value × Value → ManifestError → Prop
  | name {key value : Value} : (∀ id, key ≠ .text id) →
      RefusedWith (key, value) (.malformed (.name key))
  | entry {id : String} {value : Value} : (∀ path, ¬ IsEntry value path) →
      RefusedWith (.text id, value) (.malformed (.entry id))
  | path {id : String} {value : Value} : IsEntry value none →
      RefusedWith (.text id, value) (.missingPath id)

/-- What is said about a key and a value that list no schema. -/
inductive Told : Value × Value → String → Prop
  | name {key value : Value} : (∀ id, key ≠ .text id) →
      Told (key, value)
        ("Failed to parse schema manifest YAML: " ++
          ("schema id must be a string, got " ++ key.describe))
  | entry {id : String} {value : Value} (detail : String) : (∀ path, ¬ IsEntry value path) →
      Told (.text id, value)
        ("Failed to parse schema manifest YAML: " ++ ("schema '" ++ id ++ "': " ++ detail))
  | path {id : String} {value : Value} : IsEntry value none →
      Told (.text id, value) s!"Schema '{id}' has no path in the manifest"

/-- All that stand in `before` list schemas, and `bad`, which comes next, does not. -/
structure FirstRefused (listed before : List (Value × Value)) (bad : Value × Value)
    (error : ManifestError) : Prop where
  listed_eq : ∃ after, listed = before ++ bad :: after
  earlier : ∀ entry ∈ before, ∃ decoded, ListedAs entry decoded
  refused : RefusedWith bad error

variable {entries listed : List (Value × Value)} {named : List (String × Value)}
  {value : Value} {path : Option String}

section Names

variable {key : Value} {rest : List (Value × Value)}

theorem named?_cons_of_text {name : String} (spelled : key.untagged = .text name) :
    named? ((key, value) :: rest) = (named? rest).map ((name, value) :: ·) := by
  rw [named?, List.mapM_cons]
  simp only [spelled]
  change (named? rest).bind (fun others => some ((name, value) :: others)) = _
  cases named? rest <;> rfl

theorem named?_cons_of_ne_text (other : ∀ name, key.untagged ≠ .text name) :
    named? ((key, value) :: rest) = none := by
  rw [named?, List.mapM_cons]
  split
  next name spelled => exact absurd spelled (other name)
  next => rfl

end Names

/-- The names and values of a mapping are found exactly when all its keys are names. -/
theorem named?_eq_some_iff : named? entries = some named ↔ Named entries named := by
  induction entries generalizing named with
  | nil => cases named <;> simp [named?, Named]
  | cons entry rest ih =>
      obtain ⟨key, value⟩ := entry
      by_cases text : ∃ name, key.untagged = .text name
      · obtain ⟨name, spelled⟩ := text
        rw [named?_cons_of_text spelled, Option.map_eq_some_iff]
        constructor
        · rintro ⟨others, found, rfl⟩
          exact .cons ⟨spelled, rfl⟩ (ih.mp found)
        · intro names
          cases names with
          | @cons _ pair _ others first later =>
              obtain ⟨sameName, sameValue⟩ := first
              have name_eq : name = pair.1 := by
                rw [spelled] at sameName
                exact Value.text.inj sameName
              exact ⟨others, ih.mpr later, congrArg (· :: others) (Prod.ext name_eq sameValue)⟩
      · have other : ∀ name, key.untagged ≠ .text name := fun name spelled => text ⟨name, spelled⟩
        rw [named?_cons_of_ne_text other]
        constructor
        · nofun
        · intro names
          cases names with
          | cons first _ => exact absurd first.1 (other _)

/-- What stands under a name is found in the order of the mapping. -/
theorem valuesOf?_eq_some_iff {name : String} {values : List Value} :
    valuesOf? name entries = some values ↔
      ∃ named, Named entries named ∧ (named.filter (·.1 == name)).map (·.2) = values := by
  simp only [valuesOf?, Option.map_eq_some_iff, named?_eq_some_iff]

theorem filter_path_eq_nil_iff :
    (named.filter (·.1 == "path")).map (·.2) = [] ↔ ∀ pair ∈ named, pair.1 ≠ "path" := by
  simp [List.filter_eq_nil_iff]

theorem filter_path_eq_singleton_iff :
    (named.filter (·.1 == "path")).map (·.2) = [value] ↔
      ∃ before after, named = before ++ ("path", value) :: after ∧
        (∀ pair ∈ before, pair.1 ≠ "path") ∧ ∀ pair ∈ after, pair.1 ≠ "path" := by
  constructor
  · intro single
    obtain ⟨pair, kept, rfl⟩ := List.map_eq_singleton_iff.mp single
    obtain ⟨before, after, rfl, earlier, named_eq, later⟩ := List.filter_eq_cons_iff.mp kept
    have path_eq : pair.1 = "path" := by simpa using named_eq
    refine ⟨before, after, by rw [← path_eq], by simpa using earlier, ?_⟩
    simpa [List.filter_eq_nil_iff] using later
  · rintro ⟨before, after, rfl, earlier, later⟩
    have noneBefore : before.filter (·.1 == "path") = [] := by
      simpa [List.filter_eq_nil_iff] using earlier
    have noneAfter : after.filter (·.1 == "path") = [] := by
      simpa [List.filter_eq_nil_iff] using later
    simp [List.filter_append, noneBefore, noneAfter]

/-- The path of an entry is read as the entry has it. -/
theorem IsEntry.entryPath_eq (isEntry : IsEntry value path) (id : String) :
    entryPath id value = path.elim (.error (.missingPath id)) .ok := by
  cases isEntry with
  | null untagged => simp [entryPath, untagged]
  | @mapping entries named path untagged names gives =>
      have found (values : List Value) (kept : (named.filter (·.1 == "path")).map (·.2) = values) :
          valuesOf? "path" entries = some values :=
        valuesOf?_eq_some_iff.mpr ⟨named, names, kept⟩
      cases gives with
      | absent without =>
          simp [entryPath, untagged, found [] (filter_path_eq_nil_iff.mpr without)]
      | @present before after given path earlier later isText =>
          have only := found [given]
            (filter_path_eq_singleton_iff.mpr ⟨before, after, rfl, earlier, later⟩)
          cases isText with
          | null => simp [entryPath, untagged, only]
          | @text _ content text =>
              have notNull : given ≠ .null := by
                rintro rfl
                cases text
              simp [entryPath, untagged, only, text]

/-- What is no entry is refused as such. -/
theorem exists_isEntry_or_entryPath_eq (id : String) (value : Value) :
    (∃ path, IsEntry value path) ∨ entryPath id value = .error (.malformed (.entry id)) := by
  cases untagged : value.untagged with
  | null => exact .inl ⟨none, .null untagged⟩
  | mapping entries =>
      cases found : valuesOf? "path" entries with
      | none => exact .inr (by simp [entryPath, untagged, found])
      | some values =>
          obtain ⟨named, names, kept⟩ := valuesOf?_eq_some_iff.mp found
          match values with
          | [] =>
              have without := filter_path_eq_nil_iff.mp kept
              exact .inl ⟨none, .mapping untagged names (.absent without)⟩
          | [given] =>
              obtain ⟨before, after, rfl, earlier, later⟩ := filter_path_eq_singleton_iff.mp kept
              by_cases isText : ∃ path, IsOptionalText given path
              · obtain ⟨path, isText⟩ := isText
                exact .inl ⟨path, .mapping untagged names (.present earlier later isText)⟩
              · have notNull : given ≠ .null := by
                  rintro rfl
                  exact isText ⟨none, .null⟩
                have notText (content : String) : given.untagged ≠ .text content :=
                  fun text => isText ⟨some content, .text text⟩
                -- the two facts rule out the arms in which the value gives a path or none
                exact .inr (by simp [entryPath, untagged, found])
          | _ :: _ :: _ => exact .inr (by simp [entryPath, untagged, found])
  | bool _ | int _ | float _ | text _ | sequence _ | tagged _ _ =>
      exact .inr (by simp [entryPath, untagged])

variable {entry : Value × Value} {decoded : ManifestEntry} {error : ManifestError}

theorem ListedAs.decodeEntry_eq (lists : ListedAs entry decoded) :
    decodeEntry entry = .ok decoded := by
  obtain ⟨key, value⟩ := entry
  obtain ⟨rfl, isEntry⟩ := lists
  simp [decodeEntry, isEntry.entryPath_eq]

theorem RefusedWith.decodeEntry_eq (refused : RefusedWith entry error) :
    decodeEntry entry = .error error := by
  cases refused with
  | @name key value notText =>
      cases key with
      | text id => exact absurd rfl (notText id)
      | null | bool _ | int _ | float _ | sequence _ | mapping _ | tagged _ _ => rfl
  | @entry id value noEntry =>
      have malformed := (exists_isEntry_or_entryPath_eq id value).resolve_left
        fun ⟨given, isEntry⟩ => noEntry given isEntry
      simp [decodeEntry, malformed]
  | path without => simp [decodeEntry, without.entryPath_eq]

/-- A key and a value list a schema, or something is wrong with them. -/
theorem listedAs_or_refusedWith (entry : Value × Value) :
    (∃ decoded, ListedAs entry decoded) ∨ ∃ error, RefusedWith entry error := by
  obtain ⟨key, value⟩ := entry
  by_cases isText : ∃ id, key = .text id
  · obtain ⟨id, rfl⟩ := isText
    by_cases isEntry : ∃ path, IsEntry value path
    · obtain ⟨path, isEntry⟩ := isEntry
      cases path with
      | none => exact .inr ⟨.missingPath id, .path isEntry⟩
      | some path => exact .inl ⟨⟨id, path⟩, rfl, isEntry⟩
    · exact .inr ⟨.malformed (.entry id), .entry (not_exists.mp isEntry)⟩
  · exact .inr ⟨.malformed (.name key), .name (not_exists.mp isText)⟩

section Run

variable {rest before : List (Value × Value)} {bad : Value × Value}

theorem decodeEntries_cons_of_listedAs (lists : ListedAs entry decoded) :
    decodeEntries (entry :: rest) = (decodeEntries rest).map (decoded :: ·) := by
  rw [decodeEntries, lists.decodeEntry_eq]
  cases decodeEntries rest <;> rfl

theorem decodeEntries_cons_of_refusedWith (refused : RefusedWith entry error) :
    decodeEntries (entry :: rest) = .error error := by
  rw [decodeEntries, refused.decodeEntry_eq]

/-- If all entries list schemas, these are the outcome, in order. -/
theorem decodeEntries_of_forall₂ {decoded : List ManifestEntry}
    (all : List.Forall₂ ListedAs listed decoded) : decodeEntries listed = .ok decoded := by
  induction all with
  | nil => rfl
  | cons lists _ ih => rw [decodeEntries_cons_of_listedAs lists, ih]; rfl

/-- The first entry that lists no schema decides the error. -/
theorem FirstRefused.decodeEntries_eq (first : FirstRefused listed before bad error) :
    decodeEntries listed = .error error := by
  obtain ⟨⟨after, rfl⟩, earlier, refused⟩ := first
  induction before with
  | nil => exact decodeEntries_cons_of_refusedWith refused
  | cons entry others ih =>
      obtain ⟨decoded, lists⟩ := earlier entry List.mem_cons_self
      have later := ih fun entry isOther => earlier entry (List.mem_cons_of_mem _ isOther)
      rw [List.cons_append, decodeEntries_cons_of_listedAs lists, later]
      rfl

/-- All entries list schemas, or one of them is the first that does not. -/
theorem forall₂_or_firstRefused (listed : List (Value × Value)) :
    (∃ decoded, List.Forall₂ ListedAs listed decoded) ∨
      ∃ before bad error, FirstRefused listed before bad error := by
  induction listed with
  | nil => exact .inl ⟨[], .nil⟩
  | cons entry rest ih =>
      rcases listedAs_or_refusedWith entry with ⟨decoded, lists⟩ | ⟨error, refused⟩
      · rcases ih with ⟨others, all⟩ | ⟨before, bad, error, ⟨after, rfl⟩, earlier, refused⟩
        · exact .inl ⟨decoded :: others, .cons lists all⟩
        · have earlier' : ∀ other ∈ entry :: before, ∃ decoded, ListedAs other decoded :=
            List.forall_mem_cons.mpr ⟨⟨decoded, lists⟩, earlier⟩
          exact .inr ⟨entry :: before, bad, error, ⟨after, rfl⟩, earlier', refused⟩
      · exact .inr ⟨[], entry, error, ⟨rest, rfl⟩, nofun, refused⟩

theorem decodeEntries_eq_ok_iff {decoded : List ManifestEntry} :
    decodeEntries listed = .ok decoded ↔ List.Forall₂ ListedAs listed decoded := by
  refine ⟨fun success => ?_, decodeEntries_of_forall₂⟩
  rcases forall₂_or_firstRefused listed with ⟨others, all⟩ | ⟨before, bad, error, first⟩
  · cases success.symm.trans (decodeEntries_of_forall₂ all)
    exact all
  · cases success.symm.trans first.decodeEntries_eq

theorem decodeEntries_eq_error_iff :
    decodeEntries listed = .error error ↔ ∃ before bad, FirstRefused listed before bad error := by
  refine ⟨fun failure => ?_, fun ⟨_, _, first⟩ => first.decodeEntries_eq⟩
  rcases forall₂_or_firstRefused listed with ⟨others, all⟩ | ⟨before, bad, cause, first⟩
  · cases failure.symm.trans (decodeEntries_of_forall₂ all)
  · cases failure.symm.trans first.decodeEntries_eq
    exact ⟨before, bad, first⟩

end Run

theorem RefusedWith.told {bad : Value × Value} (refused : RefusedWith bad error) :
    Told bad error.message := by
  cases refused with
  | @name key value notText => exact .name notText
  | @entry id value noEntry =>
      have spelled : "': " ++ "no entry with a path" = "': no entry with a path" := by decide
      have joined : "schema '" ++ id ++ "': " ++ "no entry with a path" =
          "schema '" ++ id ++ "': no entry with a path" := by
        rw [String.append_assoc, spelled]
      have message_eq : (ManifestError.malformed (.entry id)).message = _ :=
        congrArg ("Failed to parse schema manifest YAML: " ++ ·) joined.symm
      rw [message_eq]
      exact .entry _ noEntry
  | path without => exact .path without

theorem ofText_eq {text : List Char} (lists : listed? text = some listed) :
    ofText text = (decodeEntries listed).map fun entries => { entries } := by
  rw [ofText, lists]
  dsimp only
  cases decodeEntries listed <;> rfl

/-- The outcome for a text that lists entries is decided by these. -/
theorem ofText_eq_ok_iff {text : List Char} {manifest : Manifest}
    (lists : listed? text = some listed) :
    ofText text = .ok manifest ↔
      manifest.location = none ∧ List.Forall₂ ListedAs listed manifest.entries := by
  obtain ⟨location, entries⟩ := manifest
  rw [ofText_eq lists, ← decodeEntries_eq_ok_iff]
  cases decodeEntries listed <;> simp [Except.map, eq_comm]

theorem ofText_eq_error_iff {text : List Char} (lists : listed? text = some listed) :
    ofText text = .error error ↔ ∃ before bad, FirstRefused listed before bad error := by
  rw [ofText_eq lists, ← decodeEntries_eq_error_iff]
  cases decodeEntries listed <;> simp [Except.map]

theorem exists_forall₂_listedAs_iff :
    (∃ decoded, List.Forall₂ ListedAs listed decoded) ↔
      ∀ entry ∈ listed, ∃ decoded, ListedAs entry decoded := by
  constructor
  · rintro ⟨decoded, all⟩
    induction all with
    | nil => nofun
    | cons lists _ ih => exact List.forall_mem_cons.mpr ⟨⟨_, lists⟩, ih⟩
  · intro each
    refine (forall₂_or_firstRefused listed).resolve_right ?_
    rintro ⟨before, bad, error, ⟨after, rfl⟩, -, refused⟩
    obtain ⟨decoded, lists⟩ := each bad (by simp)
    cases refused.decodeEntry_eq.symm.trans lists.decodeEntry_eq

/-- A manifest is read exactly when every key and value of its mapping list a schema, and
    it then has them in order, as written. Otherwise the error is that of the first that
    list none, whatever stands before or after them. -/
theorem ofText_decided_by_first_refused {text : List Char}
    (lists : listed? text = some listed) :
    (∀ manifest, ofText text = .ok manifest ↔
        manifest.location = none ∧ List.Forall₂ ListedAs listed manifest.entries) ∧
      ((∃ manifest, ofText text = .ok manifest) ↔
        ∀ entry ∈ listed, ∃ decoded, ListedAs entry decoded) ∧
      (∀ error, ofText text = .error error ↔
        ∃ before bad, FirstRefused listed before bad error) ∧
      ∀ before bad error, FirstRefused listed before bad error →
        Told bad error.message ∧
        ∀ other before' after', listed? other = some (before' ++ bad :: after') →
          (∀ entry ∈ before', ∃ decoded, ListedAs entry decoded) →
          ofText other = .error error := by
  refine ⟨fun manifest => ofText_eq_ok_iff lists, ?_, fun error => ofText_eq_error_iff lists, ?_⟩
  · rw [← exists_forall₂_listedAs_iff]
    simp only [ofText_eq_ok_iff lists]
    exact ⟨fun ⟨manifest, _, all⟩ => ⟨manifest.entries, all⟩,
      fun ⟨entries, all⟩ => ⟨{ entries }, rfl, all⟩⟩
  · intro before bad error first
    refine ⟨first.refused.told, fun other before' after' lists' earlier' => ?_⟩
    exact (ofText_eq_error_iff lists').mpr
      ⟨before', bad, ⟨after', rfl⟩, earlier', first.refused⟩

/-- A text that lists a schema, then has a number for a key with null beside it, then an
    entry without a path. -/
theorem listed?_number_key :
    (match listed? "schemas:\n  a: \x7bpath: x\x7d\n  1: ~\n  b:\n".toList with
      | some [(.text a, .mapping [(.text name, .text path)]), (.int number, .null),
          (.text b, .null)] =>
            a == "a" && name == "path" && path == "x" && number == 1 && b == "b"
      | _ => false) = true := by decide +kernel

/-- The number for a key is told, not that there is no path beside it, and the entry without
    a path behind it does not count. -/
theorem ofText_decided_by_number_key :
    let text := "schemas:\n  a: \x7bpath: x\x7d\n  1: ~\n  b:\n".toList
    let error : ManifestError := .malformed (.name (.int 1))
    ∃ listed before, listed? text = some listed ∧
      FirstRefused listed before (.int 1, .null) error ∧
      Told (.int 1, .null) error.message ∧ ofText text = .error error := by
  intro text error
  have lists : listed? text = some [(.text "a", .mapping [(.text "path", .text "x")]),
      (.int 1, .null), (.text "b", .null)] := by
    have matched := listed?_number_key
    split at matched
    next found =>
      simp only [Bool.and_eq_true, beq_iff_eq] at matched
      obtain ⟨⟨⟨⟨rfl, rfl⟩, rfl⟩, rfl⟩, rfl⟩ := matched
      exact found
    next => cases matched
  have good : ListedAs (.text "a", .mapping [(.text "path", .text "x")]) ⟨"a", "x"⟩ :=
    ⟨rfl, .mapping rfl (.cons ⟨rfl, rfl⟩ .nil)
      (@GivesPath.present [] [] _ _ (by simp) (by simp) (.text rfl))⟩
  have first : FirstRefused _ [_] (.int 1, .null) error :=
    ⟨⟨[(.text "b", .null)], rfl⟩, by simpa using ⟨_, good⟩, .name (by simp)⟩
  obtain ⟨-, -, errors, alone⟩ := ofText_decided_by_first_refused lists
  obtain ⟨told, -⟩ := alone _ _ _ first
  exact ⟨_, _, lists, first, told, (errors error).mpr ⟨_, _, first⟩⟩

end ExpressLinks.Manifest
