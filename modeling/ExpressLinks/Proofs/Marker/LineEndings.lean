import ExpressLinks.Proofs.Marker.Lines
import ExpressLinks.Proofs.Text.LineEndings

/-!
# Markers and line endings

A carriage return may stand in a path and in a render text, but neither opens a marker nor
closes one, and it is put only where a line feed stands. So when line feeds are written
with carriage returns in front of them, the markers of a text stay, each on its line, and
only a marker that is broken across lines changes. What single lines hold does not change
at all. A text without broken markers has the same references as before.
-/

namespace ExpressLinks

open Text (lineFeeds withCarriages)

namespace Marker

/-- The marker with a carriage return in front of every line feed. -/
def withCarriages (marker : Marker) : Marker where
  path := String.ofList (Text.withCarriages marker.path.toList)
  render := marker.render.map fun render => String.ofList (Text.withCarriages render.toList)

theorem withCarriages_of_unbroken {marker : Marker} (unbroken : marker.Unbroken) :
    marker.withCarriages = marker := by
  obtain ⟨path, render⟩ := marker
  have samePath : String.ofList (Text.withCarriages path.toList) = path := by
    rw [Text.withCarriages_of_not_mem unbroken.path, String.ofList_toList]
  cases render with
  | none => simp [withCarriages, samePath]
  | some render =>
      have sameText : String.ofList (Text.withCarriages render.toList) = render := by
        rw [Text.withCarriages_of_not_mem (unbroken.render render rfl), String.ofList_toList]
      simp [withCarriages, samePath, sameText]

/-- Opening, comma and closing are written as before. -/
theorem write_withCarriages (marker : Marker) :
    marker.withCarriages.write = Text.withCarriages marker.write := by
  obtain ⟨path, render⟩ := marker
  have opened : Text.withCarriages opening = opening := Text.withCarriages_of_not_mem (by decide)
  have closed : Text.withCarriages closing = closing := Text.withCarriages_of_not_mem (by decide)
  have comma : Text.withCarriages [','] = [','] := rfl
  cases render with
  | none => simp [withCarriages, write, opened, closed]
  | some render =>
      simp only [withCarriages, write, Option.map_some, String.toList_ofList,
        Text.withCarriages_append, opened, closed, comma]

/-- A path given by its characters is a body. -/
theorem isBody_ofList_path {path : List Char} (nonempty : path ≠ []) (noComma : ',' ∉ path) :
    IsBody path ⟨String.ofList path, none⟩ := by
  have isBody := @IsBody.path (String.ofList path)
  rw [String.toList_ofList] at isBody
  exact isBody nonempty noComma

/-- A path and a render text given by their characters are a body. -/
theorem isBody_ofList_render {path render : List Char} (nonempty : path ≠ [])
    (noComma : ',' ∉ path) (rendered : render ≠ []) :
    IsBody (path ++ ',' :: render) ⟨String.ofList path, some (String.ofList render)⟩ := by
  have isBody := @IsBody.render (String.ofList path) (String.ofList render)
  rw [String.toList_ofList, String.toList_ofList] at isBody
  exact isBody nonempty noComma rendered

/-- A body stays a body, for the marker with carriage returns. -/
theorem IsBody.withCarriages {body : List Char} {marker : Marker} (isBody : IsBody body marker) :
    IsBody (Text.withCarriages body) marker.withCarriages := by
  have noComma {text : List Char} (free : ',' ∉ text) : ',' ∉ Text.withCarriages text :=
    mt (Text.mem_withCarriages_iff (by decide)).mp free
  have nonempty {text : List Char} (given : text ≠ []) : Text.withCarriages text ≠ [] :=
    mt Text.withCarriages_eq_nil_iff.mp given
  cases isBody with
  | path given free => exact isBody_ofList_path (nonempty given) (noComma free)
  | render given free rendered =>
      rw [Text.withCarriages_append, Text.withCarriages_cons_of_ne (by decide)]
      exact isBody_ofList_render (nonempty given) (noComma free) (nonempty rendered)

/-- What is a body once carriage returns are put in was one before. -/
theorem exists_isBody_of_withCarriages {body : List Char} {marker : Marker}
    (isBody : IsBody (Text.withCarriages body) marker) : ∃ before, IsBody body before := by
  have noComma {text : List Char} (free : ',' ∉ Text.withCarriages text) : ',' ∉ text :=
    mt (Text.mem_withCarriages_iff (by decide)).mpr free
  have nonempty {text : List Char} (given : Text.withCarriages text ≠ []) : text ≠ [] :=
    mt Text.withCarriages_eq_nil_iff.mpr given
  generalize written : Text.withCarriages body = text at isBody
  cases isBody with
  | path given free =>
      rw [← written] at given free
      exact ⟨_, isBody_ofList_path (nonempty given) (noComma free)⟩
  | @render path render given free rendered =>
      obtain ⟨first, second, rfl, first_eq, second_eq⟩ :=
        Text.exists_parts_of_withCarriages written (by simp)
      have comma : Text.withCarriages second = [','] ++ render.toList := second_eq
      obtain ⟨last, rfl, last_eq⟩ := Text.exists_rest_of_withCarriages (by decide) comma
      rw [← first_eq] at given free
      rw [← last_eq] at rendered
      exact ⟨_, isBody_ofList_render (nonempty given) (noComma free) (nonempty rendered)⟩

theorem WellFormed.withCarriages {marker : Marker} (wellFormed : marker.WellFormed) :
    marker.withCarriages.WellFormed := by
  have free := wellFormed.not_mem_body
  have isBody := ((isBody_iff free).mpr ⟨wellFormed, rfl⟩).withCarriages
  exact ((isBody_iff (mt (Text.mem_withCarriages_iff (by decide)).mp free)).mp isBody).1

/-- A marker starts the text with carriage returns only if one started the text before. -/
theorem read?_withCarriages_eq_none {text : List Char} (nothing : read? text = none) :
    read? (Text.withCarriages text) = none := by
  rw [Option.eq_none_iff_forall_ne_some]
  rintro ⟨marker, rest⟩ reads
  obtain ⟨wellFormed, written⟩ := of_read?_eq_some reads
  rw [write_eq, List.append_assoc] at written
  obtain ⟨inner, rfl, inner_eq⟩ := Text.exists_rest_of_withCarriages (by decide) written
  rw [List.append_assoc] at inner_eq
  obtain ⟨body, closed, rfl, body_eq, closed_eq⟩ :=
    Text.exists_parts_of_withCarriages inner_eq (by simp)
  obtain ⟨later, rfl, -⟩ := Text.exists_rest_of_withCarriages (by decide) closed_eq
  have free : '>' ∉ body := by
    intro sign
    apply wellFormed.not_mem_body
    rw [← body_eq]
    exact (Text.mem_withCarriages_iff (by decide)).mpr sign
  have isBody : IsBody (Text.withCarriages body) marker := by
    rw [body_eq]
    exact (isBody_iff wellFormed.not_mem_body).mpr ⟨wellFormed, rfl⟩
  obtain ⟨before, wasBody⟩ := exists_isBody_of_withCarriages isBody
  obtain ⟨own, rfl⟩ := (isBody_iff free).mp wasBody
  have read := read?_write_append own later
  rw [write_eq, List.append_assoc, List.append_assoc, nothing] at read
  cases read

/-- The markers of a text stay, each on its line, when carriage returns are put in. -/
theorem occurrencesFrom_withCarriages (line : Nat) (text : List Char) :
    occurrencesFrom line 0 (Text.withCarriages text) =
      (occurrencesFrom line 0 text).map fun occurrence =>
        ⟨occurrence.marker.withCarriages, occurrence.line⟩ := by
  induction line, text using search_induction with
  | nil line => rfl
  | pass line c cs nothing ih =>
      have nothingNow := read?_withCarriages_eq_none nothing
      rw [occurrencesFrom_cons_of_none line nothing, ← ih]
      by_cases feed : c = '\n'
      · subst feed
        have behind : read? ('\n' :: Text.withCarriages cs) = none := rfl
        have stays : lineAfter line '\r' = line := rfl
        rw [Text.withCarriages_feed_cons] at nothingNow ⊢
        rw [occurrencesFrom_cons_of_none line nothingNow, stays,
          occurrencesFrom_cons_of_none line behind]
      · rw [Text.withCarriages_cons_of_ne feed] at nothingNow ⊢
        rw [occurrencesFrom_cons_of_none line nothingNow]
  | found line marker rest wellFormed ih =>
      have sameFeeds := Text.lineFeeds_withCarriages marker.write
      rw [occurrencesFrom_write_append line wellFormed, List.map_cons, ← ih,
        Text.withCarriages_append, ← write_withCarriages,
        occurrencesFrom_write_append line wellFormed.withCarriages, write_withCarriages, sameFeeds]

/-- Without broken markers the text has the same markers. -/
theorem occurrences_withCarriages {text : List Char}
    (unbroken : ∀ occurrence ∈ occurrences text, occurrence.marker.Unbroken) :
    occurrences (Text.withCarriages text) = occurrences text := by
  have same : ∀ occurrence ∈ occurrences text,
      (⟨occurrence.marker.withCarriages, occurrence.line⟩ : Occurrence) = occurrence := by
    intro occurrence member
    rw [withCarriages_of_unbroken (unbroken occurrence member)]
  calc
    occurrences (Text.withCarriages text)
      = (occurrences text).map fun occurrence =>
          ⟨occurrence.marker.withCarriages, occurrence.line⟩ := occurrencesFrom_withCarriages 1 text
    _ = (occurrences text).map id := List.map_congr_left same
    _ = occurrences text := List.map_id _

/-- The line looked up for a path is the same. -/
theorem findLine?_withCarriages (text : List Char) (path : String) :
    findLine? (Text.withCarriages text) path = findLine? text path := by
  let holds (line : List Char) : Bool :=
    (occurrences line).any fun occurrence => occurrence.marker.path == path
  have ignores (line : List Char) : holds (line ++ ['\r']) = holds line := by
    have same : occurrences (line ++ ['\r']) = occurrences line :=
      occurrencesFrom_append_of_not_mem 1 line (by decide)
    simp only [holds, same]
  have looked (text : List Char) :
      findLine? text path = (((Text.lines text).map holds).findIdx? id).map (· + 1) := by
    rw [List.findIdx?_map]
    rfl
  rw [looked, looked, Text.map_lines_withCarriages ignores]

end Marker

/-- Without broken markers the text has the same references, on the same lines. -/
theorem Reference.ofText_withCarriages {text : List Char} (file : String)
    (unbroken : ∀ occurrence ∈ Marker.occurrences text, occurrence.marker.Unbroken) :
    ofText (withCarriages text) file = ofText text file := by
  simp only [ofText, Marker.occurrences_withCarriages unbroken, Marker.findLine?_withCarriages]

end ExpressLinks
