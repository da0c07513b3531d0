import Mathlib.Data.Finset.Card
import Mathlib.Data.Nat.Find
import ExpressLinks.Proofs.FirstUse
import ExpressLinks.Proofs.Marker.Search

/-!
# The grammar of markers

No marker reaches over a greater-than sign other than the two that close it, so
the markers of a text can be read off its pieces between these signs. A piece
holds a marker when two signs follow it and somewhere in it an opening stands
with nothing but a path, or a path and a render text, up to its end; the leftmost
such opening counts. `PieceOccurrences` states this piece by piece, and the
search through the text finds exactly these occurrences.
-/

namespace ExpressLinks

namespace Marker

open Text (lineFeeds)

/-- What may stand between opening and closing: a path without commas, alone or
    with a comma and a render text after it. Neither of them is empty. -/
inductive IsBody : List Char → Marker → Prop
  | path {path : String} : path.toList ≠ [] → ',' ∉ path.toList → IsBody path.toList ⟨path, none⟩
  | render {path render : String} :
      path.toList ≠ [] → ',' ∉ path.toList → render.toList ≠ [] →
      IsBody (path.toList ++ ',' :: render.toList) ⟨path, some render⟩

/-- At a position of a piece stands an opening, and the rest of the piece is a body. -/
def StartsAt (piece : List Char) (start : Nat) (marker : Marker) : Prop :=
  ∃ body, piece.drop start = opening ++ body ∧ IsBody body marker

/-- The first position of a piece at which a marker starts. -/
def LeftmostAt (piece : List Char) (start : Nat) (marker : Marker) : Prop :=
  StartsAt piece start marker ∧ ∀ earlier < start, ∀ other, ¬ StartsAt piece earlier other

/-- Two signs follow a piece when the next of the pieces after it is empty and not
    the last. -/
def Closing : List (List Char) → Prop
  | [] :: _ :: _ => True
  | _ => False

/-- The occurrences in the pieces of a text, each counted on the line on which it
    starts; `before` is the text in front of the pieces. -/
inductive PieceOccurrences : List Char → List (List Char) → List Occurrence → Prop
  | last (before piece : List Char) : PieceOccurrences before [piece] []
  | marker {before piece : List Char} {later : List (List Char)} {start : Nat} {marker : Marker}
      {found : List Occurrence} :
      Closing later → LeftmostAt piece start marker →
      PieceOccurrences (before ++ piece ++ ['>']) later found →
      PieceOccurrences before (piece :: later)
        (⟨marker, 1 + lineFeeds (before ++ piece.take start)⟩ :: found)
  | none {before piece : List Char} {later : List (List Char)} {found : List Occurrence} :
      later ≠ [] → (Closing later → ∀ start marker, ¬ StartsAt piece start marker) →
      PieceOccurrences (before ++ piece ++ ['>']) later found →
      PieceOccurrences before (piece :: later) found

variable {piece rest : List Char} {marker : Marker} {start line : Nat}

/-- Without greater-than signs the bodies are those of well-formed markers. -/
theorem isBody_iff {text : List Char} (free : '>' ∉ text) :
    IsBody text marker ↔ marker.WellFormed ∧ text = marker.body := by
  constructor
  · intro isBody
    cases isBody with
    | path nonempty noComma =>
        exact ⟨⟨nonempty, all_isPathChar_iff.mpr ⟨noComma, free⟩, by simp, by simp⟩, rfl⟩
    | render nonempty noComma rendered =>
        simp only [List.mem_append, List.mem_cons, not_or] at free
        refine ⟨⟨nonempty, all_isPathChar_iff.mpr ⟨noComma, free.1⟩, ?_, ?_⟩, rfl⟩
        · intro render written
          obtain rfl := Option.some.inj written
          exact rendered
        · intro render written
          obtain rfl := Option.some.inj written
          exact all_isRenderChar_iff.mpr free.2.2
  · rintro ⟨wellFormed, rfl⟩
    have noComma := (all_isPathChar_iff.mp wellFormed.path_chars).1
    obtain ⟨path, render⟩ := marker
    cases render with
    | none => exact .path wellFormed.path_ne_nil noComma
    | some render => exact .render wellFormed.path_ne_nil noComma (wellFormed.render_ne_nil _ rfl)

/-- A marker is read at a position of a piece exactly when it starts there and two
    signs follow the piece. -/
theorem read?_drop_eq_some_iff {later : List Char} (free : '>' ∉ piece)
    (inside : start ≤ piece.length) :
    read? ((piece ++ '>' :: later).drop start) = some (marker, rest) ↔
      StartsAt piece start marker ∧ later = '>' :: rest := by
  have tailFree : '>' ∉ piece.drop start := fun member => free (List.mem_of_mem_drop member)
  rw [read?_eq_some_iff, List.drop_append_of_le_length inside, write_eq]
  constructor
  · rintro ⟨wellFormed, same⟩
    have bodyFree : '>' ∉ opening ++ marker.body := by
      have openingFree : '>' ∉ opening := by decide
      simp [openingFree, wellFormed.not_mem_body]
    obtain ⟨written, rfl⟩ : piece.drop start = opening ++ marker.body ∧ later = '>' :: rest := by
      have sign : isRenderChar '>' = false := rfl
      apply span_unique (all_isRenderChar_iff.mpr tailFree) (all_isRenderChar_iff.mpr bodyFree) sign
      simpa using same
    have isBody : IsBody marker.body marker :=
      (isBody_iff wellFormed.not_mem_body).mpr ⟨wellFormed, rfl⟩
    exact ⟨⟨marker.body, written, isBody⟩, rfl⟩
  · rintro ⟨⟨body, written, isBody⟩, rfl⟩
    have bodyFree : '>' ∉ body := by
      intro member
      exact tailFree (written ▸ List.mem_append_right opening member)
    obtain ⟨wellFormed, rfl⟩ := (isBody_iff bodyFree).mp isBody
    refine ⟨wellFormed, ?_⟩
    rw [written]
    simp only [List.append_assoc, List.cons_append, List.nil_append]

/-- Where a marker starts a character stands. -/
theorem StartsAt.lt_length (starts : StartsAt piece start marker) : start < piece.length := by
  obtain ⟨body, written, -⟩ := starts
  have nonempty : piece.drop start ≠ [] := by
    rw [written]
    exact List.append_ne_nil_of_left_ne_nil (by decide) body
  by_contra beyond
  exact nonempty (List.drop_eq_nil_of_le (Nat.le_of_not_lt beyond))

theorem exists_leftmostAt (starts : StartsAt piece start marker) :
    ∃ first found, LeftmostAt piece first found := by
  classical
  have somewhere : ∃ position, ∃ found, StartsAt piece position found := ⟨start, marker, starts⟩
  obtain ⟨found, first⟩ := Nat.find_spec somewhere
  refine ⟨Nat.find somewhere, found, first, ?_⟩
  intro earlier before other startsEarlier
  exact Nat.find_min somewhere before ⟨other, startsEarlier⟩

/-- From a piece that two signs follow, the search reports the leftmost marker and
    goes on behind the signs. -/
theorem occurrencesFrom_closed (free : '>' ∉ piece) (leftmost : LeftmostAt piece start marker) :
    occurrencesFrom line 0 (piece ++ '>' :: '>' :: rest) =
      ⟨marker, line + lineFeeds (piece.take start)⟩ ::
        occurrencesFrom (line + lineFeeds piece) 0 rest := by
  obtain ⟨starts, first⟩ := leftmost
  have inside := starts.lt_length
  have reads : read? ((piece ++ '>' :: '>' :: rest).drop start) = some (marker, rest) :=
    (read?_drop_eq_some_iff free inside.le).mpr ⟨starts, rfl⟩
  obtain ⟨wellFormed, written⟩ := read?_eq_some_iff.mp reads
  rw [List.drop_append_of_le_length inside.le] at written
  have text_eq : piece ++ '>' :: '>' :: rest = piece.take start ++ (marker.write ++ rest) := by
    rw [← written, ← List.append_assoc, List.take_append_drop]
  have feeds : lineFeeds (piece.take start) + lineFeeds marker.write = lineFeeds piece := by
    have sign : '>' ≠ '\n' := by decide
    have counted := congrArg lineFeeds text_eq
    simp only [Text.lineFeeds_append, Text.lineFeeds_cons_of_ne sign] at counted
    omega
  have noMarker : ∀ earlier < (piece.take start).length,
      read? ((piece.take start ++ (marker.write ++ rest)).drop earlier) = none := by
    intro earlier before
    rw [List.length_take, Nat.lt_min] at before
    rw [← text_eq, Option.eq_none_iff_forall_ne_some]
    rintro ⟨other, after⟩ readEarlier
    exact first earlier before.1 other ((read?_drop_eq_some_iff free before.2.le).mp readEarlier).1
  rw [text_eq, occurrencesFrom_pass line _ _ noMarker, occurrencesFrom_write_append _ wellFormed,
    Nat.add_assoc, feeds]

/-- From a piece without a marker, or with fewer than two signs after it, the
    search reports nothing. -/
theorem occurrencesFrom_open {later : List Char} (free : '>' ∉ piece)
    (nothing : ∀ after, later = '>' :: after → ∀ start marker, ¬ StartsAt piece start marker) :
    occurrencesFrom line 0 (piece ++ '>' :: later) =
      occurrencesFrom (line + lineFeeds piece) 0 later := by
  have noMarker : ∀ start < (piece ++ ['>']).length,
      read? ((piece ++ ['>'] ++ later).drop start) = none := by
    intro start inside
    rw [List.append_assoc, List.singleton_append, Option.eq_none_iff_forall_ne_some]
    rintro ⟨marker, after⟩ reads
    have bound : start ≤ piece.length := by simpa [Nat.lt_succ_iff] using inside
    obtain ⟨starts, closed⟩ := (read?_drop_eq_some_iff free bound).mp reads
    exact nothing after closed start marker starts
  have passed := occurrencesFrom_pass line (piece ++ ['>']) later noMarker
  have sign : lineFeeds ['>'] = 0 := rfl
  rwa [List.append_assoc, List.singleton_append, Text.lineFeeds_append, sign, Nat.add_zero]
    at passed

/-- A sign at which no marker starts is passed over. -/
theorem occurrencesFrom_sign :
    occurrencesFrom line 0 ('>' :: rest) = occurrencesFrom line 0 rest := by
  have noStart (start : Nat) (marker : Marker) : ¬ StartsAt [] start marker :=
    fun starts => absurd starts.lt_length (Nat.not_lt_zero start)
  exact occurrencesFrom_open List.not_mem_nil fun _ _ => noStart

/-- Joined pieces start with a sign only when the first of them is empty and not the
    last. -/
theorem closing_of_joinWith {later : List (List Char)} {after : List Char}
    (free : ∀ piece ∈ later, '>' ∉ piece)
    (joined : Text.joinWith ['>'] later = '>' :: after) : Closing later := by
  match later with
  | [] => simp [Text.joinWith] at joined
  | [piece] =>
      have single : piece = '>' :: after := joined
      simp [single] at free
  | [] :: next :: others => trivial
  | (c :: cs) :: next :: others =>
      obtain rfl : c = '>' := (List.cons.inj joined).1
      simp at free

theorem lineFeeds_behind (before piece : List Char) :
    1 + lineFeeds (before ++ piece ++ ['>']) = 1 + (lineFeeds before + lineFeeds piece) := by
  have sign : lineFeeds ['>'] = 0 := rfl
  rw [Text.lineFeeds_append, Text.lineFeeds_append, sign, Nat.add_zero]

/-- The search finds the occurrences that the pieces of a text hold. -/
theorem PieceOccurrences.eq_occurrencesFrom {before : List Char} {pieces : List (List Char)}
    {found : List Occurrence} (holds : PieceOccurrences before pieces found)
    (free : ∀ piece ∈ pieces, '>' ∉ piece) :
    occurrencesFrom (1 + lineFeeds before) 0 (Text.joinWith ['>'] pieces) = found := by
  induction holds with
  | last before piece => exact occurrencesFrom_of_not_mem_sign _ (free piece (by simp))
  | @marker before piece later start marker found closing leftmost _ ih =>
      match later, closing with
      | [] :: next :: others, _ =>
          -- The relation goes on at the empty piece between the signs, the search behind
          -- both of them; no marker starts at the second sign.
          have found_eq := ih fun other member => free other (List.mem_cons_of_mem piece member)
          rw [lineFeeds_behind, Text.joinWith_cons_cons, List.nil_append, occurrencesFrom_sign]
            at found_eq
          rw [Text.joinWith_cons_cons, Text.joinWith_cons_cons, List.nil_append,
            occurrencesFrom_closed (free piece (by simp)) leftmost, ← found_eq,
            Text.lineFeeds_append, ← Nat.add_assoc, ← Nat.add_assoc]
  | @none before piece later found given nothing _ ih =>
      obtain ⟨next, others, rfl⟩ := List.exists_cons_of_ne_nil given
      have laterFree : ∀ other ∈ next :: others, '>' ∉ other :=
        fun other member => free other (List.mem_cons_of_mem piece member)
      have found_eq := ih laterFree
      rw [lineFeeds_behind] at found_eq
      rw [Text.joinWith_cons_cons, ← found_eq, ← Nat.add_assoc]
      apply occurrencesFrom_open (free piece (by simp))
      intro after joined
      exact nothing (closing_of_joinWith laterFree joined)

/-- Every list of pieces holds some list of occurrences. -/
theorem exists_pieceOccurrences (before : List Char) {pieces : List (List Char)}
    (given : pieces ≠ []) : ∃ found, PieceOccurrences before pieces found := by
  induction pieces generalizing before with
  | nil => exact absurd rfl given
  | cons piece later ih =>
      by_cases more : later = []
      · subst more
        exact ⟨[], .last before piece⟩
      · obtain ⟨found, holds⟩ := ih (before ++ piece ++ ['>']) more
        by_cases marked : Closing later ∧ ∃ start marker, StartsAt piece start marker
        · obtain ⟨closing, start, marker, starts⟩ := marked
          obtain ⟨first, leftmost, isLeftmost⟩ := exists_leftmostAt starts
          exact ⟨_, .marker closing isLeftmost holds⟩
        · refine ⟨found, .none more ?_ holds⟩
          intro closing start marker starts
          exact marked ⟨closing, start, marker, starts⟩

/-- The occurrences in the pieces of a text are those that the search finds. -/
theorem pieceOccurrences_iff {text : List Char} {found : List Occurrence} :
    PieceOccurrences [] (Text.splitAt '>' text) found ↔ occurrences text = found := by
  have sound {found : List Occurrence} (holds : PieceOccurrences [] (Text.splitAt '>' text) found) :
      occurrences text = found := by
    have found_eq := holds.eq_occurrencesFrom fun piece member => Text.not_mem_of_mem_splitAt member
    rwa [Text.joinWith_splitAt] at found_eq
  constructor
  · exact sound
  · rintro rfl
    obtain ⟨found, holds⟩ := exists_pieceOccurrences [] (Text.splitAt_ne_nil '>' text)
    rwa [sound holds]

/-- The paths are those of all occurrences, each kept once, where it comes first. -/
theorem paths_eq_eraseDups (text : List Char) :
    paths text = ((occurrences text).map (·.marker.path)).eraseDups := by
  simpa [paths] using map_firstUses id ((occurrences text).map (·.marker.path))

theorem mem_paths_iff {text : List Char} {path : String} :
    path ∈ paths text ↔ ∃ occurrence ∈ occurrences text, occurrence.marker.path = path := by
  rw [paths_eq_eraseDups, List.mem_eraseDups, List.mem_map]

/-- The paths of a text are as many as there are different paths in its markers. -/
theorem length_paths (text : List Char) :
    (paths text).length = ((occurrences text).map (·.marker.path)).toFinset.card := by
  have distinct : (paths text).Nodup := paths_eq_eraseDups text ▸ nodup_eraseDups _
  have same : (paths text).toFinset = ((occurrences text).map (·.marker.path)).toFinset := by
    ext path
    simp only [paths_eq_eraseDups, List.mem_toFinset, List.mem_eraseDups]
  rw [← same, List.toFinset_card_of_nodup distinct]

end Marker

namespace Reference

/-- The references of a text are for its paths, in their order. -/
theorem map_rawPath_ofText (text : List Char) (file : String) :
    (ofText text file).map (·.rawPath) = Marker.paths text := by
  rw [Marker.paths_eq_eraseDups, ← map_firstUses, ofText, List.map_map]
  rfl

/-- A reference comes from the first occurrence of its path. -/
theorem exists_first_of_mem_ofText {text : List Char} {file : String} {reference : Reference}
    (member : reference ∈ ofText text file) :
    reference.sourceFile = file ∧ ∃ before occurrence after,
      Marker.occurrences text = before ++ occurrence :: after ∧
        occurrence.marker = ⟨reference.rawPath, reference.renderText⟩ ∧
        ∀ earlier ∈ before, earlier.marker.path ≠ reference.rawPath := by
  obtain ⟨occurrence, first, rfl⟩ := List.mem_map.mp member
  obtain ⟨before, after, split, others⟩ := (mem_firstUses_iff _).mp first
  exact ⟨rfl, before, occurrence, after, split, rfl, others⟩

end Reference

/-- The markers of a text are those that its pieces between greater-than signs hold,
    each read from the leftmost start. The paths of the text are their paths, each
    once and in order; the references of a file have the same paths in the same
    order, each with the render text of its first marker. -/
theorem Marker.occurrences_of_pieces (text : List Char) (file : String) :
    (∀ found, PieceOccurrences [] (Text.splitAt '>' text) found ↔ occurrences text = found) ∧
      paths text = ((occurrences text).map (·.marker.path)).eraseDups ∧
      (Reference.ofText text file).map (·.rawPath) = paths text ∧
      ∀ reference ∈ Reference.ofText text file,
        reference.sourceFile = file ∧ ∃ before occurrence after,
          occurrences text = before ++ occurrence :: after ∧
            occurrence.marker = ⟨reference.rawPath, reference.renderText⟩ ∧
            ∀ earlier ∈ before, earlier.marker.path ≠ reference.rawPath := by
  refine ⟨fun found => pieceOccurrences_iff, paths_eq_eraseDups text,
    Reference.map_rawPath_ofText text file, ?_⟩
  intro reference member
  exact Reference.exists_first_of_mem_ofText member

/-- An opening without a path does not count, one after it does; a single sign closes
    nothing, and of two markers for a path the reference shows the first. -/
theorem Marker.occurrences_of_broken_markers :
    let text := "<<express:,<<express:s.a,x,y>>><<express:s.b> <<express:s.a>>".toList
    PieceOccurrences [] (Text.splitAt '>' text)
        [⟨⟨"s.a", some "x,y"⟩, 1⟩, ⟨⟨"s.a", none⟩, 1⟩] ∧
      ⟨"s.a", some "x,y", "a.adoc", 1⟩ ∈ Reference.ofText text "a.adoc" ∧
      ∃ before occurrence after, occurrences text = before ++ occurrence :: after ∧
        occurrence.marker = ⟨"s.a", some "x,y"⟩ ∧
        ∀ earlier ∈ before, earlier.marker.path ≠ "s.a" := by
  intro text
  obtain ⟨pieces, -, -, references⟩ := Marker.occurrences_of_pieces text "a.adoc"
  have member : ⟨"s.a", some "x,y", "a.adoc", 1⟩ ∈ Reference.ofText text "a.adoc" := by
    decide +kernel
  exact ⟨(pieces _).mpr (by decide +kernel), member, (references _ member).2⟩

end ExpressLinks
