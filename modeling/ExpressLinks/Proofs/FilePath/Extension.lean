import Mathlib.Data.List.Basic
import Mathlib.Data.List.TakeWhile
import ExpressLinks.FilePath

/-!
# File names and extensions

A path with a file name is what stands up to its last slash, then the name. A name with an
extension is a stem, a point and what stands behind the last point. Another extension is put
behind the stem; the result has no file name, or it ends in the new extension.
-/

namespace ExpressLinks.FilePath

/-- A file name, behind the path of its directory: that is empty or ends in a slash. -/
structure Names (before name : List Char) : Prop where
  before_eq : before = [] ∨ ∃ parent, before = parent ++ ['/']
  slash_free : '/' ∉ name
  ne_nil : name ≠ []
  ne_point : name ≠ ['.']
  ne_points : name ≠ ['.', '.']

variable {before name stem ext : List Char}

theorem dropDeadEnd_eq_self {path : List Char} (slash : ∀ rest, path ≠ '/' :: rest)
    (point : ∀ rest, path ≠ '.' :: '/' :: rest) : dropDeadEnd path = path := by
  unfold dropDeadEnd
  split
  next rest => exact absurd rfl (slash rest)
  next rest => exact absurd rfl (point rest)
  next => rfl

/-- A file name is no dead end, so nothing behind it is cut off. -/
theorem Names.withoutDeadEnd_eq (names : Names before name) :
    withoutDeadEnd (before ++ name) = before ++ name := by
  have kept : dropDeadEnd (before ++ name).reverse = (before ++ name).reverse := by
    rw [List.reverse_append]
    obtain rfl | ⟨front, last, rfl⟩ := List.eq_nil_or_concat name
    · exact absurd rfl names.ne_nil
    · have slashFree : '/' ∉ front ∧ '/' ≠ last := by simpa using names.slash_free
      simp only [List.concat_eq_append, List.reverse_append, List.reverse_singleton,
        List.cons_append]
      apply dropDeadEnd_eq_self
      · intro rest same
        exact slashFree.2 (List.cons.inj same).1.symm
      · intro rest same
        obtain ⟨rfl, front_eq⟩ := List.cons.inj same
        cases letters : front.reverse with
        | nil =>
            have empty : front = [] := List.reverse_eq_nil_iff.mp letters
            exact names.ne_point (by rw [empty]; rfl)
        | cons c others =>
            rw [letters] at front_eq
            have member : c ∈ front := List.mem_reverse.mp (letters ▸ List.mem_cons_self)
            exact slashFree.1 ((List.cons.inj front_eq).1 ▸ member)
  rw [withoutDeadEnd, kept, List.reverse_reverse]

/-- The letters of a file name reach back to the slash in front of it. -/
theorem Names.splitName?_eq (names : Names before name) :
    splitName? (before ++ name) = some (before, name) := by
  have letters : ∀ c ∈ name.reverse, (c != '/') = true := by
    intro c member
    have noSlash : c ≠ '/' := fun same => names.slash_free (same ▸ List.mem_reverse.mp member)
    simpa using noSlash
  have taken : before.reverse.takeWhile (· != '/') = [] := by
    rcases names.before_eq with rfl | ⟨parent, rfl⟩ <;> simp
  have dropped : before.reverse.dropWhile (· != '/') = before.reverse := by
    rcases names.before_eq with rfl | ⟨parent, rfl⟩ <;> simp
  have last : lastPiece (before ++ name) = name := by
    rw [lastPiece, List.reverse_append, List.takeWhile_append_of_pos letters, taken,
      List.append_nil, List.reverse_reverse]
  have front : beforeLastPiece (before ++ name) = before := by
    rw [beforeLastPiece, List.reverse_append, List.dropWhile_append_of_pos letters, dropped,
      List.reverse_reverse]
  simp only [splitName?, names.withoutDeadEnd_eq, last, front, names.ne_nil, names.ne_point,
    names.ne_points, or_self, if_false]

/-- What is split off is a file name behind its directory. -/
theorem names_of_splitName? {path : List Char} (split : splitName? path = some (before, name)) :
    Names before name := by
  simp only [splitName?] at split
  split at split
  · cases split
  next named =>
    simp only [not_or] at named
    obtain ⟨rfl, rfl⟩ := Prod.mk.inj (Option.some.inj split)
    refine ⟨?_, ?_, named.1, named.2.1, named.2.2⟩
    · cases dropped : (withoutDeadEnd path).reverse.dropWhile (· != '/') with
      | nil =>
          left
          rw [beforeLastPiece, dropped, List.reverse_nil]
      | cons c rest =>
          right
          have slash : c = '/' := by
            have given : (withoutDeadEnd path).reverse.dropWhile (· != '/') ≠ [] := by
              rw [dropped]
              exact List.cons_ne_nil c rest
            have stops := List.head_dropWhile_not (· != '/') given
            simpa [dropped] using stops
          refine ⟨rest.reverse, ?_⟩
          rw [beforeLastPiece, dropped, List.reverse_cons, slash]
    · intro member
      simpa using List.mem_takeWhile_imp (List.mem_reverse.mp member)

/-- A stem and an extension make a file name, unless the stem is a point and the extension
    empty. -/
theorem names_append (ended : before = [] ∨ ∃ parent, before = parent ++ ['/'])
    (stemFree : '/' ∉ stem) (extFree : '/' ∉ ext) (given : stem ≠ [])
    (shown : stem ≠ ['.'] ∨ ext ≠ []) : Names before (stem ++ '.' :: ext) := by
  have stemLength := List.length_pos_iff.mpr given
  refine ⟨ended, by simp [stemFree, extFree], by simp, ?_, ?_⟩
  · intro point
    have length := congrArg List.length point
    simp only [List.length_append, List.length_cons, List.length_nil] at length
    omega
  · intro points
    have length := congrArg List.length points
    simp only [List.length_append, List.length_cons, List.length_nil] at length
    have noExt : ext = [] := List.eq_nil_of_length_eq_zero (by omega)
    obtain ⟨c, rfl⟩ : ∃ c, stem = [c] := List.length_eq_one_iff.mp (by omega)
    subst noExt
    have point : c = '.' := (List.cons.inj points).1
    rcases shown with shown | shown
    · exact shown (by rw [point])
    · exact shown rfl

/-- What stands behind the last point of a text that has one. -/
theorem exists_behind_last_point (pointed : '.' ∈ ext) :
    ∃ front last, ext = front ++ '.' :: last ∧ '.' ∉ last := by
  obtain ⟨behind, ahead, backwards, behindFree⟩ :=
    List.eq_append_cons_of_mem (List.mem_reverse.mpr pointed)
  refine ⟨ahead.reverse, behind.reverse, ?_, by simpa using behindFree⟩
  simpa using congrArg List.reverse backwards

theorem splitExtension_append (given : stem ≠ []) (free : '.' ∉ ext) :
    splitExtension (stem ++ '.' :: ext) = (stem, some ext) := by
  have letters : ∀ c ∈ ext.reverse, (c != '.') = true := by
    intro c member
    have noPoint : c ≠ '.' := fun same => free (same ▸ List.mem_reverse.mp member)
    simpa using noPoint
  have backwards : (stem ++ '.' :: ext).reverse = ext.reverse ++ '.' :: stem.reverse := by simp
  have taken : (stem ++ '.' :: ext).reverse.takeWhile (· != '.') = ext.reverse := by
    rw [backwards, List.takeWhile_append_of_pos letters]
    simp
  have dropped : (stem ++ '.' :: ext).reverse.dropWhile (· != '.') = '.' :: stem.reverse := by
    rw [backwards, List.dropWhile_append_of_pos letters]
    simp
  have given' : stem.reverse ≠ [] := by simpa using given
  simp only [splitExtension, taken, dropped, given', if_false, List.reverse_reverse]

/-- What stands behind the last point holds no point. -/
theorem point_not_mem_of_splitExtension (split : (splitExtension name).2 = some ext) :
    '.' ∉ ext := by
  have ext_eq : (name.reverse.takeWhile (· != '.')).reverse = ext := by
    simp only [splitExtension] at split
    split at split
    · cases split
    · split at split
      · cases split
      · exact Option.some.inj split
  intro member
  rw [← ext_eq] at member
  simpa using List.mem_takeWhile_imp (List.mem_reverse.mp member)

/-- The stem is the beginning of the name, and the name has a stem. -/
theorem exists_splitExtension_eq (name : List Char) :
    (∃ rest, name = (splitExtension name).1 ++ rest) ∧
      (name ≠ [] → (splitExtension name).1 ≠ []) := by
  cases dropped : name.reverse.dropWhile (· != '.') with
  | nil => simp [splitExtension, dropped]
  | cons c stem =>
      by_cases hidden : stem = []
      · simp [splitExtension, dropped, hidden]
      · have whole := List.takeWhile_append_dropWhile (p := (· != '.')) (l := name.reverse)
        rw [dropped] at whole
        have name_eq : name = stem.reverse ++
            c :: (name.reverse.takeWhile (· != '.')).reverse := by
          simpa using congrArg List.reverse whole.symm
        have stem_eq : (splitExtension name).1 = stem.reverse := by
          simp [splitExtension, dropped, hidden]
        rw [stem_eq]
        exact ⟨⟨_, name_eq⟩, fun _ => by simpa using hidden⟩

theorem extension?_eq_none_of_splitName? {path : String} (unnamed : splitName? path.toList = none) :
    extension? path = none := by
  simp [extension?, unnamed]

theorem point_not_mem_of_extension? {path old : String} (has : extension? path = some old) :
    '.' ∉ old.toList := by
  cases split : splitName? path.toList with
  | none => simp [extension?_eq_none_of_splitName? split] at has
  | some parts =>
      have found : (splitExtension parts.2).2.map String.ofList = some old := by
        simpa [extension?, split] using has
      obtain ⟨letters, letters_eq, rfl⟩ := Option.map_eq_some_iff.mp found
      rw [String.toList_ofList]
      exact point_not_mem_of_splitExtension letters_eq

theorem Names.extension?_eq (names : Names before (stem ++ '.' :: ext)) (given : stem ≠ [])
    (free : '.' ∉ ext) :
    extension? (String.ofList (before ++ (stem ++ '.' :: ext))) = some (String.ofList ext) := by
  simp [extension?, names.splitName?_eq, splitExtension_append given free]

/-- A path without file name stays. -/
theorem withExtension_of_splitName? {path : String} (unnamed : splitName? path.toList = none)
    (new : String) : withExtension path new = path := by
  simp [withExtension, extension?_eq_none_of_splitName? unnamed, replaceExtension, unnamed]

/-- The old extension gives way to the new one. The stem is not a point alone, as then the
    name without its extension would be none. -/
theorem Names.withExtension_eq (names : Names before (stem ++ '.' :: ext)) (given : stem ≠ [])
    (shown : stem ≠ ['.']) (free : '.' ∉ ext) {new : String} (more : new ≠ "") :
    withExtension (String.ofList (before ++ (stem ++ '.' :: ext))) new =
      String.ofList (before ++ (stem ++ '.' :: new.toList)) := by
  have cut : (before ++ (stem ++ '.' :: ext)).take
      ((before ++ (stem ++ '.' :: ext)).length - ext.length) = before ++ (stem ++ '.' :: []) := by
    have regroup : before ++ (stem ++ '.' :: ext) = (before ++ (stem ++ '.' :: [])) ++ ext := by
      simp
    rw [regroup, List.length_append, Nat.add_sub_cancel, List.take_left]
  have stemFree : '/' ∉ stem := fun slash => names.slash_free (List.mem_append_left _ slash)
  have shortened : Names before (stem ++ '.' :: []) :=
    names_append names.before_eq stemFree List.not_mem_nil given (.inl shown)
  have extends' : new.toList ≠ [] := by simpa using more
  simp only [withExtension, names.extension?_eq given free, String.toList_ofList,
    String.length_ofList, cut, replaceExtension, shortened.splitName?_eq,
    splitExtension_append given List.not_mem_nil, extends', if_false, List.append_assoc]

/-- With its new extension a path has no file name, or a stem with this extension behind it. -/
theorem splitName?_withExtension (path : String) {new : String} (more : new ≠ "")
    (free : '/' ∉ new.toList) :
    splitName? (withExtension path new).toList = none ∨
      ∃ before stem, stem ≠ [] ∧ Names before (stem ++ '.' :: new.toList) ∧
        withExtension path new = String.ofList (before ++ (stem ++ '.' :: new.toList)) := by
  have extends' : new.toList ≠ [] := by simpa using more
  -- What is left of the path before the new extension is put there is only split once more.
  obtain ⟨shortened, made⟩ : ∃ shortened,
      withExtension path new = String.ofList (replaceExtension shortened new.toList) := ⟨_, rfl⟩
  cases split : splitName? shortened with
  | none =>
      left
      rw [made, String.toList_ofList, replaceExtension, split]
      exact split
  | some parts =>
      right
      obtain ⟨before, name⟩ := parts
      have names := names_of_splitName? split
      obtain ⟨⟨rest, name_eq⟩, stem_ne_nil⟩ := exists_splitExtension_eq name
      have given := stem_ne_nil names.ne_nil
      have stemFree : '/' ∉ (splitExtension name).1 := by
        intro member
        apply names.slash_free
        rw [name_eq]
        exact List.mem_append_left rest member
      refine ⟨before, (splitExtension name).1, given,
        names_append names.before_eq stemFree free given (.inr extends'), ?_⟩
      rw [made, replaceExtension, split]
      simp only [extends', if_false, List.append_assoc]

end ExpressLinks.FilePath
