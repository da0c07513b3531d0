import ExpressLinks.Proofs.FilePath.Extension
import ExpressLinks.Proofs.Naming
import ExpressLinks.Schema.Document

/-!
# The path of a schema document

A path that has the extension of documents is left alone. Whether it has it is told by what
stands behind the last point of its file name, and that holds no point. So the path of a
document is left alone when the extension of documents holds no point; when it holds one,
the path of a document gets the extension once more, unless it has no file name at all.
-/

namespace ExpressLinks.SchemaDocument

open FilePath (Names splitName? extension? withExtension)

variable {extension path : String}

theorem slash_not_mem_bareExtension (free : '/' ∉ extension.toList) :
    '/' ∉ (bareExtension extension).toList := by
  rw [bareExtension, String.toList_ofList]
  exact fun member => free ((List.dropWhile_sublist _).subset member)

/-- A path that has the extension is the path of the document. -/
theorem pathFor_of_same {old : String} (has : extension? path = some old)
    (equal : Ident.same old (bareExtension extension) = true) : pathFor extension path = path := by
  simp [pathFor, has, equal]

/-- Any other path gets the extension. -/
theorem pathFor_of_not_same
    (other : ∀ old, extension? path = some old →
      Ident.same old (bareExtension extension) = false) :
    pathFor extension path = withExtension path (bareExtension extension) := by
  cases has : extension? path with
  | none => simp [pathFor, has]
  | some old => simp [pathFor, has, other old has]

theorem pathFor_of_splitName? (unnamed : splitName? path.toList = none) :
    pathFor extension path = path := by
  have bare := FilePath.extension?_eq_none_of_splitName? unnamed
  rw [pathFor_of_not_same (by simp [bare]), FilePath.withExtension_of_splitName? unnamed]

/-- The path of a document is the given path, which has the extension, or it has no file
    name, or the extension stands behind a stem. -/
theorem pathFor_cases (given : bareExtension extension ≠ "") (free : '/' ∉ extension.toList)
    (path : String) :
    (∃ old, extension? path = some old ∧ Ident.same old (bareExtension extension) = true ∧
        pathFor extension path = path) ∨
      splitName? (pathFor extension path).toList = none ∨
      ∃ before stem, stem ≠ [] ∧ Names before (stem ++ '.' :: (bareExtension extension).toList) ∧
        pathFor extension path =
          String.ofList (before ++ (stem ++ '.' :: (bareExtension extension).toList)) := by
  by_cases has : ∃ old, extension? path = some old ∧
      Ident.same old (bareExtension extension) = true
  · obtain ⟨old, old_eq, equal⟩ := has
    exact .inl ⟨old, old_eq, equal, pathFor_of_same old_eq equal⟩
  · right
    have other : ∀ old, extension? path = some old →
        Ident.same old (bareExtension extension) = false := by
      intro old old_eq
      exact Bool.eq_false_iff.mpr fun equal => has ⟨old, old_eq, equal⟩
    rw [pathFor_of_not_same other]
    exact FilePath.splitName?_withExtension path given (slash_not_mem_bareExtension free)

/-- Behind a stem an extension without points is found again. -/
theorem pathFor_eq_self_of_names {before stem : List Char} (given : stem ≠ [])
    (names : Names before (stem ++ '.' :: (bareExtension extension).toList))
    (free : '.' ∉ (bareExtension extension).toList) :
    pathFor extension
        (String.ofList (before ++ (stem ++ '.' :: (bareExtension extension).toList))) =
      String.ofList (before ++ (stem ++ '.' :: (bareExtension extension).toList)) := by
  have has := names.extension?_eq given free
  rw [String.ofList_toList] at has
  exact pathFor_of_same has (Ident.same_refl _)

/-- Behind a stem an extension with a point is not found again but put there once more. -/
theorem pathFor_ne_self_of_names {before stem : List Char} (given : stem ≠ [])
    (names : Names before (stem ++ '.' :: (bareExtension extension).toList))
    (pointed : '.' ∈ (bareExtension extension).toList) :
    pathFor extension
        (String.ofList (before ++ (stem ++ '.' :: (bareExtension extension).toList))) ≠
      String.ofList (before ++ (stem ++ '.' :: (bareExtension extension).toList)) := by
  obtain ⟨front, last, split, lastFree⟩ := FilePath.exists_behind_last_point pointed
  have regroup : stem ++ '.' :: (bareExtension extension).toList =
      (stem ++ '.' :: front) ++ '.' :: last := by simp [split]
  have longer : stem ++ '.' :: front ≠ [] := by simp
  have shown : stem ++ '.' :: front ≠ ['.'] := by
    intro single
    have length := congrArg List.length single
    have positive := List.length_pos_iff.mpr given
    simp only [List.length_append, List.length_cons, List.length_nil] at length
    omega
  have more : bareExtension extension ≠ "" := by
    intro empty
    simp [empty] at pointed
  rw [regroup] at names ⊢
  have other : ∀ old,
      extension? (String.ofList (before ++ ((stem ++ '.' :: front) ++ '.' :: last))) = some old →
        Ident.same old (bareExtension extension) = false := by
    intro old has
    rw [Bool.eq_false_iff]
    intro equal
    have point := (Ident.mem_toList_iff_of_same (by decide) equal).mpr pointed
    exact FilePath.point_not_mem_of_extension? has point
  rw [pathFor_of_not_same other, names.withExtension_eq longer shown lastFree more]
  intro same
  have length := congrArg (fun path => path.toList.length) same
  have parts := congrArg List.length split
  simp only [String.toList_ofList, List.length_append, List.length_cons] at length parts
  omega

/-- A path without extension gets one, and then has a file name. -/
theorem exists_named_pathFor (given : bareExtension extension ≠ "")
    (free : '/' ∉ extension.toList) :
    ∃ path, splitName? (pathFor extension path).toList ≠ none := by
  have bare : extension? "a" = none := by decide +kernel
  have split : splitName? "a".toList = some ([], ['a']) := by decide +kernel
  have whole : FilePath.splitExtension ['a'] = (['a'], none) := by decide +kernel
  have more : (bareExtension extension).toList ≠ [] := by simpa using given
  have extended : (pathFor extension "a").toList =
      [] ++ (['a'] ++ '.' :: (bareExtension extension).toList) := by
    rw [pathFor_of_not_same (by simp [bare])]
    simp only [withExtension, bare, FilePath.replaceExtension, split, whole, more, if_false,
      String.toList_ofList, List.append_assoc]
  have names : Names [] (['a'] ++ '.' :: (bareExtension extension).toList) :=
    FilePath.names_append (.inl rfl) (by decide) (slash_not_mem_bareExtension free) (by simp)
      (.inr more)
  refine ⟨"a", ?_⟩
  rw [extended, names.splitName?_eq]
  exact Option.some_ne_none _

/-- The path of a document is the path of a document again, for all paths, exactly when the
    extension of documents holds no point. When it holds one, that is so for just those
    paths whose document path has no file name. -/
theorem pathFor_pathFor_eq_iff (given : bareExtension extension ≠ "")
    (free : '/' ∉ extension.toList) :
    ((∀ path, pathFor extension (pathFor extension path) = pathFor extension path) ↔
        '.' ∉ (bareExtension extension).toList) ∧
      ∀ path, pathFor extension (pathFor extension path) = pathFor extension path ↔
        '.' ∉ (bareExtension extension).toList ∨
          splitName? (pathFor extension path).toList = none := by
  have each (path : String) : pathFor extension (pathFor extension path) = pathFor extension path ↔
      '.' ∉ (bareExtension extension).toList ∨
        splitName? (pathFor extension path).toList = none := by
    rcases pathFor_cases given free path with ⟨old, has, equal, same⟩ | unnamed |
      ⟨before, stem, stemGiven, names, made⟩
    · have noPoint : '.' ∉ (bareExtension extension).toList :=
        mt (Ident.mem_toList_iff_of_same (by decide) equal).mpr
          (FilePath.point_not_mem_of_extension? has)
      rw [same, same]
      exact iff_of_true rfl (.inl noPoint)
    · exact iff_of_true (pathFor_of_splitName? unnamed) (.inr unnamed)
    · have named : splitName? (pathFor extension path).toList ≠ none := by
        rw [made, String.toList_ofList, names.splitName?_eq]
        exact Option.some_ne_none _
      rw [or_iff_left named, made]
      constructor
      · intro fixed pointed
        exact pathFor_ne_self_of_names stemGiven names pointed fixed
      · exact pathFor_eq_self_of_names stemGiven names
  refine ⟨?_, each⟩
  constructor
  · intro fixed
    obtain ⟨path, named⟩ := exists_named_pathFor given free
    exact ((each path).mp (fixed path)).resolve_right named
  · intro noPoint path
    exact (each path).mpr (.inl noPoint)

/-- Under an extension without points a path in capitals is left alone and a hidden file gets
    the extension; both stay then. -/
theorem pathFor_pathFor_eq_iff_without_points :
    bareExtension "..json" ≠ "" ∧ '/' ∉ "..json".toList ∧
      pathFor "..json" "plant.JSON" = "plant.JSON" ∧ pathFor "..json" ".exp/" = ".exp.json" ∧
      ∀ path, pathFor "..json" (pathFor "..json" path) = pathFor "..json" path := by
  have given : bareExtension "..json" ≠ "" := by decide +kernel
  have free : '/' ∉ "..json".toList := by decide +kernel
  exact ⟨given, free, by decide +kernel, by decide +kernel,
    (pathFor_pathFor_eq_iff given free).1.mpr (by decide +kernel)⟩

/-- Under an extension with a point the path of a document gets the extension once more. -/
theorem pathFor_pathFor_ne_of_point :
    bareExtension ".yaml.json" = "yaml.json" ∧
      pathFor ".yaml.json" "plant.exp" = "plant.yaml.json" ∧
      pathFor ".yaml.json" (pathFor ".yaml.json" "plant.exp") = "plant.yaml.yaml.json" ∧
      pathFor ".yaml.json" (pathFor ".yaml.json" "plant.exp") ≠
        pathFor ".yaml.json" "plant.exp" := by
  decide +kernel

end ExpressLinks.SchemaDocument
