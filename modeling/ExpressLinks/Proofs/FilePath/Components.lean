import Mathlib.Data.List.Basic
import ExpressLinks.FilePath
import ExpressLinks.Proofs.Text.Pieces

/-!
# Components of a path

A path is cut at its slashes. Pieces without letters count for nothing, and a single point
counts only where the path begins with it. A name joined to a path is one component more,
whether or not the path ends in a slash; so names joined one after the other can be read off
the path again.
-/

namespace ExpressLinks.FilePath

/-- A name that an entry of a directory can have. -/
structure IsName (name : String) : Prop where
  ne_empty : name ≠ ""
  ne_point : name ≠ "."
  ne_points : name ≠ ".."
  slash_free : '/' ∉ name.toList

instance (name : String) : Decidable (IsName name) :=
  decidable_of_iff (name ≠ "" ∧ name ≠ "." ∧ name ≠ ".." ∧ '/' ∉ name.toList)
    ⟨fun h => ⟨h.1, h.2.1, h.2.2.1, h.2.2.2⟩,
      fun h => ⟨h.ne_empty, h.ne_point, h.ne_points, h.slash_free⟩⟩

/-- The components of a path; the root is one of its own. -/
def components (path : String) : List String :=
  match Text.splitString '/' path with
  | [] => []
  | first :: rest =>
      (if isAbsolute path then ["/"] else [first].filter (· ≠ "")) ++
        rest.filter fun piece => piece ≠ "" ∧ piece ≠ "."

/-- The path that goes on from `root` through the names. -/
def descend (root : String) (names : List String) : String := names.foldl join root

@[simp] theorem descend_nil (root : String) : descend root [] = root := rfl

@[simp] theorem descend_cons (root name : String) (names : List String) :
    descend root (name :: names) = descend (join root name) names := rfl

variable {base name root : String} {names others : List String}

theorem IsName.not_isAbsolute (named : IsName name) : isAbsolute name = false := by
  cases letters : name.toList with
  | nil => simp [isAbsolute, letters]
  | cons c rest =>
      have other : c ≠ '/' := by
        intro slash
        apply named.slash_free
        rw [letters, slash]
        exact List.mem_cons_self
      simpa [isAbsolute, letters] using other

theorem IsName.join_ne_empty (named : IsName name) (base : String) : join base name ≠ "" := by
  intro empty
  unfold join at empty
  split_ifs at empty
  · exact named.ne_empty empty
  · exact named.ne_empty (String.append_eq_empty_iff.mp empty).2
  · exact named.ne_empty (String.append_eq_empty_iff.mp empty).2

/-- A name is put behind the pieces of a path; a slash at the end of the path is the one in
    front of the name. -/
theorem exists_splitString_join (named : IsName name) (given : base ≠ "") :
    ∃ front, front ≠ [] ∧
      (Text.splitString '/' base = front ∨ Text.splitString '/' base = front ++ [""]) ∧
      Text.splitString '/' (join base name) = front ++ [name] := by
  have nonempty : ∀ path, Text.splitString '/' path ≠ [] := by
    intro path
    simp [Text.splitString, Text.splitAt_ne_nil]
  have whole : Text.splitString '/' name = [name] := Text.splitString_of_not_mem named.slash_free
  by_cases ended : base.toList.getLast? = some '/'
  · obtain ⟨letters, letters_eq⟩ := List.getLast?_eq_some_iff.mp ended
    have base_eq : base = String.ofList letters ++ "/" := by
      rw [← String.toList_inj, letters_eq]
      simp
    have cut : Text.splitString '/' base =
        Text.splitString '/' (String.ofList letters) ++ [""] := by
      have joined := Text.splitString_append '/' (String.ofList letters) ""
      rw [String.append_empty] at joined
      rw [base_eq]
      exact joined
    refine ⟨Text.splitString '/' (String.ofList letters), nonempty _, .inr cut, ?_⟩
    rw [join, if_neg (by simp [named.not_isAbsolute]), if_pos (.inr ended), base_eq]
    exact (Text.splitString_append '/' (String.ofList letters) name).trans (by rw [whole])
  · refine ⟨Text.splitString '/' base, nonempty base, .inl rfl, ?_⟩
    rw [join, if_neg (by simp [named.not_isAbsolute]), if_neg (by simp [given, ended])]
    exact (Text.splitString_append '/' base name).trans (by rw [whole])

theorem isAbsolute_join (named : IsName name) (given : base ≠ "") :
    isAbsolute (join base name) = isAbsolute base := by
  obtain ⟨c, rest, letters⟩ : ∃ c rest, base.toList = c :: rest :=
    List.exists_cons_of_ne_nil (by simpa using given)
  rw [join, if_neg (by simp [named.not_isAbsolute])]
  split_ifs <;> simp [isAbsolute, letters]

theorem components_join (named : IsName name) (base : String) :
    components (join base name) = components base ++ [name] := by
  have kept : ([name].filter fun piece => piece ≠ "" ∧ piece ≠ ".") = [name] := by
    simp [named.ne_empty, named.ne_point]
  by_cases empty : base = ""
  · have cut : Text.splitString '/' name = [name] := Text.splitString_of_not_mem named.slash_free
    have joined : join base name = name := by
      rw [join, if_neg (by simp [named.not_isAbsolute]), if_pos (.inl empty), empty,
        String.empty_append]
    have none : components "" = [] := rfl
    rw [joined, empty, none, components, cut, named.not_isAbsolute]
    simp [named.ne_empty]
  · obtain ⟨front, given, before, after⟩ := exists_splitString_join named empty
    obtain ⟨first, rest, rfl⟩ := List.exists_cons_of_ne_nil given
    rw [components, components, after, isAbsolute_join named empty]
    rcases before with cut | cut
    · simp only [cut, List.cons_append, List.filter_append, kept, List.append_assoc]
    · simp only [cut, List.cons_append, List.filter_append, kept, List.append_assoc]
      simp

/-- The names joined to a path are its last components. -/
theorem components_descend (named : ∀ name ∈ names, IsName name) (root : String) :
    components (descend root names) = components root ++ names := by
  induction names generalizing root with
  | nil => simp
  | cons name names ih =>
      have own := named name List.mem_cons_self
      have later := ih fun other member => named other (List.mem_cons_of_mem name member)
      rw [descend_cons, later, components_join own, List.append_assoc, List.singleton_append]

/-- Different names lead to different paths. -/
theorem descend_inj (named : ∀ name ∈ names, IsName name) (named' : ∀ name ∈ others, IsName name) :
    descend root names = descend root others ↔ names = others := by
  constructor
  · intro same
    have parts := congrArg components same
    rwa [components_descend named, components_descend named', List.append_cancel_left_eq] at parts
  · rintro rfl
    rfl

end ExpressLinks.FilePath
