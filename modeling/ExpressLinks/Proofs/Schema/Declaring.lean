import Mathlib.Data.List.Basic
import ExpressLinks.Proofs.Schema.Lookup

/-!
# Declaring one thing after another

A schema is built by declaring elements, each of which goes to the end of the collection of
its kind. What was declared under a kind therefore stands there in the order in which it was
declared, and a name that was found before is found again, unless something of that name is
declared under a kind that is searched earlier.
-/

namespace ExpressLinks

namespace ElementKind

/-- The place of the kind in the search order. -/
def rank (kind : ElementKind) : Nat := searchOrder.idxOf kind

theorem mem_searchOrder (kind : ElementKind) : kind ∈ searchOrder := by
  cases kind <;> simp [searchOrder]

end ElementKind

/-- Among the added, `element` is the first of its kind that bears the name. -/
def FirstAdded (added : List Element) (name : String) (element : Element) : Prop :=
  ∃ before after, added = before ++ element :: after ∧ Ident.same element.id name ∧
    ∀ other ∈ before, other.kind = element.kind → ¬ Ident.same other.id name

namespace Schema

/-- Declares an element under its kind. -/
def declare (schema : Schema) : Element → Schema
  | .entity entity => schema.withEntity entity
  | .type type => schema.withType type
  | .named kind declaration => schema.withDeclaration kind declaration.id

/-- Declares elements one after another. -/
def declareAll (schema : Schema) (added : List Element) : Schema := added.foldl declare schema

variable {schema : Schema} {element : Element} {added : List Element} {kind : ElementKind}
  {name : String}

/-- A declaration goes to the end of the collection of its kind. -/
theorem members_declare (schema : Schema) (element : Element) (kind : ElementKind) :
    (schema.declare element).members kind =
      schema.members kind ++ [element].filter (·.kind = kind) := by
  cases element with
  | entity entity => cases kind <;> simp [declare, withEntity, members, Element.kind]
  | type type => cases kind <;> simp [declare, withType, members, Element.kind]
  | named opaqueKind declaration =>
      cases opaqueKind <;> cases kind <;>
        simp [declare, withDeclaration, members, Element.kind, OpaqueKind.toElementKind]

/-- What is declared stands behind what was there, kind by kind and in its order. -/
theorem members_declareAll (schema : Schema) (added : List Element) (kind : ElementKind) :
    (schema.declareAll added).members kind =
      schema.members kind ++ added.filter (·.kind = kind) := by
  unfold declareAll
  induction added generalizing schema with
  | nil => simp
  | cons element rest ih =>
      rw [List.foldl_cons, ih, members_declare, List.append_assoc, ← List.filter_append]
      rfl

@[simp] theorem id_declareAll (schema : Schema) (added : List Element) :
    (schema.declareAll added).id = schema.id := by
  unfold declareAll
  induction added generalizing schema with
  | nil => rfl
  | cons element rest ih =>
      rw [List.foldl_cons, ih]
      cases element with
      | entity entity => rfl
      | type type => rfl
      | named opaqueKind declaration => cases opaqueKind <;> rfl

theorem elementCount_declare (schema : Schema) (element : Element) :
    (schema.declare element).elementCount = schema.elementCount + 1 := by
  cases element with
  | entity entity =>
      simp only [declare, withEntity, elementCount, List.length_append, List.length_singleton]
      omega
  | type type =>
      simp only [declare, withType, elementCount, List.length_append, List.length_singleton]
      omega
  | named opaqueKind declaration =>
      cases opaqueKind <;>
        simp only [declare, withDeclaration, elementCount, List.length_append,
          List.length_singleton] <;>
        omega

/-- Every declaration counts once. -/
theorem elementCount_declareAll (schema : Schema) (added : List Element) :
    (schema.declareAll added).elementCount = schema.elementCount + added.length := by
  unfold declareAll
  induction added generalizing schema with
  | nil => rfl
  | cons element rest ih =>
      rw [List.foldl_cons, ih, elementCount_declare, List.length_cons]
      omega

theorem findIn?_eq_none_iff :
    schema.findIn? kind name = none ↔
      ∀ other ∈ schema.members kind, ¬ Ident.same other.id name := by
  simp [findIn?]

/-- What is a member of a kind is of that kind. -/
theorem kind_of_mem_members (member : element ∈ schema.members kind) : element.kind = kind := by
  cases kind <;> simp only [members, List.mem_map] at member <;> obtain ⟨_, _, rfl⟩ := member <;>
    rfl

theorem kind_of_findIn? (found : schema.findIn? kind name = some element) : element.kind = kind :=
  kind_of_mem_members (List.mem_of_find?_eq_some found)

/-- A name refers to an element if it does so within the kind of the element and within no
    kind that is searched earlier. -/
theorem findElement?_eq_some_iff_findIn? :
    schema.findElement? name = some element ↔
      schema.findIn? element.kind name = some element ∧
        ∀ kind, kind.rank < element.kind.rank → schema.findIn? kind name = none := by
  rw [findElement?, List.findSome?_eq_some_iff]
  constructor
  · rintro ⟨earlier, kind, later, order, found, missing⟩
    obtain rfl := kind_of_findIn? found
    refine ⟨found, ?_⟩
    intro other before
    by_cases early : other ∈ earlier
    · exact missing other early
    · have here : element.kind ∉ earlier := by
        intro member
        simp [missing _ member] at found
      unfold ElementKind.rank at before
      rw [order, List.idxOf_append_of_notMem early, List.idxOf_append_of_notMem here,
        List.idxOf_cons_self] at before
      omega
  · rintro ⟨found, missing⟩
    obtain ⟨earlier, later, order, absent⟩ :=
      List.eq_append_cons_of_mem (ElementKind.mem_searchOrder element.kind)
    refine ⟨earlier, element.kind, later, order, found, ?_⟩
    intro other member
    apply missing
    unfold ElementKind.rank
    rw [order, List.idxOf_append_of_mem member, List.idxOf_append_of_notMem absent,
      List.idxOf_cons_self]
    exact Nat.lt_of_lt_of_le (List.idxOf_lt_length_iff.mpr member) (Nat.le_add_right _ _)

/-- What is found within a kind is found there after more declarations. -/
theorem findIn?_declareAll_of_some (found : schema.findIn? kind name = some element)
    (added : List Element) : (schema.declareAll added).findIn? kind name = some element := by
  unfold findIn? at found ⊢
  rw [members_declareAll, List.find?_append, found]
  rfl

/-- What is not found within a kind is not found there after declarations of other names or
    other kinds. -/
theorem findIn?_declareAll_of_none (missing : schema.findIn? kind name = none)
    (others : ∀ other ∈ added, other.kind = kind → ¬ Ident.same other.id name) :
    (schema.declareAll added).findIn? kind name = none := by
  rw [findIn?_eq_none_iff] at missing ⊢
  intro other member
  rw [members_declareAll, List.mem_append, List.mem_filter] at member
  rcases member with old | ⟨new, ofKind⟩
  · exact missing other old
  · exact others other new (by simpa using ofKind)

/-- A name refers to the same element after declarations that do not bear it under a kind
    searched earlier. -/
theorem findElement?_declareAll_of_some (found : schema.findElement? name = some element)
    (behind : ∀ other ∈ added, Ident.same other.id name → element.kind.rank ≤ other.kind.rank) :
    (schema.declareAll added).findElement? name = some element := by
  rw [findElement?_eq_some_iff_findIn?] at found ⊢
  obtain ⟨here, missing⟩ := found
  refine ⟨findIn?_declareAll_of_some here added, ?_⟩
  intro kind before
  apply findIn?_declareAll_of_none (missing kind before)
  rintro other new rfl same
  exact absurd before (Nat.not_lt.mpr (behind other new same))

/-- Looking for a type is looking for an element among the types. -/
theorem map_findType? (schema : Schema) (name : String) :
    (schema.findType? name).map .type = schema.findIn? .type name := by
  simp only [findType?, findIn?, members, List.find?_map]
  rfl

theorem findType?_declareAll_of_some {type : TypeDecl} (found : schema.findType? name = some type)
    (added : List Element) : (schema.declareAll added).findType? name = some type := by
  have here : schema.findIn? .type name = some (.type type) := by
    rw [← map_findType?, found]
    rfl
  have kept := findIn?_declareAll_of_some here added
  rw [← map_findType?, Option.map_eq_some_iff] at kept
  obtain ⟨_, still, ⟨⟩⟩ := kept
  exact still

/-- The first of its kind to bear a name stands first under the name among those of its
    kind. -/
theorem firstAdded_iff_firstNamed :
    FirstAdded added name element ↔
      FirstNamed Element.id name (added.filter (·.kind = element.kind)) element := by
  constructor
  · rintro ⟨before, after, rfl, same, others⟩
    refine ⟨before.filter (·.kind = element.kind), after.filter (·.kind = element.kind), ?_, same,
      ?_⟩
    · simp
    · intro other member
      obtain ⟨earlier, ofKind⟩ := List.mem_filter.mp member
      exact others other earlier (by simpa using ofKind)
  · rintro ⟨before, after, split, same, others⟩
    -- those of other kinds between `before` and the element are not in the way
    obtain ⟨front, rest, rfl, rfl, split'⟩ := List.filter_eq_append_iff.mp split
    obtain ⟨between, behind, rfl, otherKinds, -, -⟩ := List.filter_eq_cons_iff.mp split'
    refine ⟨front ++ between, behind, by simp, same, ?_⟩
    intro other member sameKind
    rcases List.mem_append.mp member with early | late
    · exact others other (List.mem_filter.mpr ⟨early, by simpa using sameKind⟩)
    · exact absurd (by simpa using sameKind) (otherKinds other late)

section Empty

variable {id : String}

/-- Nothing is declared in an empty schema. -/
@[simp] theorem members_empty (id : String) (kind : ElementKind) :
    (empty id).members kind = [] := by
  cases kind <;> rfl

theorem members_empty_declareAll (id : String) (added : List Element) (kind : ElementKind) :
    ((empty id).declareAll added).members kind = added.filter (·.kind = kind) := by
  rw [members_declareAll, members_empty, List.nil_append]

theorem findIn?_empty_declareAll_eq_some_iff :
    ((empty id).declareAll added).findIn? kind name = some element ↔
      element.kind = kind ∧ FirstAdded added name element := by
  rw [firstAdded_iff_firstNamed]
  constructor
  · intro found
    obtain rfl := kind_of_findIn? found
    rw [findIn?, members_empty_declareAll, find?_same_eq_some_iff] at found
    exact ⟨rfl, found⟩
  · rintro ⟨rfl, first⟩
    rw [findIn?, members_empty_declareAll, find?_same_eq_some_iff]
    exact first

theorem findIn?_empty_declareAll_eq_none_iff :
    ((empty id).declareAll added).findIn? kind name = none ↔
      ∀ other ∈ added, Ident.same other.id name → other.kind ≠ kind := by
  rw [findIn?_eq_none_iff, members_empty_declareAll]
  constructor
  · intro missing other member same ofKind
    exact missing other (List.mem_filter.mpr ⟨member, by simpa using ofKind⟩) same
  · intro missing other member same
    obtain ⟨new, ofKind⟩ := List.mem_filter.mp member
    exact missing other new same (by simpa using ofKind)

/-- A schema that is built from nothing counts what was declared, and holds it kind by kind in
    the order in which it was declared. Within a kind a name refers to the first declaration
    of the kind that bears it. Among all kinds it refers to the first one of the kind that is
    searched first, which is the first in the list of all declarations, collection after
    collection; and looking for a type is looking for an element among the types. -/
theorem declareAll_finds_earliest (id : String) (added : List Element) :
    let schema := (empty id).declareAll added
    schema.elementCount = added.length ∧
      (∀ kind, schema.members kind = added.filter (·.kind = kind)) ∧
      (∀ kind name element, schema.findIn? kind name = some element ↔
        element.kind = kind ∧ FirstAdded added name element) ∧
      (∀ name element, schema.findElement? name = some element ↔
        FirstAdded added name element ∧
          ∀ other ∈ added, Ident.same other.id name → element.kind.rank ≤ other.kind.rank) ∧
      (∀ name, schema.findElement? name =
        schema.elements.find? fun element => Ident.same element.id name) ∧
      ∀ name, (schema.findType? name).map .type = schema.findIn? .type name := by
  refine ⟨?_, members_empty_declareAll id added, ?_, ?_, findElement?_eq_find?_elements _,
    map_findType? _⟩
  · rw [elementCount_declareAll]
    exact Nat.zero_add _
  · intro kind name element
    exact findIn?_empty_declareAll_eq_some_iff
  · intro name element
    rw [findElement?_eq_some_iff_findIn?, findIn?_empty_declareAll_eq_some_iff]
    simp only [findIn?_empty_declareAll_eq_none_iff, true_and]
    apply and_congr_right'
    constructor
    · intro missing other member same
      by_contra before
      exact missing other.kind (Nat.lt_of_not_le before) other member same rfl
    · rintro behind kind before other member same rfl
      exact absurd before (Nat.not_lt.mpr (behind other member same))

end Empty

end Schema

end ExpressLinks
