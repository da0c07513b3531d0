import ExpressLinks.Proofs.Corpus.Distinct
import ExpressLinks.Proofs.Simulation
import Mathlib.Data.List.Forall2

/-!
# Loading is all or nothing

Files are loaded in order up to the first that fails, and its error is the outcome,
whatever was loaded before it. If all load, the corpus is that of their schemas one after
the other, and only then can two schemas of one name be in the way. So a loader is asked
for every path up to the first that fails, once for each place at which it stands.
-/

namespace ExpressLinks.Corpus

open Schema (DistinctNames FirstRepeat)

/-- What loading a file gives. -/
abbrev Answer := Except CorpusError (List Schema)

/-- Every path loads, and `loaded` are the schemas of each. -/
def AllLoad (answer : String → Answer) (paths : List String) (loaded : List (List Schema)) :
    Prop :=
  List.Forall₂ (fun path schemas => answer path = .ok schemas) paths loaded

/-- The paths in `before` load, and `path`, which comes next, does not. -/
structure FirstFailure (answer : String → Answer) (paths before : List String) (path : String)
    (error : CorpusError) : Prop where
  listed : ∃ after, paths = before ++ path :: after
  earlier : ∃ loaded, AllLoad answer before loaded
  fails : answer path = .error error

/-- The loader answers from a state, and asking it does not change what it answers. -/
structure Steady {σ : Type} (loader : String → StateM σ Answer) (answer : σ → String → Answer)
    (visit : σ → String → σ) : Prop where
  answered : ∀ path state, loader path state = (answer state path, visit state path)
  kept : ∀ path state, answer (visit state path) = answer state

/-- A loader that answers by a function and keeps a list of the calls. -/
def recording (answer : String → Answer) (path : String) : StateM (List String) Answer := do
  modify (· ++ [path])
  return answer path

theorem steady_recording (answer : String → Answer) :
    Steady (recording answer) (fun _ => answer) (fun calls path => calls ++ [path]) where
  answered _ _ := rfl
  kept _ _ := rfl

/-- Either all paths load, or one of them is the first that does not. -/
theorem allLoad_or_firstFailure (answer : String → Answer) (paths : List String) :
    (∃ loaded, AllLoad answer paths loaded) ∨
      ∃ before path error, FirstFailure answer paths before path error := by
  induction paths with
  | nil => exact .inl ⟨[], .nil⟩
  | cons path rest ih =>
      cases answered : answer path with
      | error error => exact .inr ⟨[], path, error, ⟨rest, rfl⟩, ⟨[], .nil⟩, answered⟩
      | ok schemas =>
          rcases ih with ⟨loaded, others⟩ | ⟨before, later, error, first⟩
          · exact .inl ⟨schemas :: loaded, .cons answered others⟩
          · obtain ⟨⟨after, split⟩, ⟨loaded, earlier⟩, fails⟩ := first
            exact .inr ⟨path :: before, later, error, ⟨after, by rw [split, List.cons_append]⟩,
              ⟨schemas :: loaded, .cons answered earlier⟩, fails⟩

section Run

variable {σ : Type} {loader : String → StateM σ Answer} {answer : σ → String → Answer}
  {visit : σ → String → σ} {current : String → Answer} {paths before rest : List String}
  {path : String} {error : CorpusError} {loaded : List (List Schema)} {state after : σ}

/-- A file that fails ends the loading. -/
theorem loadSchemas_cons_error (asked : loader path state = (.error error, after)) :
    loadSchemas loader (path :: rest) state = (.error error, after) := by
  rw [loadSchemas, Simulation.bind_run, asked]
  rfl

/-- A file that loads comes before what the others give. -/
theorem loadSchemas_cons_ok {schemas : List Schema}
    (asked : loader path state = (.ok schemas, after)) :
    loadSchemas loader (path :: rest) state =
      ((loadSchemas loader rest after).1.map (schemas ++ ·),
        (loadSchemas loader rest after).2) := by
  rw [loadSchemas, Simulation.bind_run, asked]
  simp only [Simulation.bind_run]
  cases (loadSchemas loader rest after).1 with
  | error error => rfl
  | ok others => rfl

/-- Where all paths load, the loader is asked for each of them in order. -/
theorem Steady.loadSchemas_of_allLoad (steady : Steady loader answer visit)
    (now : answer state = current) (all : AllLoad current paths loaded) :
    loadSchemas loader paths state = (.ok loaded.flatten, paths.foldl visit state) := by
  induction all generalizing state with
  | nil => rfl
  | @cons path schemas rest others loads _ ih =>
      have asked := steady.answered path state
      rw [now, loads] at asked
      rw [loadSchemas_cons_ok asked, ih ((steady.kept path state).trans now)]
      rfl

/-- Where a path is the first that fails, the loader is asked up to it, and its error is
    the outcome. -/
theorem Steady.loadSchemas_of_firstFailure (steady : Steady loader answer visit)
    (now : answer state = current) (first : FirstFailure current paths before path error) :
    loadSchemas loader paths state = (.error error, (before ++ [path]).foldl visit state) := by
  obtain ⟨⟨after, rfl⟩, ⟨loaded, earlier⟩, fails⟩ := first
  induction earlier generalizing state with
  | nil =>
      have asked := steady.answered path state
      rw [now, fails] at asked
      rw [List.nil_append, loadSchemas_cons_error asked]
      rfl
  | @cons earlier schemas rest others loads _ ih =>
      have asked := steady.answered earlier state
      rw [now, loads] at asked
      rw [List.cons_append, loadSchemas_cons_ok asked, ih ((steady.kept earlier state).trans now)]
      rfl

theorem load_run (loader : String → StateM σ Answer) (paths : List String) (state : σ) :
    load loader paths state =
      ((loadSchemas loader paths state).1.bind ofSchemas, (loadSchemas loader paths state).2) := by
  rw [load, Simulation.bind_run]
  cases (loadSchemas loader paths state).1 with
  | error error => rfl
  | ok schemas => rfl

/-- If all paths load, the outcome is what their schemas make. -/
theorem Steady.load_of_allLoad (steady : Steady loader answer visit)
    (all : AllLoad (answer state) paths loaded) :
    load loader paths state = (ofSchemas loaded.flatten, paths.foldl visit state) := by
  rw [load_run, steady.loadSchemas_of_allLoad rfl all]
  rfl

theorem Steady.load_of_firstFailure (steady : Steady loader answer visit)
    (first : FirstFailure (answer state) paths before path error) :
    load loader paths state = (.error error, (before ++ [path]).foldl visit state) := by
  rw [load_run, steady.loadSchemas_of_firstFailure rfl first]
  rfl

/-- A corpus is loaded exactly when all paths load and their schemas have different
    names. -/
theorem Steady.exists_load_iff (steady : Steady loader answer visit) :
    (∃ corpus, (load loader paths state).1 = .ok corpus) ↔
      ∃ loaded, AllLoad (answer state) paths loaded ∧ DistinctNames loaded.flatten := by
  constructor
  · rintro ⟨corpus, success⟩
    rcases allLoad_or_firstFailure (answer state) paths with
      ⟨loaded, all⟩ | ⟨before, path, error, first⟩
    · rw [steady.load_of_allLoad all] at success
      exact ⟨loaded, all, exists_ofSchemas_iff.mp ⟨corpus, success⟩⟩
    · rw [steady.load_of_firstFailure first] at success
      cases success
  · rintro ⟨loaded, all, distinct⟩
    rw [steady.load_of_allLoad all]
    exact exists_ofSchemas_iff.mpr distinct

/-- What is loaded is a corpus of the schemas of all paths in order. -/
theorem Steady.allLoad_of_load (steady : Steady loader answer visit) {corpus : Corpus}
    (success : (load loader paths state).1 = .ok corpus) :
    ∃ loaded, AllLoad (answer state) paths loaded ∧ ofSchemas loaded.flatten = .ok corpus := by
  obtain ⟨loaded, all, -⟩ := steady.exists_load_iff.mp ⟨corpus, success⟩
  rw [steady.load_of_allLoad all] at success
  exact ⟨loaded, all, success⟩

/-- Loading fails for the first path that does not load, and for two schemas of one name
    only where all paths load. -/
theorem Steady.load_eq_error_iff (steady : Steady loader answer visit) :
    (load loader paths state).1 = .error error ↔
      (∃ before path, FirstFailure (answer state) paths before path error) ∨
      ∃ loaded first second, AllLoad (answer state) paths loaded ∧
        FirstRepeat loaded.flatten first second ∧ error = .duplicate first.id second.id := by
  constructor
  · intro failed
    rcases allLoad_or_firstFailure (answer state) paths with
      ⟨loaded, all⟩ | ⟨before, path, other, first⟩
    · rw [steady.load_of_allLoad all] at failed
      obtain ⟨first, second, repeated, shown⟩ := ofSchemas_eq_error_iff.mp failed
      exact .inr ⟨loaded, first, second, all, repeated, shown⟩
    · rw [steady.load_of_firstFailure first] at failed
      cases failed
      exact .inl ⟨before, path, first⟩
  · rintro (⟨before, path, first⟩ | ⟨loaded, first, second, all, repeated, shown⟩)
    · rw [steady.load_of_firstFailure first]
    · rw [steady.load_of_allLoad all]
      exact ofSchemas_eq_error_iff.mpr ⟨first, second, repeated, shown⟩

end Run

theorem foldl_append_singleton (calls paths : List String) :
    paths.foldl (fun calls path => calls ++ [path]) calls = calls ++ paths := by
  induction paths generalizing calls with
  | nil => simp
  | cons path rest ih => rw [List.foldl_cons, ih, List.append_assoc, List.singleton_append]

/-- A corpus is loaded exactly when every path loads and all their schemas have different
    names; it holds the schemas of the first path, then those of the second, and so on.
    The error is that of the first path that does not load, and a repeated name is one only
    where all paths load. The loader is asked for the paths in order, once for each place
    in the list, up to the first that does not load. -/
theorem load_all_or_first_failure (answer : String → Answer) (paths calls : List String) :
    let run := load (recording answer) paths calls
    ((∃ corpus, run.1 = .ok corpus) ↔
      ∃ loaded, AllLoad answer paths loaded ∧ DistinctNames loaded.flatten) ∧
    (∀ loaded corpus, AllLoad answer paths loaded → run.1 = .ok corpus →
      corpus.schemas = loaded.flatten) ∧
    (∀ error, run.1 = .error error ↔
      (∃ before path, FirstFailure answer paths before path error) ∨
      ∃ loaded first second, AllLoad answer paths loaded ∧
        FirstRepeat loaded.flatten first second ∧ error = .duplicate first.id second.id) ∧
    (∀ loaded, AllLoad answer paths loaded → run.2 = calls ++ paths) ∧
    (∀ before path error, FirstFailure answer paths before path error →
      run.2 = calls ++ (before ++ [path])) := by
  have steady := steady_recording answer
  refine ⟨steady.exists_load_iff, ?_, fun error => steady.load_eq_error_iff, ?_, ?_⟩
  · intro loaded corpus all success
    rw [steady.load_of_allLoad all] at success
    exact (ofSchemas_ok success).2
  · intro loaded all
    rw [steady.load_of_allLoad all, foldl_append_singleton]
  · intro before path error first
    rw [steady.load_of_firstFailure first, foldl_append_singleton]

/-- A file that fails is reported although a name is repeated before it, and files behind
    it are not asked for. Without it the repeated name is reported; a file may stand in
    the list again if it declares nothing. -/
theorem load_first_failure_behind_repeat :
    let plant : Schema := { id := "Plant" }
    let cell : Schema := { id := "Cell" }
    let again : Schema := { id := "PLANT" }
    let broken : CorpusError := .malformed "c.exp" "no list of schemas"
    let answer : String → Answer := fun path =>
      if path = "a.exp" then .ok [plant]
      else if path = "b.exp" then .ok [cell, again]
      else if path = "c.exp" then .error broken
      else .ok []
    FirstFailure answer ["a.exp", "b.exp", "c.exp", "a.exp"] ["a.exp", "b.exp"] "c.exp" broken ∧
    load (recording answer) ["a.exp", "b.exp", "c.exp", "a.exp"] ["d.exp"] =
      (.error broken, ["d.exp", "a.exp", "b.exp", "c.exp"]) ∧
    (load (recording answer) ["a.exp", "b.exp"] []).1 = .error (.duplicate "Plant" "PLANT") ∧
    ∃ corpus, (load (recording answer) ["d.exp", "b.exp", "d.exp"] []).1 = .ok corpus ∧
      corpus.schemas = [cell, again] := by
  intro plant cell again broken answer
  have before : AllLoad answer ["a.exp", "b.exp"] [[plant], [cell, again]] :=
    .cons rfl (.cons rfl .nil)
  have first : FirstFailure answer ["a.exp", "b.exp", "c.exp", "a.exp"] ["a.exp", "b.exp"]
      "c.exp" broken := ⟨⟨["a.exp"], rfl⟩, ⟨_, before⟩, rfl⟩
  have all : AllLoad answer ["d.exp", "b.exp", "d.exp"] [[], [cell, again], []] :=
    .cons rfl (.cons rfl (.cons rfl .nil))
  have alone : DistinctNames [plant, cell] := by
    unfold DistinctNames
    decide
  have different : DistinctNames [cell, again] := by
    unfold DistinctNames
    decide
  obtain ⟨-, -, fails, -, asked⟩ :=
    load_all_or_first_failure answer ["a.exp", "b.exp", "c.exp", "a.exp"] ["d.exp"]
  obtain ⟨-, -, repeats, -⟩ := load_all_or_first_failure answer ["a.exp", "b.exp"] []
  obtain ⟨succeeds, holds, -⟩ := load_all_or_first_failure answer ["d.exp", "b.exp", "d.exp"] []
  refine ⟨first, Prod.ext ((fails broken).mpr (.inl ⟨_, _, first⟩)) (asked _ _ _ first), ?_, ?_⟩
  · have repeated : FirstRepeat [plant, cell, again] plant again :=
      ⟨[plant, cell], [], rfl, alone, by decide⟩
    exact (repeats _).mpr (.inr ⟨_, plant, again, before, repeated, rfl⟩)
  · obtain ⟨corpus, success⟩ := succeeds.mpr ⟨_, all, different⟩
    exact ⟨corpus, success, holds _ corpus all success⟩

end ExpressLinks.Corpus
