import ExpressLinks.Proofs.Validation.Recording

/-!
# Workers and runs

However many workers there are, their runs make up the list of files again, and
every file has the outcome it would have without them. So the report does not
depend on the number of workers, the time of the report aside. With several
workers for several files no run is empty, and there are no more runs than
workers.
-/

namespace ExpressLinks.Validation

variable {α β : Type}

/-- The runs joined in order are the list. -/
theorem flatten_runs (size : Nat) (items : List α) : (runs size items).flatten = items := by
  fun_induction runs size items with
  | case1 => rfl
  | case2 item rest ih =>
      rw [List.flatten_cons, ih, List.cons_append, List.take_append_drop]

/-- A run has an element, and no more of them than asked for. -/
theorem length_of_mem_runs {size : Nat} {items run : List α} (positive : 0 < size)
    (member : run ∈ runs size items) : 0 < run.length ∧ run.length ≤ size := by
  fun_induction runs size items with
  | case1 => simp at member
  | case2 item rest ih =>
      rcases List.mem_cons.mp member with rfl | member
      · rw [List.length_cons, List.length_take]
        omega
      · exact ih member

/-- As many runs are enough as hold all the elements. -/
theorem length_runs_le {size count : Nat} {items : List α} (positive : 0 < size)
    (enough : items.length ≤ count * size) : (runs size items).length ≤ count := by
  induction count generalizing items with
  | zero =>
      obtain rfl : items = [] := List.eq_nil_of_length_eq_zero (by omega)
      simp [runs]
  | succ count ih =>
      cases items with
      | nil => simp [runs]
      | cons item rest =>
          rw [runs, List.length_cons]
          apply Nat.succ_le_succ
          apply ih
          rw [List.length_drop]
          rw [List.length_cons, Nat.succ_mul] at enough
          omega

/-- What is done to each run and joined is done to the list. -/
theorem flatten_map_runs (f : α → β) (size : Nat) (items : List α) :
    ((runs size items).map (List.map f)).flatten = items.map f := by
  rw [← List.map_flatten, flatten_runs]

theorem runSize_pos {count jobs : Nat} (given : 0 < count) (workers : 0 < jobs) :
    0 < runSize count jobs :=
  Nat.div_pos (by omega) workers

/-- Runs of that size, one for each worker, hold all elements. -/
theorem le_mul_runSize (count : Nat) {jobs : Nat} (workers : 0 < jobs) :
    count ≤ jobs * runSize count jobs := by
  have division := Nat.div_add_mod (count + jobs - 1) jobs
  have remainder := Nat.mod_lt (count + jobs - 1) workers
  unfold runSize
  omega

/-- The outcomes are those of the files in order, whoever looks at them. -/
theorem outcomes_eq_scan (corpus : Corpus) (jobs : Nat) (readings : List Reading) :
    outcomes corpus jobs readings = scan corpus readings := by
  unfold outcomes
  split
  · exact flatten_map_runs _ _ readings
  · rfl

/-- A report in terms of the outcomes of its files. -/
theorem report_eq_extend (corpus : Corpus) (jobs : Nat) (readings : List Reading)
    (timestamp : String) :
    report corpus jobs readings timestamp =
      (Report.new timestamp).extend readings.length
        ((scan corpus readings).map (·.resolved)).sum
        ((scan corpus readings).flatMap (·.skipped.toList))
        ((scan corpus readings).flatMap (·.unresolved)) := by
  rw [report, outcomes_eq_scan, FileOutcome.foldl_applyTo, scan, List.length_map]

/-- The number of workers changes nothing in the report. Where several workers share
    several files, the size of a run is not zero, the runs are the files again, each
    has at least one and no more than that size, and no worker has two. -/
theorem report_eq_sequential (corpus : Corpus) (jobs : Nat) (readings : List Reading)
    (timestamp sequential : String) :
    report corpus jobs readings timestamp =
        { report corpus 1 readings sequential with timestamp } ∧
      (1 < jobs ∧ 1 < readings.length →
        0 < runSize readings.length jobs ∧
        (runs (runSize readings.length jobs) readings).flatten = readings ∧
        (∀ run ∈ runs (runSize readings.length jobs) readings,
          0 < run.length ∧ run.length ≤ runSize readings.length jobs) ∧
        (runs (runSize readings.length jobs) readings).length ≤ jobs) := by
  refine ⟨?_, ?_⟩
  · rw [report_eq_extend, report_eq_extend]
    rfl
  · rintro ⟨workers, several⟩
    have positive := runSize_pos (Nat.zero_lt_of_lt several) (Nat.zero_lt_of_lt workers)
    refine ⟨positive, flatten_runs _ readings, fun run => length_of_mem_runs positive, ?_⟩
    exact length_runs_le positive (le_mul_runSize _ (Nat.zero_lt_of_lt workers))

/-- Four workers for five files: three runs are enough, and the last is shorter. -/
theorem report_eq_sequential_four_workers :
    let readings : List Reading :=
      [("a", .ok "<<express:s.x>>".toList), ("b", .error .notFound),
        ("a", .ok "<<express:s.x>>".toList), ("c", .ok []), ("d", .error .isDirectory)]
    (1 < 4 ∧ 1 < readings.length) ∧ runSize readings.length 4 = 2 ∧
      (runs (runSize readings.length 4) readings).map List.length = [2, 2, 1] ∧
      (runs (runSize readings.length 4) readings).flatten = readings ∧
      (runs (runSize readings.length 4) readings).length ≤ 4 := by
  intro readings
  have several : 1 < 4 ∧ 1 < readings.length := by decide
  obtain ⟨-, joined, -, enough⟩ := (report_eq_sequential .empty 4 readings "" "").2 several
  exact ⟨several, by simp [readings, runSize], by simp [readings, runs, runSize], joined, enough⟩

end ExpressLinks.Validation
