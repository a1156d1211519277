import LinkedProof.Proofs.Check
import Mathlib.Data.List.Induction

/-! Calls that several workers carry out: their steps come in any order, and the state that one of
them leaves is the one that the next step of any check begins in. One worker alone is the schedule
that takes both steps of each check in a row. -/
namespace LinkedProof.Verification

variable {σ : Type} {table : CurveTable} {fetch : Fetcher σ} {suites : SuiteTable σ} {d : Document}
  {s t : σ} {schedule : List Nat} {i j : Nat} {proof : Members} {c : Progress σ}

def reached (table : CurveTable) (fetch : Fetcher σ) (suites : SuiteTable σ) (d : Document) (s : σ)
    (schedule : List Nat) : σ := (pooled table fetch suites d s schedule).state

section Steps

/-- What a schedule has made of a check: nothing yet, what its first step found, or what its first
step or its second one ended with. -/
inductive Stands (table : CurveTable) (fetch : Fetcher σ) (suites : SuiteTable σ) (d : Document)
    (s : σ) (schedule : List Nat) (i : Nat) (proof : Members) : Progress σ → Prop
  | waiting (unmoved : i ∉ schedule) : Stands table fetch suites d s schedule i proof .waiting
  | keyed {before after : List Nat} {k : Keyed σ} {t : σ}
    (steps : schedule = before ++ i :: after) (first : i ∉ before) (only : i ∉ after)
    (opened : (fetchKey fetch suites proof).Ends (reached table fetch suites d s before)
      (.ok k) t) : Stands table fetch suites d s schedule i proof (.keyed k)
  | refused {before after : List Nat} {failure : Failure} {t : σ}
    (steps : schedule = before ++ i :: after) (first : i ∉ before)
    (stopped : (fetchKey fetch suites proof).Ends (reached table fetch suites d s before)
      (.error failure) t) :
    Stands table fetch suites d s schedule i proof (.ended (concluded i proof (.error failure)))
  | checked {before between after : List Nat} {k : Keyed σ} {o : Outcome Unit} {t u : σ}
    (steps : schedule = before ++ i :: (between ++ i :: after)) (first : i ∉ before)
    (second : i ∉ between)
    (opened : (fetchKey fetch suites proof).Ends (reached table fetch suites d s before)
      (.ok k) t)
    (ended : (checkSignature table d i proof k).Ends
      (reached table fetch suites d s (before ++ i :: between)) o u) :
    Stands table fetch suites d s schedule i proof (.ended (concluded i proof o))

/-- A check that has ended did so at its first step or at its second one. -/
theorem Stands.ended_cases {o : Outcome Verdict}
    (so : Stands table fetch suites d s schedule i proof (.ended o)) :
    (∃ before after failure t, schedule = before ++ i :: after ∧ i ∉ before ∧
      (fetchKey fetch suites proof).Ends (reached table fetch suites d s before)
        (.error failure) t ∧ o = concluded i proof (.error failure)) ∨
    ∃ before between after k o' t u, schedule = before ++ i :: (between ++ i :: after) ∧
      i ∉ before ∧ i ∉ between ∧
      (fetchKey fetch suites proof).Ends (reached table fetch suites d s before) (.ok k) t ∧
      (checkSignature table d i proof k).Ends
        (reached table fetch suites d s (before ++ i :: between)) o' u ∧
      o = concluded i proof o' := by
  generalize whole : Progress.ended o = c at so
  cases so with
  | waiting => cases whole
  | keyed => cases whole
  | refused steps first stopped =>
    exact .inl ⟨_, _, _, _, steps, first, stopped, Progress.ended.inj whole⟩
  | checked steps first second opened ended =>
    exact .inr ⟨_, _, _, _, _, _, _, steps, first, second, opened, ended,
      Progress.ended.inj whole⟩

theorem advance_keyed {k : Keyed σ}
    (opened : (fetchKey fetch suites proof).Ends s (.ok k) t) :
    advance table fetch suites d i proof .waiting s = (.keyed k, t) := by
  rw [Action.Ends] at opened
  rw [advance, opened]

theorem advance_refused {failure : Failure}
    (stopped : (fetchKey fetch suites proof).Ends s (.error failure) t) :
    advance table fetch suites d i proof .waiting s =
      (.ended (concluded i proof (.error failure)), t) := by
  rw [Action.Ends] at stopped
  rw [advance, stopped]

theorem advance_checked {k : Keyed σ} {o : Outcome Unit}
    (ended : (checkSignature table d i proof k).Ends s o t) :
    advance table fetch suites d i proof (.keyed k) s = (.ended (concluded i proof o), t) := by
  rw [Action.Ends] at ended
  rw [advance, ended]

theorem Stands.other (stands : Stands table fetch suites d s schedule i proof c) (other : i ≠ j) :
    Stands table fetch suites d s (schedule ++ [j]) i proof c := by
  have apart {steps : List Nat} (unmoved : i ∉ steps) : i ∉ steps ++ [j] := by
    simp [unmoved, other]
  cases stands with
  | waiting unmoved => exact .waiting (apart unmoved)
  | keyed steps first only opened => exact .keyed (by simp [steps]) first (apart only) opened
  | @refused before after _ _ steps first stopped =>
    exact .refused (show _ = before ++ i :: (after ++ [j]) by simp [steps]) first stopped
  | @checked before between after _ _ _ _ steps first second opened ended =>
    exact .checked (show _ = before ++ i :: (between ++ i :: (after ++ [j])) by simp [steps]) first
      second opened ended

theorem Stands.step (stands : Stands table fetch suites d s schedule i proof c) :
    Stands table fetch suites d s (schedule ++ [i]) i proof
      (advance table fetch suites d i proof c (reached table fetch suites d s schedule)).1 := by
  cases stands with
  | waiting unmoved =>
    obtain ⟨o, t, opened⟩ :=
      Action.ends_some (fetchKey fetch suites proof) (reached table fetch suites d s schedule)
    cases o with
    | ok k =>
      rw [advance_keyed opened]
      exact .keyed rfl unmoved List.not_mem_nil opened
    | error failure =>
      rw [advance_refused opened]
      exact .refused rfl unmoved opened
  | @keyed before after k _ steps first only opened =>
    obtain ⟨o, t, ended⟩ :=
      Action.ends_some (checkSignature table d i proof k) (reached table fetch suites d s schedule)
    rw [advance_checked ended]
    rw [steps] at ended
    exact .checked (show _ = before ++ i :: (after ++ i :: []) by simp [steps]) first only opened
      ended
  | @refused before after _ _ steps first stopped =>
    exact .refused (show _ = before ++ i :: (after ++ [i]) by simp [steps]) first stopped
  | @checked before between after _ _ _ _ steps first second opened ended =>
    exact .checked (show _ = before ++ i :: (between ++ i :: (after ++ [i])) by simp [steps]) first
      second opened ended

variable {pool : Pool σ}

theorem step_own (stands : d.proofs[i]? = some proof) (found : pool.checks[i]? = some c) :
    pool.step table fetch suites d i =
      ⟨pool.checks.set i (advance table fetch suites d i proof c pool.state).1,
        (advance table fetch suites d i proof c pool.state).2⟩ := by
  rw [Pool.step, stands, found]

theorem step_other (other : i ≠ j) :
    (pool.step table fetch suites d j).checks[i]? = pool.checks[i]? := by
  unfold Pool.step
  split
  · exact List.getElem?_set_ne other.symm
  · rfl

theorem pooled_concat (s : σ) (schedule : List Nat) (j : Nat) :
    pooled table fetch suites d s (schedule ++ [j]) =
      (pooled table fetch suites d s schedule).step table fetch suites d j := List.foldl_concat ..

/-- After every schedule each check stands where its own steps have brought it. -/
theorem stands_of_schedule (stands : d.proofs[i]? = some proof) (s : σ) (schedule : List Nat) :
    ∃ c, (pooled table fetch suites d s schedule).checks[i]? = some c ∧
      Stands table fetch suites d s schedule i proof c := by
  -- Only the check that the last step belongs to moves, and the states before it stay as they were.
  induction schedule using List.reverseRecOn with
  | nil =>
    refine ⟨.waiting, ?_, .waiting List.not_mem_nil⟩
    change (d.proofs.map fun _ => Progress.waiting)[i]? = _
    rw [List.getElem?_map, stands]
    rfl
  | append_singleton schedule j ih =>
    obtain ⟨c, found, so⟩ := ih
    rw [pooled_concat]
    by_cases same : i = j
    · subst same
      refine ⟨_, ?_, so.step⟩
      rw [step_own stands found]
      exact List.getElem?_set_self (List.getElem?_eq_some_iff.mp found).1
    · refine ⟨c, ?_, so.other same⟩
      rwa [step_other same]

end Steps

section Results

variable {pool : Pool σ} {r : Outcome (List Verdict)} {verdicts : List Verdict} {failure : Failure}

private theorem outcome?_eq_some {o : Outcome Verdict} : c.outcome? = some o ↔ c = .ended o := by
  cases c <;> simp [Progress.outcome?]

private theorem outcomes_eq_some {checks : List (Progress σ)} {outcomes : List (Outcome Verdict)} :
    checks.mapM Progress.outcome? = some outcomes ↔ checks = outcomes.map .ended := by
  induction checks generalizing outcomes with
  | nil => cases outcomes <;> simp
  | cons c rest ih =>
    simp only [List.mapM_cons, bind, pure, Option.bind_eq_some_iff, outcome?_eq_some, ih]
    constructor
    · rintro ⟨o, rfl, others, rfl, same⟩
      obtain rfl := Option.some.inj same
      rfl
    · intro same
      cases outcomes with
      | nil => cases same
      | cons o others =>
        obtain ⟨rfl, rfl⟩ := List.cons.inj same
        exact ⟨o, rfl, others, rfl, rfl⟩

theorem result?_eq_some : pool.result? = some r ↔ ∃ outcomes : List (Outcome Verdict),
    pool.checks = outcomes.map .ended ∧ outcomes.mapM id = r := by
  simp [Pool.result?, outcomes_eq_some]

private theorem sequence_ok {α : Type} {os : List (Outcome α)} {xs : List α} :
    os.mapM id = .ok xs ↔ os = xs.map Except.ok := by
  induction os generalizing xs with
  | nil =>
    rw [List.mapM_nil, Outcome.pure_ok]
    simp [eq_comm]
  | cons o os ih =>
    simp only [List.mapM_cons, Outcome.bind_ok, Outcome.pure_ok, ih, id]
    constructor
    · rintro ⟨x, rfl, others, rfl, rfl⟩
      rfl
    · intro same
      cases xs with
      | nil => cases same
      | cons x xs =>
        obtain ⟨rfl, rfl⟩ := List.cons.inj same
        exact ⟨x, rfl, xs, rfl, rfl⟩

private theorem sequence_error {α : Type} {os : List (Outcome α)}
    (stopped : os.mapM id = .error failure) : .error failure ∈ os := by
  induction os with
  | nil => cases stopped
  | cons o os ih =>
    rw [List.mapM_cons, Outcome.bind_error] at stopped
    rcases stopped with first | ⟨x, _, stopped⟩
    · obtain rfl : o = .error failure := first
      exact List.mem_cons_self
    · rw [Outcome.bind_error] at stopped
      rcases stopped with later | ⟨xs, _, done⟩
      · exact List.mem_cons_of_mem _ (ih later)
      · cases done

private theorem pooled_length (s : σ) (schedule : List Nat) :
    (pooled table fetch suites d s schedule).checks.length = d.proofs.length := by
  induction schedule using List.reverseRecOn with
  | nil => exact List.length_map _
  | append_singleton schedule j ih =>
    rw [pooled_concat, Pool.step]
    split
    · exact (List.length_set ..).trans ih
    · exact ih

/-- A pool that returns has ended each check, with what stands at its place. -/
theorem pooled_result (ended : (pooled table fetch suites d s schedule).result? = some r) :
    ∃ outcomes : List (Outcome Verdict), outcomes.mapM id = r ∧
      outcomes.length = d.proofs.length ∧ ∀ (i : Nat) (proof : Members),
        d.proofs[i]? = some proof → ∃ o, outcomes[i]? = some o ∧
          Stands table fetch suites d s schedule i proof (.ended o) := by
  obtain ⟨outcomes, checks, result⟩ := result?_eq_some.mp ended
  have length : (pooled table fetch suites d s schedule).checks.length = _ :=
    pooled_length s schedule
  rw [checks, List.length_map] at length
  refine ⟨outcomes, result, length, fun i proof stands => ?_⟩
  obtain ⟨c, found, so⟩ := stands_of_schedule stands s schedule
  rw [checks, List.getElem?_map] at found
  obtain ⟨o, listed, rfl⟩ := Option.map_eq_some_iff.mp found
  exact ⟨o, listed, so⟩

theorem pooled_ok (ended : (pooled table fetch suites d s schedule).result? = some (.ok verdicts)) :
    verdicts.length = d.proofs.length ∧ ∀ (i : Nat) (proof : Members),
      d.proofs[i]? = some proof → ∃ v, verdicts[i]? = some v ∧
        Stands table fetch suites d s schedule i proof (.ended (.ok v)) := by
  obtain ⟨outcomes, result, length, each⟩ := pooled_result ended
  obtain rfl := sequence_ok.mp result
  refine ⟨by simpa using length, fun i proof stands => ?_⟩
  obtain ⟨o, found, so⟩ := each i proof stands
  rw [List.getElem?_map] at found
  obtain ⟨v, listed, rfl⟩ := Option.map_eq_some_iff.mp found
  exact ⟨v, listed, so⟩

theorem pooled_error
    (ended : (pooled table fetch suites d s schedule).result? = some (.error failure)) :
    ∃ (i : Nat) (proof : Members), d.proofs[i]? = some proof ∧
      Stands table fetch suites d s schedule i proof (.ended (.error failure)) := by
  obtain ⟨outcomes, result, length, each⟩ := pooled_result ended
  obtain ⟨i, listed⟩ := List.mem_iff_getElem?.mp (sequence_error result)
  have inside : i < d.proofs.length := by
    rw [← length]
    exact (List.getElem?_eq_some_iff.mp listed).1
  have stands := List.getElem?_eq_getElem inside
  obtain ⟨o, found, so⟩ := each i _ stands
  obtain rfl := Option.some.inj (listed.symm.trans found)
  exact ⟨i, _, stands, so⟩

private theorem ended_of_all {checks : List (Progress σ)}
    (all : ∀ c ∈ checks, ∃ o, c = .ended o) :
    ∃ outcomes : List (Outcome Verdict), checks = outcomes.map .ended := by
  induction checks with
  | nil => exact ⟨[], rfl⟩
  | cons c rest ih =>
    obtain ⟨o, rfl⟩ := all c List.mem_cons_self
    obtain ⟨outcomes, rfl⟩ := ih fun c member => all c (List.mem_cons_of_mem _ member)
    exact ⟨o :: outcomes, rfl⟩

/-- A pool returns as soon as each check has had two steps. -/
theorem pooled_some (s : σ) (complete : ∀ i < d.proofs.length, 2 ≤ schedule.count i) :
    ∃ r, (pooled table fetch suites d s schedule).result? = some r := by
  have all : ∀ c ∈ (pooled table fetch suites d s schedule).checks, ∃ o, c = .ended o := by
    intro c member
    obtain ⟨i, found⟩ := List.mem_iff_getElem?.mp member
    have inside : i < d.proofs.length := by
      rw [← pooled_length s schedule]
      exact (List.getElem?_eq_some_iff.mp found).1
    have twice := complete i inside
    obtain ⟨c', found', so⟩ := stands_of_schedule (List.getElem?_eq_getElem inside) s schedule
    obtain rfl := Option.some.inj (found.symm.trans found')
    cases so with
    | waiting unmoved =>
      rw [List.count_eq_zero.mpr unmoved] at twice
      omega
    | keyed steps first only _ =>
      rw [steps, List.count_append, List.count_cons_self, List.count_eq_zero.mpr first,
        List.count_eq_zero.mpr only] at twice
      omega
    | refused => exact ⟨_, rfl⟩
    | checked => exact ⟨_, rfl⟩
  obtain ⟨outcomes, checks⟩ := ended_of_all all
  exact ⟨_, result?_eq_some.mpr ⟨outcomes, checks, rfl⟩⟩

end Results

section Alone

theorem verdict_ends {r : Outcome Verdict} : (verdict table fetch suites d i proof).Ends s r t ↔
    ∃ o, (check table fetch suites d i proof).Ends s o t ∧ concluded i proof o = r := by
  obtain ⟨o, u, ended⟩ := Action.ends_some (check table fetch suites d i proof) s
  have opened : (verdict table fetch suites d i proof).Ends s (concluded i proof o) u := by
    change (concluded i proof ((check table fetch suites d i proof).run.run s).1,
      ((check table fetch suites d i proof).run.run s).2) = _
    rw [ended]
  constructor
  · intro found
    obtain ⟨rfl, rfl⟩ := opened.unique found
    exact ⟨o, ended, rfl⟩
  · rintro ⟨o', ended', rfl⟩
    obtain ⟨rfl, rfl⟩ := ended.unique ended'
    exact opened

variable {pool : Pool σ} {o : Outcome Verdict}

/-- Two steps in a row are a whole check. -/
private theorem step_twice (stands : d.proofs[i]? = some proof)
    (waits : pool.checks[i]? = some .waiting)
    (ended : (verdict table fetch suites d i proof).Ends pool.state o t) :
    (pool.step table fetch suites d i).step table fetch suites d i =
      ⟨pool.checks.set i (.ended o), t⟩ := by
  have inside := (List.getElem?_eq_some_iff.mp waits).1
  obtain ⟨result, checked, rfl⟩ := verdict_ends.mp ended
  rcases Action.ends_bind.mp checked with ⟨k, u, opened, closed⟩ | ⟨failure, stopped, rfl⟩
  · rw [step_own stands waits, advance_keyed opened,
      step_own stands (List.getElem?_set_self inside), advance_checked closed, List.set_set]
  · rw [step_own stands waits, advance_refused stopped,
      step_own stands (List.getElem?_set_self inside), advance, List.set_set]

def outcomes (table : CurveTable) (fetch : Fetcher σ) (suites : SuiteTable σ) (d : Document)
    (index : Nat) : List Members → σ → List (Outcome Verdict)
  | [], _ => []
  | proof :: rest, s =>
    let (o, s) := (verdict table fetch suites d index proof).run.run s
    o :: outcomes table fetch suites d (index + 1) rest s

private theorem outcomes_cons {index : Nat} {rest : List Members}
    (ended : (verdict table fetch suites d index proof).Ends s o t) :
    outcomes table fetch suites d index (proof :: rest) s =
      o :: outcomes table fetch suites d (index + 1) rest t := by
  rw [Action.Ends] at ended
  rw [outcomes, ended]

private theorem verdictsFrom_ends {index : Nat} {proofs : List Members}
    {r : Outcome (List Verdict)}
    (ended : (verdictsFrom table fetch suites d index proofs).Ends s r t) :
    (outcomes table fetch suites d index proofs s).mapM id = r := by
  induction proofs generalizing index s t r with
  | nil => exact (Action.ends_pure.mp ended).1
  | cons proof rest ih =>
    rw [verdictsFrom] at ended
    rcases Action.ends_bind.mp ended with ⟨v, u, first, rest⟩ | ⟨failure, first, rfl⟩
    · rw [outcomes_cons first, List.mapM_cons]
      rcases Action.ends_bind.mp rest with ⟨vs, u', others, done⟩ | ⟨failure, others, rfl⟩
      · obtain ⟨rfl, _⟩ := Action.ends_pure.mp done
        rw [ih others]
        rfl
      · rw [ih others]
        rfl
    · rw [outcomes_cons first, List.mapM_cons]
      rfl

private theorem oneByOne_checks {index : Nat} {rest : List Members}
    (past : List (Outcome Verdict)) (here : d.proofs.drop index = rest)
    (size : past.length = index)
    (checks : pool.checks = past.map .ended ++ rest.map fun _ => .waiting) :
    ((oneByOne index rest.length).foldl (Pool.step table fetch suites d) pool).checks =
      (past ++ outcomes table fetch suites d index rest pool.state).map .ended := by
  -- What is past has ended, what is to come still waits, and the pool is in the state between them.
  induction rest generalizing index past pool with
  | nil => simpa [oneByOne, outcomes] using checks
  | cons proof rest ih =>
    have stands : d.proofs[index]? = some proof := by
      rw [← List.head?_drop, here]
      rfl
    have waits : pool.checks[index]? = some .waiting := by
      rw [checks, List.getElem?_append_right (by simp [size])]
      simp [size]
    obtain ⟨o, t, ended⟩ :=
      Action.ends_some (verdict table fetch suites d index proof) pool.state
    have shape : oneByOne index (proof :: rest).length =
        index :: index :: oneByOne (index + 1) rest.length := by
      simp [oneByOne, List.range'_succ]
    rw [shape, List.foldl_cons, List.foldl_cons, step_twice stands waits ended,
      outcomes_cons ended]
    have next : d.proofs.drop (index + 1) = rest := by
      rw [← List.drop_drop, here]
      rfl
    have others := @ih ⟨pool.checks.set index (.ended o), t⟩ (index + 1) (past ++ [o]) next
      (by simp [size]) (by
        rw [checks, List.set_append_right _ _ (by simp [size])]
        simp [size])
    rw [others, List.append_assoc]
    rfl

/-- One worker alone comes to what a pool comes to that takes both steps of each check in a row. -/
theorem run_result {r : Outcome (List Verdict)}
    (ended : (run table fetch suites (.object d)).Ends s r t) :
    (pooled table fetch suites d s (oneByOne 0 d.proofs.length)).result? = some r := by
  have opened := Action.ends_bind_value.mp ended
  refine result?_eq_some.mpr ⟨_, ?_, verdictsFrom_ends opened⟩
  exact oneByOne_checks [] rfl rfl rfl

end Alone

end LinkedProof.Verification
