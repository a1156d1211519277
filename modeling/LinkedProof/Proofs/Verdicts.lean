import LinkedProof.Proofs.Pool

/-! The verdicts of a whole call, whoever carries out the checks and in whatever order their steps
come: each of them is the verdict on its proof in the states that its own two steps began in. -/
namespace LinkedProof.Verification

variable {σ : Type} {table : CurveTable} {fetch : Fetcher σ} {suites : SuiteTable σ} {d : Document}
  {s : σ} {schedule : List Nat} {i : Nat} {proof : Members} {v : Verdict} {failure : Failure}

section Calls

/-- A call for the verdicts on a document begins in the state `s` and returns `r`: by one worker, or
by several of them whose steps come in the order of a schedule. -/
inductive Called (table : CurveTable) (fetch : Fetcher σ) (suites : SuiteTable σ) (d : Document)
    (s : σ) : List Nat → Outcome (List Verdict) → Prop
  | alone {t : σ} {r : Outcome (List Verdict)}
    (ended : (run table fetch suites (.object d)).Ends s r t) :
    Called table fetch suites d s (oneByOne 0 d.proofs.length) r
  | shared {schedule : List Nat} {r : Outcome (List Verdict)}
    (ended : (pooled table fetch suites d s schedule).result? = some r) :
    Called table fetch suites d s schedule r

variable {r : Outcome (List Verdict)} {verdicts : List Verdict}

theorem Called.result (called : Called table fetch suites d s schedule r) :
    (pooled table fetch suites d s schedule).result? = some r := by
  cases called with
  | alone ended => exact run_result ended
  | shared ended => exact ended

private theorem count_oneByOne {n : Nat} (inside : i < n) : 2 ≤ (oneByOne 0 n).count i := by
  have member : i ∈ List.range' 0 n := by simpa using inside
  obtain ⟨before, after, parts⟩ := List.append_of_mem member
  rw [oneByOne, parts]
  simp
  omega

/-- Whether one worker carries out the checks or several share them in any order of their steps,
together they are a call for the verdicts. -/
theorem Called.of_shared {workers : Nat} {t : σ}
    (ended : (Verification.shared table fetch suites workers schedule (.object d)).Ends s r t) :
    ∃ steps, Called table fetch suites d s steps r := by
  have ended := Action.ends_bind_value.mp ended
  split at ended
  · exact ⟨_, .alone (Action.ends_bind_value.mpr ended)⟩
  · have complete (i : Nat) (inside : i < d.proofs.length) :
        2 ≤ (schedule ++ oneByOne 0 d.proofs.length).count i := by
      rw [List.count_append]
      exact Nat.le_trans (count_oneByOne inside) (Nat.le_add_left _ _)
    obtain ⟨r', result⟩ := @pooled_some _ table fetch suites d _ s complete
    obtain rfl : r' = r := by
      have same : Option.getD _ _ = r := congrArg Prod.fst ended
      rwa [result] at same
    exact ⟨_, .shared result⟩

theorem Called.length (called : Called table fetch suites d s schedule (.ok verdicts)) :
    verdicts.length = d.proofs.length := (pooled_ok called.result).1

theorem Called.each (called : Called table fetch suites d s schedule (.ok verdicts))
    (stands : d.proofs[i]? = some proof) : ∃ v, verdicts[i]? = some v ∧
      Stands table fetch suites d s schedule i proof (.ended (.ok v)) :=
  (pooled_ok called.result).2 i proof stands

end Calls

section Verdicts

/-- A verdict says that its proof is valid, or names the cause that its check ended with. -/
theorem concluded_ok {o : Outcome Unit} (same : concluded i proof o = .ok v) :
    v.index = i ∧ (v.valid = true ∧ v.error = none ∧ o = .ok () ∨
      ∃ cause, v.valid = false ∧ v.error = some cause ∧ o = .error (.proof cause)) := by
  cases o with
  | ok value =>
    obtain rfl := Except.ok.inj same
    exact ⟨rfl, .inl ⟨rfl, rfl, rfl⟩⟩
  | error failure =>
    cases failure with
    | proof cause =>
      obtain rfl := Except.ok.inj same
      exact ⟨rfl, .inr ⟨cause, rfl, rfl, rfl⟩⟩
    | _ => cases same

private theorem concluded_error {o : Outcome Unit} (same : concluded i proof o = .error failure) :
    o = .error failure ∧ ∀ cause, failure ≠ .proof cause := by
  cases o with
  | ok value => cases same
  | error reason =>
    cases reason with
    | proof cause => cases same
    | _ =>
      obtain rfl := Except.error.inj same
      exact ⟨rfl, nofun⟩

variable (table fetch suites d s schedule i proof)

/-- In the course of a call the check of a proof passed every stage, from the states in which its
two steps began. -/
def AcceptedIn : Prop := ∃ before between after, schedule = before ++ i :: (between ++ i :: after) ∧
  i ∉ before ∧ i ∉ between ∧
    Accepted table fetch suites d i proof (reached table fetch suites d s before)
      (reached table fetch suites d s (before ++ i :: between))

def StuckIn : Prop := ∃ before after, schedule = before ++ i :: after ∧ i ∉ before ∧
  Stuck fetch suites d i proof (reached table fetch suites d s before)

variable {table fetch suites d s schedule i proof}

/-- The first place of an element parts a list in one way. -/
private theorem parted {α : Type} {x : α} {before before' after after' : List α}
    (same : before ++ x :: after = before' ++ x :: after') (first : x ∉ before)
    (first' : x ∉ before') : before = before' ∧ after = after' := by
  induction before generalizing before' with
  | nil =>
    cases before' with
    | nil => exact ⟨rfl, (List.cons.inj same).2⟩
    | cons y rest =>
      obtain rfl := (List.cons.inj same).1
      exact absurd List.mem_cons_self first'
  | cons y rest ih =>
    cases before' with
    | nil =>
      obtain rfl := (List.cons.inj same).1
      exact absurd List.mem_cons_self first
    | cons y' rest' =>
      rw [List.cons_append, List.cons_append] at same
      obtain ⟨rfl, rest⟩ := List.cons.inj same
      obtain ⟨rfl, rfl⟩ := ih rest (fun member => first (List.mem_cons_of_mem _ member))
        fun member => first' (List.mem_cons_of_mem _ member)
      exact ⟨rfl, rfl⟩

/-- What a verdict says about a check: that it passed every stage, or the cause that stopped it. -/
theorem stands_ok (so : Stands table fetch suites d s schedule i proof (.ended (.ok v))) :
    v.index = i ∧ (v.valid = true ↔ AcceptedIn table fetch suites d s schedule i proof) ∧
      (v.valid = true ↔ v.error = none) := by
  rcases so.ended_cases with ⟨before, after, failure, t, steps, first, stopped, result⟩ |
    ⟨before, between, after, k, o, t, u, steps, first, second, opened, ended, result⟩
  all_goals obtain ⟨place, said⟩ := concluded_ok result.symm
  · rcases said with ⟨_, _, ok⟩ | ⟨cause, invalid, reason, _⟩
    · cases ok
    · have refused : ¬AcceptedIn table fetch suites d s schedule i proof := by
        rintro ⟨before', between', after', steps', first', _, accepted⟩
        obtain ⟨rfl, _⟩ := parted (steps.symm.trans steps') first first'
        obtain ⟨k, s', _, opened, _⟩ := accepted_iff.mp accepted
        cases (stopped.unique opened).1
      exact ⟨place, iff_of_false (by simp [invalid]) refused,
        iff_of_false (by simp [invalid]) (by simp [reason])⟩
  · rcases said with ⟨valid, none, rfl⟩ | ⟨cause, invalid, reason, rfl⟩
    · have accepted : AcceptedIn table fetch suites d s schedule i proof :=
        ⟨before, between, after, steps, first, second,
          accepted_iff.mpr ⟨k, _, _, opened, ended⟩⟩
      exact ⟨place, iff_of_true valid accepted, iff_of_true valid none⟩
    · have refused : ¬AcceptedIn table fetch suites d s schedule i proof := by
        rintro ⟨before', between', after', steps', first', second', accepted⟩
        obtain ⟨rfl, rest⟩ := parted (steps.symm.trans steps') first first'
        obtain ⟨rfl, _⟩ := parted rest second second'
        obtain ⟨k', s', u', opened', ended'⟩ := accepted_iff.mp accepted
        obtain rfl := Except.ok.inj (opened.unique opened').1
        cases (ended.unique ended').1
      exact ⟨place, iff_of_false (by simp [invalid]) refused,
        iff_of_false (by simp [invalid]) (by simp [reason])⟩

/-- Only the check of a stuck proof gives no verdict. -/
theorem stands_error
    (so : Stands table fetch suites d s schedule i proof (.ended (.error failure))) :
    StuckIn table fetch suites d s schedule i proof ∧
      Document.IsUnwritten failure := by
  rcases so.ended_cases with ⟨before, after, failure, t, steps, first, stopped, result⟩ |
    ⟨before, between, after, k, o, t, u, steps, first, second, opened, ended, result⟩
  · obtain ⟨same, other⟩ := concluded_error result.symm
    obtain rfl := Except.error.inj same
    obtain ⟨cause, rfl⟩ := fetchKey_error stopped
    exact absurd rfl (other cause)
  · obtain ⟨rfl, other⟩ := concluded_error result.symm
    rcases checkSignature_error ended with ⟨cause, rfl⟩ | ⟨unsignable, unwritten⟩
    · exact absurd rfl (other cause)
    · exact ⟨⟨before, _, steps, first, stuck_iff.mpr ⟨k, _, opened, unsignable⟩⟩, unwritten⟩

theorem stuck_stands (stuck : StuckIn table fetch suites d s schedule i proof) :
    ¬Stands table fetch suites d s schedule i proof (.ended (.ok v)) := by
  obtain ⟨before, after, steps, first, stuck⟩ := stuck
  obtain ⟨k, s', opened, unsignable⟩ := stuck_iff.mp stuck
  intro so
  rcases so.ended_cases with ⟨before', after', failure, t, steps', first', stopped, _⟩ |
    ⟨before', between, after', k', o, t, u, steps', first', second, opened', ended, result⟩
  · obtain ⟨rfl, _⟩ := parted (steps.symm.trans steps') first first'
    cases (stopped.unique opened).1
  · obtain ⟨rfl, _⟩ := parted (steps.symm.trans steps') first first'
    obtain rfl := Except.ok.inj (opened.unique opened').1
    obtain ⟨failure, unwritten, ended'⟩ := checkSignature_unsignable table unsignable
      (reached table fetch suites d s (before ++ i :: between))
    obtain ⟨rfl, _⟩ := ended.unique ended'
    rcases unwritten with rfl | ⟨fault, rfl⟩
    · cases result
    · cases result

end Verdicts

section Policies

variable {verdicts : List Verdict}

theorem accepts_all : Policy.all.accepts verdicts = true ↔
    verdicts ≠ [] ∧ ∀ v ∈ verdicts, v.valid = true := by
  simp [Policy.accepts]

theorem accepts_any : Policy.any.accepts verdicts = true ↔
    ∃ v ∈ verdicts, v.valid = true := by
  cases verdicts <;> simp [Policy.accepts]

end Policies

end LinkedProof.Verification
