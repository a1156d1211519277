import LinkedProof.Proofs.Verdicts

/-! Calls with fetchers that agree and with verifiers that agree. Each fetcher may keep a state of its
own, and the steps of the checks may come in any order: all of the calls return the same. -/
namespace LinkedProof.Verification

variable {σ ι : Type} {table : CurveTable} {fetch : Fetcher σ} {fetchers : ι → Fetcher σ}
  {suites : SuiteTable σ} {d : Document} {I : ι → σ → Prop} {i : Nat} {proof : Members}

section Stages

theorem fetchKey_agree
    (fetched : ∀ issuer keyId, Action.Agree I fun a => fetchers a issuer keyId)
    (suites : SuiteTable σ) (proof : Members) :
    Action.Agree I fun a => fetchKey (fetchers a) suites proof := by
  unfold fetchKey
  refine (Action.agree_ofOutcome _).bind fun suite => ?_
  refine (Action.agree_ofOutcome _).bind fun (r, value) => ?_
  refine (Action.agree_ofOutcome _).bind fun method => ?_
  have renamed := (fetched method.issuer method.keyId).rename (unresolved method)
  exact renamed.bind fun key => Action.agree_pure _

theorem checkSignature_agree {k : Keyed σ}
    (verified : ∀ key message signature,
      Action.Agree I fun _ => k.suite.verifier key message signature)
    (table : CurveTable) (d : Document) (i : Nat) (proof : Members) :
    Action.Agree I fun _ => checkSignature table d i proof k := by
  unfold checkSignature
  refine (Action.agree_ofOutcome _).bind fun payload => ?_
  have checked : Action.Agree I fun _ =>
      k.suite.verify table k.key payload k.representation k.value :=
    (Action.agree_ofOutcome _).bind fun (message, signature) => verified _ _ _
  exact checked.rename refused

end Stages

section Schedules

variable {s s' : σ} {schedule schedule' : List Nat}

private theorem advance_keeps {holds : σ → Prop} {c : Progress σ}
    (opens : ∃ r, (fetchKey fetch suites proof).Settles holds r)
    (closes : ∀ k, c = .keyed k → ∃ r, (checkSignature table d i proof k).Settles holds r)
    (held : holds s) : holds (advance table fetch suites d i proof c s).2 := by
  cases c with
  | waiting =>
    obtain ⟨r, settles⟩ := opens
    obtain ⟨t, ended, held⟩ := settles s held
    cases r with
    | ok k => rwa [advance_keyed ended]
    | error failure => rwa [advance_refused ended]
  | keyed k =>
    obtain ⟨r, settles⟩ := closes k rfl
    obtain ⟨t, ended, held⟩ := settles s held
    rwa [advance_checked ended]
  | ended o => exact held

/-- What the stages of all checks keep holds after every schedule. -/
theorem reached_keeps {holds : σ → Prop}
    (opens : ∀ proof, ∃ r, (fetchKey fetch suites proof).Settles holds r)
    (closes : ∀ i proof k, Registered suites proof k.suite →
      ∃ r, (checkSignature table d i proof k).Settles holds r)
    (start : holds s) (schedule : List Nat) :
    holds (reached table fetch suites d s schedule) := by
  induction schedule using List.reverseRecOn with
  | nil => exact start
  | append_singleton schedule j ih =>
    rw [reached, pooled_concat]
    cases stands : d.proofs[j]? with
    | none =>
      rw [Pool.step, stands]
      exact ih
    | some proof =>
      obtain ⟨c, found, so⟩ := stands_of_schedule stands s schedule
      rw [step_own stands found]
      refine advance_keeps (opens proof) ?_ ih
      rintro k rfl
      cases so with
      | keyed _ _ _ opened => exact closes j proof k (fetchKey_ok.mp opened).1

/-- What a check ends with is what its stages settle on. -/
private theorem stands_settled {holds : σ → Prop} {r : Outcome (Keyed σ)} {r' : Outcome Unit}
    {o : Outcome Verdict} (opens : (fetchKey fetch suites proof).Settles holds r)
    (closes : ∀ k, r = .ok k → (checkSignature table d i proof k).Settles holds r')
    (kept : ∀ schedule, holds (reached table fetch suites d s schedule))
    (so : Stands table fetch suites d s schedule i proof (.ended o)) :
    o = concluded i proof (r >>= fun _ => r') := by
  rcases so.ended_cases with ⟨_, _, failure, _, _, _, stopped, rfl⟩ |
    ⟨_, _, _, k, o', _, _, _, _, _, opened, ended, rfl⟩
  · obtain ⟨rfl, _⟩ := opens.ends (kept _) stopped
    rfl
  · obtain ⟨rfl, _⟩ := opens.ends (kept _) opened
    obtain ⟨rfl, _⟩ := (closes k rfl).ends (kept _) ended
    rfl

/-- Fetchers that agree, each in states of its own, and verifiers that agree in all of these. -/
structure Agreeing (fetchers : ι → Fetcher σ) (suites : SuiteTable σ) (I : ι → σ → Prop) :
    Prop where
  fetched : ∀ issuer keyId, Action.Agree I fun a => fetchers a issuer keyId
  verified : ∀ type suite, suites.get? type = some suite → ∀ key message signature,
    Action.Agree I fun _ => suite.verifier key message signature

variable {a b : ι} {r r' : Outcome (List Verdict)}

private theorem Agreeing.closes (agreeing : Agreeing fetchers suites I) {k : Keyed σ}
    (registered : Registered suites proof k.suite) (table : CurveTable) (d : Document) (i : Nat) :
    Action.Agree I fun _ => checkSignature table d i proof k := by
  obtain ⟨type, _, listed⟩ := registered
  exact checkSignature_agree (agreeing.verified type k.suite listed) table d i proof

theorem Agreeing.kept (agreeing : Agreeing fetchers suites I) (start : I a s) (table : CurveTable)
    (d : Document) (schedule : List Nat) :
    I a (reached table (fetchers a) suites d s schedule) := by
  refine reached_keeps (fun proof => ?_) (fun i proof k registered => ?_) start schedule
  · obtain ⟨r, settles⟩ := fetchKey_agree agreeing.fetched suites proof
    exact ⟨r, settles a⟩
  · obtain ⟨r, settles⟩ := agreeing.closes registered table d i
    exact ⟨r, settles a⟩

/-- A check ends in all calls with one outcome. -/
private theorem Agreeing.stands (agreeing : Agreeing fetchers suites I) {o o' : Outcome Verdict}
    (start : I a s) (start' : I b s')
    (so : Stands table (fetchers a) suites d s schedule i proof (.ended o))
    (so' : Stands table (fetchers b) suites d s' schedule' i proof (.ended o')) : o = o' := by
  have kept := agreeing.kept start table d
  have kept' := agreeing.kept start' table d
  obtain ⟨r, opens⟩ := fetchKey_agree agreeing.fetched suites proof
  cases r with
  | error failure =>
    have closed (c : ι) (k : Keyed σ) (same : (.error failure : Outcome (Keyed σ)) = .ok k) :
        (checkSignature table d i proof k).Settles (I c) (.ok ()) := nomatch same
    rw [stands_settled (opens a) (closed a) kept so, stands_settled (opens b) (closed b) kept' so']
  | ok k =>
    obtain ⟨_, opened, _⟩ := opens a s start
    obtain ⟨r', closes⟩ := agreeing.closes (fetchKey_ok.mp opened).1 table d i
    have closed (c : ι) (k' : Keyed σ) (same : (.ok k : Outcome (Keyed σ)) = .ok k') :
        (checkSignature table d i proof k').Settles (I c) r' := by
      rw [← Except.ok.inj same]
      exact closes c
    rw [stands_settled (opens a) (closed a) kept so, stands_settled (opens b) (closed b) kept' so']

/-- Calls return the same, whichever of the fetchers they use, wherever they begin and in whatever
order their steps come. -/
theorem Agreeing.unique (agreeing : Agreeing fetchers suites I) (start : I a s) (start' : I b s')
    (called : Called table (fetchers a) suites d s schedule r)
    (called' : Called table (fetchers b) suites d s' schedule' r') : r = r' := by
  obtain ⟨outcomes, rfl, length, each⟩ := pooled_result called.result
  obtain ⟨outcomes', rfl, length', each'⟩ := pooled_result called'.result
  have same : outcomes = outcomes' := by
    refine List.ext_getElem (length.trans length'.symm) fun i inside inside' => ?_
    have stands := List.getElem?_eq_getElem (length ▸ inside)
    obtain ⟨o, found, so⟩ := each i _ stands
    obtain ⟨o', found', so'⟩ := each' i _ stands
    rw [List.getElem?_eq_getElem inside] at found
    rw [List.getElem?_eq_getElem inside'] at found'
    rw [Option.some.inj found, Option.some.inj found', agreeing.stands start start' so so']
  rw [same]

end Schedules

end LinkedProof.Verification
