import LinkedProof.Proofs.FailClosed

/-! When a call returns. What is wrong with one proof, its key or its verifier stays with its own
verdict; what a check has to sign and has no bytes does not, by half of a surrogate pair or too many
containers one in the other. The failure of such a check is the failure of the whole call, and the
other proofs go unreported. -/
namespace LinkedProof.Verification

open Json (HoldsBroken)

variable {σ : Type} {table : CurveTable} {fetch : Fetcher σ} {suites : SuiteTable σ} {d : Document}
  {s : σ} {schedule : List Nat} {i : Nat} {proof : Members} {r : Outcome (List Verdict)}

/-- A call that fails does so with the failure of a stuck check. -/
theorem Called.stuck {failure : Failure}
    (called : Called table fetch suites d s schedule (.error failure)) :
    (∃ (i : Nat) (proof : Members), d.proofs[i]? = some proof ∧
      StuckIn table fetch suites d s schedule i proof) ∧
      Document.IsUnwritten failure := by
  obtain ⟨i, proof, stands, so⟩ := pooled_error called.result
  obtain ⟨stuck, unwritten⟩ := stands_error so
  exact ⟨⟨i, proof, stands, stuck⟩, unwritten⟩

private theorem Called.ok_of_free (called : Called table fetch suites d s schedule r)
    (free : ∀ (i : Nat) (proof : Members), d.proofs[i]? = some proof →
      ¬StuckIn table fetch suites d s schedule i proof) : ∃ verdicts, r = .ok verdicts := by
  cases r with
  | ok verdicts => exact ⟨verdicts, rfl⟩
  | error failure =>
    obtain ⟨⟨i, proof, stands, stuck⟩, _⟩ := called.stuck
    exact absurd stuck (free i proof stands)

def Roomy (suites : SuiteTable σ) (d : Document) : Prop :=
  ∀ type suite, suites.get? type = some suite → (Json.object d).depth ≤ suite.canonicalizer.room

/-- A document without half of a pair for which there is room keeps no check from its verdict. -/
theorem not_stuck (stands : d.proofs[i]? = some proof) (whole : ¬HoldsBroken (.object d))
    (roomy : Roomy suites d) : ¬StuckIn table fetch suites d s schedule i proof := by
  rintro ⟨_, _, _, _, ⟨type, _, listed⟩, _, _, _, unsignable⟩
  have clear := Document.not_unwritable.mpr ⟨whole, roomy _ _ listed⟩
  rcases unsignable with inOptions | inDocument
  · have part : Members.erase Document.proofKey (options proof) ⊆ proof :=
      fun m member => (mem_options.mp (Members.mem_erase.mp member).1).1
    exact clear (Document.proof_unwritable (List.mem_of_getElem? stands) part inOptions)
  · exact clear (Document.signed_unwritable inDocument)

/-- Whoever carries out the checks, a call returns once each check has had its two steps. It reports
every proof exactly when none of the checks is stuck and ends with the failure of a stuck check
otherwise, and a document without half of a surrogate pair that every suite has room for sticks none
of them, whatever its proofs, the fetcher and the verifiers are. -/
theorem called_returns_iff (table : CurveTable) (fetch : Fetcher σ) (suites : SuiteTable σ)
    (d : Document) (s : σ) (schedule : List Nat) :
    ((∀ i < d.proofs.length, 2 ≤ schedule.count i) →
      ∃ r, Called table fetch suites d s schedule r) ∧
    ∀ r, Called table fetch suites d s schedule r →
      ((∃ verdicts, r = .ok verdicts ∧ verdicts.length = d.proofs.length) ↔
        ∀ (i : Nat) (proof : Members), d.proofs[i]? = some proof →
          ¬StuckIn table fetch suites d s schedule i proof) ∧
      (∀ failure, r = .error failure →
        failure = .unwritable ∨ ∃ fault, failure = .unfit (.encoding fault)) ∧
      (¬HoldsBroken (.object d) → Roomy suites d → ∃ verdicts, r = .ok verdicts) := by
  refine ⟨fun complete => ?_, fun r called => ⟨⟨?_, fun free => ?_⟩, fun failure error => ?_,
    fun whole roomy => called.ok_of_free fun i proof stands => not_stuck stands whole roomy⟩⟩
  · obtain ⟨r, ended⟩ := pooled_some s complete
    exact ⟨r, .shared ended⟩
  · rintro ⟨verdicts, rfl, _⟩ i proof stands stuck
    obtain ⟨v, _, so⟩ := called.each stands
    exact stuck_stands stuck so
  · obtain ⟨verdicts, rfl⟩ := called.ok_of_free free
    exact ⟨verdicts, rfl, called.length⟩
  · subst error
    exact called.stuck.2

theorem called_returns_iff_pair : ∃ r,
    Called CurveTable.initial foundAlways trustingTable pair () [0, 1, 1, 0] r ∧
    ((∃ verdicts, r = .ok verdicts ∧ verdicts.length = pair.proofs.length) ↔
      ∀ (i : Nat) (proof : Members), pair.proofs[i]? = some proof →
        ¬StuckIn CurveTable.initial foundAlways trustingTable pair () [0, 1, 1, 0] i proof) ∧
    (∀ failure, r = .error failure →
      failure = .unwritable ∨ ∃ fault, failure = .unfit (.encoding fault)) ∧
    (¬HoldsBroken (.object pair) → Roomy trustingTable pair → ∃ verdicts, r = .ok verdicts) := by
  obtain ⟨returns, reports⟩ :=
    called_returns_iff CurveTable.initial foundAlways trustingTable pair () [0, 1, 1, 0]
  obtain ⟨r, called⟩ := returns (by decide)
  exact ⟨r, called, reports r called⟩

def poisoned : Document := [("proof", .array [
  .object [("type", .text "JsonWebSignature2020"), ("verificationMethod", .text "did:ex:1#k"),
    ("proofValue", .text "AA"), ("note", .text [⟨0xD800, by decide⟩])],
  .object [("type", .text "JsonWebSignature2020"), ("verificationMethod", .text "did:ex:1#k"),
    ("proofValue", .text "AA")]])]

set_option maxRecDepth 8000 in
/-- One proof can keep all others from being reported. -/
theorem failures_not_isolated : ¬∀ (table : CurveTable) (fetch : Fetcher Unit)
    (suites : SuiteTable Unit) (d : Document) (s : Unit) (schedule : List Nat)
    (r : Outcome (List Verdict)), Called table fetch suites d s schedule r →
    ∃ verdicts, r = .ok verdicts ∧ verdicts.length = d.proofs.length := by
  intro isolated
  have called : Called CurveTable.initial foundAlways trustingTable poisoned () _ (.error _) :=
    .alone rfl
  obtain ⟨verdicts, reported, _⟩ := isolated _ _ _ _ _ _ _ called
  cases reported

end LinkedProof.Verification
