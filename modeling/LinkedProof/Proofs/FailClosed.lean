import LinkedProof.Proofs.Verdicts

/-! No proof is valid unless its check passed every stage, and every other proof has a cause against
it, whether one worker carries out the checks or several of them do. -/
namespace LinkedProof.Verification

variable {σ : Type} {table : CurveTable} {fetch : Fetcher σ} {suites : SuiteTable σ} {d : Document}
  {s : σ} {schedule : List Nat} {verdicts : List Verdict}

/-- The verdicts of a call are one on each proof, in the order of the document. A proof is valid
exactly when its check passed every stage, and every other one has a cause against it; the policies
count no more and no less than that. -/
structure Warranted (table : CurveTable) (fetch : Fetcher σ) (suites : SuiteTable σ) (d : Document)
    (s : σ) (schedule : List Nat) (verdicts : List Verdict) : Prop where
  length : verdicts.length = d.proofs.length
  each : ∀ (i : Nat) (proof : Members), d.proofs[i]? = some proof → ∃ v, verdicts[i]? = some v ∧
    v.index = i ∧ (v.valid = true ↔ AcceptedIn table fetch suites d s schedule i proof) ∧
    (v.valid = true ↔ v.error = none)
  all : Policy.all.accepts verdicts = true ↔ d.proofs ≠ [] ∧
    ∀ (i : Nat) (proof : Members), d.proofs[i]? = some proof →
      AcceptedIn table fetch suites d s schedule i proof
  any : Policy.any.accepts verdicts = true ↔
    ∃ (i : Nat) (proof : Members), d.proofs[i]? = some proof ∧
      AcceptedIn table fetch suites d s schedule i proof

/-- No verdict without a proof that it is the verdict on. -/
private theorem verdict_stands (called : Called table fetch suites d s schedule (.ok verdicts))
    {v : Verdict} (member : v ∈ verdicts) :
    ∃ (i : Nat) (proof : Members), d.proofs[i]? = some proof ∧
      (v.valid = true ↔ AcceptedIn table fetch suites d s schedule i proof) := by
  obtain ⟨i, listed⟩ := List.mem_iff_getElem?.mp member
  have inside : i < d.proofs.length := by
    rw [← called.length]
    exact (List.getElem?_eq_some_iff.mp listed).1
  have stands := List.getElem?_eq_getElem inside
  obtain ⟨w, listed', so⟩ := called.each stands
  obtain rfl := Option.some.inj (listed.symm.trans listed')
  exact ⟨i, _, stands, (stands_ok so).2.1⟩

/-- Whatever a call returns is warranted by its checks, for every fetcher and all verifiers. -/
theorem verdicts_fail_closed (called : Called table fetch suites d s schedule (.ok verdicts)) :
    Warranted table fetch suites d s schedule verdicts := by
  refine ⟨called.length, ?_, ?_, ?_⟩
  · intro i proof stands
    obtain ⟨v, listed, so⟩ := called.each stands
    exact ⟨v, listed, stands_ok so⟩
  · rw [accepts_all, ← List.length_pos_iff, ← List.length_pos_iff, called.length]
    refine and_congr_right fun _ => ⟨fun all i proof stands => ?_, fun all v member => ?_⟩
    · obtain ⟨v, listed, so⟩ := called.each stands
      exact (stands_ok so).2.1.mp (all v (List.mem_of_getElem? listed))
    · obtain ⟨i, proof, stands, valid⟩ := verdict_stands called member
      exact valid.mpr (all i proof stands)
  · rw [accepts_any]
    constructor
    · rintro ⟨v, member, isValid⟩
      obtain ⟨i, proof, stands, valid⟩ := verdict_stands called member
      exact ⟨i, proof, stands, valid.mp isValid⟩
    · rintro ⟨i, proof, stands, accepted⟩
      obtain ⟨v, listed, so⟩ := called.each stands
      exact ⟨v, List.mem_of_getElem? listed, (stands_ok so).2.1.mpr accepted⟩

def pair : Document := [("proof", .array [
  .object [("type", .text "JsonWebSignature2020"), ("verificationMethod", .text "did:ex:1#k"),
    ("proofValue", .text "AA")],
  .object [("type", .text "JsonWebSignature2020"), ("proofValue", .text "AA")]])]

def foundAlways : Fetcher Unit := fun _ _ => pure (.other .null)

def trustingTable : SuiteTable Unit := [(Suite.defaultType, Suite.trusting)]

set_option maxRecDepth 8000 in
theorem verdicts_fail_closed_pair : ∃ verdicts,
    Called CurveTable.initial foundAlways trustingTable pair () [0, 1, 1, 0] (.ok verdicts) ∧
    Warranted CurveTable.initial foundAlways trustingTable pair () [0, 1, 1, 0] verdicts ∧
    verdicts.map (·.valid) = [true, false] := by
  have called : Called CurveTable.initial foundAlways trustingTable pair () [0, 1, 1, 0]
      (.ok _) := .shared rfl
  exact ⟨_, called, verdicts_fail_closed called, rfl⟩

end LinkedProof.Verification
