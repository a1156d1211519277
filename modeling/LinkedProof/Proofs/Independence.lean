import LinkedProof.Proofs.Coverage
import LinkedProof.Proofs.Determinacy
import LinkedProof.Proofs.FailClosed

/-! The verdict on a proof does not depend on the other proofs of its document, and in a chain only
on those in front of it, if the fetcher and the verifier answer without regard to their state. -/
namespace LinkedProof.Verification

open Json (Alike AlikeItems)

variable {σ : Type} {table : CurveTable} {fetch : Fetcher σ} {suites : SuiteTable σ}
  {d d' : Document} {i j : Nat} {proof : Members}

section Checks

private theorem fetchKey_steady (steady : ∀ issuer keyId, (fetch issuer keyId).Steady)
    (suites : SuiteTable σ) (proof : Members) : (fetchKey fetch suites proof).Steady :=
  Action.steady_iff.mpr <| @fetchKey_agree σ Unit (fun _ => fetch) _
    (fun issuer keyId => Action.steady_iff.mp (steady issuer keyId)) suites proof

private theorem checkSignature_steady {k : Keyed σ}
    (steady : ∀ key message signature, (k.suite.verifier key message signature).Steady)
    (table : CurveTable) (d : Document) (i : Nat) (proof : Members) :
    (checkSignature table d i proof k).Steady :=
  Action.steady_iff.mpr <| checkSignature_agree
    (fun key message signature => Action.steady_iff.mp (steady key message signature)) table d i
    proof

private theorem checkSignature_eq {k : Keyed σ}
    (same : d.canonicalize k.suite.canonicalizer (some i) =
      d'.canonicalize k.suite.canonicalizer (some j)) :
    checkSignature table d i proof k = checkSignature table d' j proof k := by
  unfold checkSignature Suite.verifyData
  rw [same]

/-- What a check ended with gives one verdict at all places, but for the place itself. -/
private theorem concluded_at {o : Outcome Unit} {v w : Verdict}
    (first : concluded i proof o = .ok v) (second : concluded j proof o = .ok w) :
    w = { v with index := j } := by
  cases o with
  | ok value =>
    obtain rfl := Except.ok.inj first
    obtain rfl := Except.ok.inj second
    rfl
  | error failure =>
    cases failure with
    | proof cause =>
      obtain rfl := Except.ok.inj first
      obtain rfl := Except.ok.inj second
      rfl
    | _ => cases first

end Checks

section Verdicts

variable {s s' : σ} {schedule schedule' : List Nat}

private theorem stands_same {v w : Verdict} (fetched : (fetchKey fetch suites proof).Steady)
    (checked : ∀ k, Registered suites proof k.suite → (checkSignature table d i proof k).Steady ∧
      checkSignature table d i proof k = checkSignature table d' j proof k)
    (so : Stands table fetch suites d s schedule i proof (.ended (.ok v)))
    (so' : Stands table fetch suites d' s' schedule' j proof (.ended (.ok w))) :
    w = { v with index := j } := by
  -- The key is fetched in both calls or in neither, and from there on both check one signature.
  rcases so.ended_cases with ⟨_, _, failure, _, _, _, stopped, result⟩ |
    ⟨_, _, _, k, o, _, _, _, _, _, opened, ended, result⟩
  · rcases so'.ended_cases with ⟨_, _, failure', _, _, _, stopped', result'⟩ |
      ⟨_, _, _, k', o', _, _, _, _, _, opened', ended', result'⟩
    · obtain rfl := Except.error.inj (fetched.unique stopped stopped')
      exact concluded_at result.symm result'.symm
    · cases fetched.unique stopped opened'
  · rcases so'.ended_cases with ⟨_, _, failure', _, _, _, stopped', result'⟩ |
      ⟨_, _, _, k', o', _, _, _, _, _, opened', ended', result'⟩
    · cases fetched.unique opened stopped'
    · obtain rfl := Except.ok.inj (fetched.unique opened opened')
      obtain ⟨steady, one⟩ := checked k (fetchKey_ok.mp opened).1
      rw [← one] at ended'
      obtain rfl := steady.unique ended ended'
      exact concluded_at result.symm result'.symm

variable {verdicts verdicts' : List Verdict}

/-- Two calls on documents with the same members apart from the proofs give a proof that stands in
both of them the same verdict, if its suite signs sets, and if it signs chains and the proofs in
front of it agree. The calls may begin in any state, with any number of workers. -/
theorem verdict_independent (distinct : Json.Distinct (.object d))
    (distinct' : Json.Distinct (.object d'))
    (others : Alike (.object (d.erase Document.proofKey)) (.object (d'.erase Document.proofKey)))
    (stands : d.proofs[i]? = some proof) (stands' : d'.proofs[j]? = some proof)
    (fetcher : ∀ issuer keyId, (fetch issuer keyId).Steady)
    (verifier : ∀ suite, Registered suites proof suite →
      ∀ key message signature, (suite.verifier key message signature).Steady)
    (earlier : ∀ suite, Registered suites proof suite → suite.canonicalizer.chain = true →
      AlikeItems ((d.proofs.take i).map .object) ((d'.proofs.take j).map .object))
    (called : Called table fetch suites d s schedule (.ok verdicts))
    (called' : Called table fetch suites d' s' schedule' (.ok verdicts')) :
    ∃ v, verdicts[i]? = some v ∧ v.index = i ∧ verdicts'[j]? = some { v with index := j } := by
  obtain ⟨v, listed, so⟩ := called.each stands
  obtain ⟨w, listed', so'⟩ := called'.each stands'
  have checked (k : Keyed σ) (registered : Registered suites proof k.suite) :
      (checkSignature table d i proof k).Steady ∧
        checkSignature table d i proof k = checkSignature table d' j proof k := by
    have bytes := Document.canonicalize_eq_of_alike distinct distinct' others
      (earlier k.suite registered)
    exact ⟨checkSignature_steady (verifier k.suite registered) table d i proof,
      checkSignature_eq bytes⟩
  have same := stands_same (fetchKey_steady fetcher suites proof) checked so so'
  rw [same] at listed'
  exact ⟨v, listed, (stands_ok so).1, listed'⟩

def follower : Document := [("proof", .array [
  .object [("type", .text "JsonWebSignature2020"), ("proofValue", .text "AA")],
  .object [("type", .text "JsonWebSignature2020"), ("verificationMethod", .text "did:ex:1#k"),
    ("proofValue", .text "AA")]])]

def followed : Document := [("proof", .array [.int 7,
  .object [("type", .text "JsonWebSignature2020"), ("proofValue", .text "AA")],
  .object [("type", .text "JsonWebSignature2020"), ("verificationMethod", .text "did:ex:1#k"),
    ("proofValue", .text "AA")],
  .object [("type", .text "Other")]])]

def chaining : Suite Unit := { Suite.trusting with canonicalizer := ⟨true, Json.usualRoom⟩ }

def chainTable : SuiteTable Unit := [(Suite.defaultType, chaining)]

private theorem chainTable_registered {suite : Suite Unit}
    (registered : Registered chainTable proof suite) : suite = chaining := by
  obtain ⟨type, _, listed⟩ := registered
  obtain ⟨entry, found, rfl⟩ := Option.map_eq_some_iff.mp listed
  rw [List.mem_singleton.mp (List.mem_of_find?_eq_some found)]

set_option maxRecDepth 8000 in
theorem verdict_independent_followed : ∃ verdicts verdicts',
    Called CurveTable.initial foundAlways chainTable follower () [0, 1, 0, 1] (.ok verdicts) ∧
    Called CurveTable.initial foundAlways chainTable followed () [2, 1, 0, 0, 1]
      (.ok verdicts') ∧
    verdicts.map (·.valid) = [false, true] ∧
    ∃ v, verdicts[1]? = some v ∧ v.index = 1 ∧ verdicts'[1]? = some { v with index := 1 } := by
  have called : Called CurveTable.initial foundAlways chainTable follower () [0, 1, 0, 1]
      (.ok _) := .shared rfl
  have called' : Called CurveTable.initial foundAlways chainTable followed () [2, 1, 0, 0, 1]
      (.ok _) := .shared rfl
  have others : Alike (.object (follower.erase Document.proofKey))
      (.object (followed.erase Document.proofKey)) := Alike.refl _
  have earlier : AlikeItems ((follower.proofs.take 1).map .object)
      ((followed.proofs.take 1).map .object) := .cons (Alike.refl _) .nil
  refine ⟨_, _, called, called', rfl, ?_⟩
  apply verdict_independent (by decide) (by decide) others rfl rfl _ _ _ called called'
  · intro issuer keyId
    exact Action.steady_pure _
  · intro suite registered key message signature
    rw [chainTable_registered registered]
    exact Action.steady_pure _
  · intro suite _ _
    exact earlier

end Verdicts

end LinkedProof.Verification
