import LinkedProof.Proofs.Attachment
import LinkedProof.Proofs.Verdicts
import LinkedProof.Proofs.Token

/-! Signing and checking fit together: on a document that came about by signings alone, every proof
is valid, in sets and chains and in either form of a signature. -/
namespace LinkedProof

/-- A signing, and the key under which its proof is to be checked. -/
structure Signing (σ : Type) where
  request : ProofRequest σ
  key : PublicKey

namespace Signing

variable {σ τ : Type} {fetch : Fetcher τ} {suites : SuiteTable τ} {x : Signing σ}
  {signings : List (Signing σ)} {d₀ d : Document} {i : Nat} {proof : Members}

/-- What the checks of a proof need from those who set them up: a suite of its type that digests and
canonicalizes like the one that signed, with no less room, and whose verifier takes the signatures
of the signer, the key of the signer, and for tokens the algorithm of the curve of this key. -/
structure Trusted (fetch : Fetcher τ) (suites : SuiteTable τ) (x : Signing σ) : Prop where
  registered : ∃ suite, suites.get? x.request.type = some suite ∧
    suite.digest = x.request.suite.digest ∧
    suite.canonicalizer.chain = x.request.suite.canonicalizer.chain ∧
    x.request.suite.canonicalizer.room ≤ suite.canonicalizer.room ∧
    ∀ signer, x.request.suite.signer = some signer → ∀ message signature s s',
      (signer.sign message).Ends s (.ok signature) s' → signature ≠ [] ∧
        ∀ t, ∃ u, (suite.verifier x.key message signature).Ends t (.ok ()) u
  fetched : ∀ method, Method.ofValue x.request.method = .ok method →
    ∀ t, ∃ u, (fetch method.issuer method.keyId).Ends t (.ok x.key) u
  agrees : ∀ signer, x.request.suite.signer = some signer → x.request.representation = .jws →
    DetachedJws.Agrees signer.algorithm x.key

/-- The documents that a run of successful signings leads to, each of them begun in any state and at
any time. -/
inductive Attached (d₀ : Document) : List (Signing σ) → Document → Prop
  | none : Attached d₀ [] d₀
  | more {signings : List (Signing σ)} {x : Signing σ} {d d' : Document} {now : Timestamp} {s t : σ}
    (earlier : Attached d₀ signings d)
    (ended : (Document.attach now x.request (.object d)).Ends s (.ok d') t) :
    Attached d₀ (signings ++ [x]) d'

/-- The proofs on a document are those that its signings made, and each of them signs what it signed
when it was made. -/
theorem attached_made (fresh : d₀.proofs = []) (attached : Attached d₀ signings d) :
    d.proofs.length = signings.length ∧ ∀ (i : Nat) (x : Signing σ), signings[i]? = some x →
      ∃ proof, d.proofs[i]? = some proof ∧ x.request.Made d i proof := by
  induction attached with
  | none =>
    rw [fresh]
    exact ⟨rfl, fun i x found => nomatch found⟩
  | @more signings x d d' now s t earlier ended ih =>
    -- The new proof stands last, so each proof keeps the members and the proofs that it signed.
    obtain ⟨length, each⟩ := ih
    obtain ⟨proof, rfl, made⟩ := ProofRequest.attach_made ended
    have others : d.erase Document.proofKey = (d.addProof proof).erase Document.proofKey :=
      (Document.addProof_erase d proof).symm
    have earlier (i : Nat) (inside : i ≤ d.proofs.length) :
        d.proofs.take i = (d.addProof proof).proofs.take i := by
      rw [Document.proofs_addProof, List.take_append_of_le_length inside]
    refine ⟨by simp [Document.proofs_addProof, length], fun i y found => ?_⟩
    rw [Document.proofs_addProof]
    rcases Nat.lt_or_ge i signings.length with before | behind
    · rw [List.getElem?_append_left before] at found
      obtain ⟨old, stands, made'⟩ := each i y found
      have inside : i < d.proofs.length := by rwa [length]
      refine ⟨old, ?_, made'.later others (earlier i (Nat.le_of_lt inside))⟩
      rw [List.getElem?_append_left inside]
      exact stands
    · rw [List.getElem?_append_right behind] at found
      have last : i = d.proofs.length := by
        have bound := (List.getElem?_eq_some_iff.mp found).1
        simp only [List.length_singleton] at bound
        omega
      subst last
      obtain rfl : x = y := by simpa [length] using found
      refine ⟨proof, by simp, made.later others (earlier _ (Nat.le_refl _))⟩

section Accepting

open Verification

variable (created value : Text)

private theorem options_made (r : ProofRequest σ) :
    Verification.options ((r.options created).set r.representation.key (.text value)) =
      r.options created := by
  have signature :
      (Representation.all.all fun s => decide (r.representation.key ≠ s.key)) = false := by
    cases r.representation <;> rfl
  exact Members.filter_set (fun name => Representation.all.all fun s => decide (name ≠ s.key))
    signature (r.options created) (.text value)

private theorem get?_made (r : ProofRequest σ) {name : Text}
    (other : ∀ r : Representation, name ≠ r.key) :
    ((r.options created).set r.representation.key (.text value)).get? name =
      (r.options created).get? name :=
  Members.get?_set_other _ _ (other r.representation)

private theorem type_made (r : ProofRequest σ) :
    ((r.options created).set r.representation.key (.text value)).get? "type" =
      some (.text r.type) := by
  rw [get?_made created value r fun s => by cases s <;> decide]
  rfl

private theorem method_made (r : ProofRequest σ) :
    ((r.options created).set r.representation.key (.text value)).get? "verificationMethod" =
      some r.method := by
  rw [get?_made created value r fun s => by cases s <;> decide]
  rfl

private theorem carries_made (r : ProofRequest σ) (filled : value ≠ []) :
    Carries ((r.options created).set r.representation.key (.text value)) r.representation
      value := by
  cases r.representation with
  | proofValue => exact .proofValue (Members.get?_set_self _ _ _) filled
  | jws =>
    refine .jws (fun other found => ?_) (Members.get?_set_self _ _ _) filled
    rw [Members.get?_set_other _ _ (by decide)] at found
    cases found

theorem accepted_of_made (made : x.request.Made d i proof) (trusted : x.Trusted fetch suites)
    (t u : τ) : Accepted CurveTable.initial fetch suites d i proof t u := by
  obtain @⟨method, created, value, payload, s, s', named, prepared, signed⟩ := made
  obtain ⟨suite, listed, digest, chain, room, takes⟩ := trusted.registered
  obtain ⟨signer, signature, isSigner, signedBytes, shape⟩ := Suite.sign_ok.mp signed
  have presented : ∃ message, (signer.sign message).Ends s (.ok signature) s' ∧
      Presents suite.headerRoom CurveTable.initial x.key payload x.request.representation value
        message signature :=
    ⟨_, signedBytes, shape ▸ Suite.presents_signatureText (trusted.agrees signer isSigner)⟩
  obtain ⟨message, signedBytes, presents⟩ := presented
  obtain ⟨filled, verifies⟩ := takes signer isSigner message signature s s' signedBytes
  have nonempty : value ≠ [] := shape ▸ Suite.signatureText_ne_nil filled
  obtain ⟨fetchedIn, fetched⟩ := trusted.fetched method named t
  obtain ⟨last, verified⟩ := verifies u
  obtain ⟨optionBytes, documentBytes, optionText, documentText, rfl⟩ :=
    Suite.verifyData_ok.mp prepared
  have optionText := Document.canonicalize_within chain room optionText
  have documentText := Document.canonicalize_within chain room documentText
  rw [← options_made created value] at optionText
  rw [← digest] at presents
  have typed := type_made created value x.request
  have names : Names _ method := methodOf_ok.mp (by
    rw [member, method_made created value x.request]
    exact named)
  have carries := carries_made created value x.request nonempty
  exact .intro ⟨x.request.type, .inl typed, listed⟩ carries names fetched optionText documentText
    presents verified

def verdict (x : Signing σ) (i : Nat) : Verdict :=
  ⟨i, x.request.type, (x.request.method.text?).getD [], true, none⟩

private theorem concluded_made (made : x.request.Made d i proof) :
    concluded i proof (.ok ()) = .ok (x.verdict i) := by
  obtain @⟨method, created, value, payload, s, s', named, prepared, signed⟩ := made
  have type : stated "type" ((x.request.options created).set x.request.representation.key
      (.text value)) = x.request.type := by
    rw [stated, member, type_made]
    rfl
  have named : stated "verificationMethod" ((x.request.options created).set
      x.request.representation.key (.text value)) = (x.request.method.text?).getD [] := by
    rw [stated, member, method_made]
    rfl
  rw [concluded, type, named]
  rfl

/-- Whatever steps come in between, the check of a proof that was made ends with its verdict. -/
theorem stands_made {s : τ} {schedule : List Nat} {o : Outcome Verdict}
    (made : x.request.Made d i proof) (trusted : x.Trusted fetch suites)
    (so : Stands CurveTable.initial fetch suites d s schedule i proof (.ended o)) :
    o = .ok (x.verdict i) := by
  have accepted (t u : τ) := accepted_iff.mp (accepted_of_made made trusted t u)
  rcases so.ended_cases with ⟨before, _, _, _, _, _, stopped, _⟩ |
    ⟨before, between, _, k, result, _, _, _, _, _, opened, ended, rfl⟩
  · obtain ⟨_, _, _, opened, _⟩ := accepted (reached CurveTable.initial fetch suites d s before) s
    cases (stopped.unique opened).1
  · obtain ⟨k', _, _, opened', ended'⟩ :=
      accepted (reached CurveTable.initial fetch suites d s before)
        (reached CurveTable.initial fetch suites d s (before ++ i :: between))
    obtain rfl := Except.ok.inj (opened.unique opened').1
    obtain ⟨rfl, _⟩ := ended.unique ended'
    exact concluded_made made

end Accepting

section Calls

open Verification

variable {s : τ} {schedule : List Nat} {verdicts : List Verdict}

private theorem made_of_stands (fresh : d₀.proofs = []) (attached : Attached d₀ signings d)
    (stands : d.proofs[i]? = some proof) :
    ∃ x, signings[i]? = some x ∧ x.request.Made d i proof := by
  obtain ⟨length, each⟩ := attached_made fresh attached
  have inside : i < signings.length := by
    rw [← length]
    exact (List.getElem?_eq_some_iff.mp stands).1
  have signing := List.getElem?_eq_getElem inside
  obtain ⟨proof', stands', made⟩ := each i _ signing
  obtain rfl := Option.some.inj (stands.symm.trans stands')
  exact ⟨_, signing, made⟩

private theorem verdicts_eq (fresh : d₀.proofs = []) (attached : Attached d₀ signings d)
    (trusted : ∀ x ∈ signings, x.Trusted fetch suites)
    (called : Called CurveTable.initial fetch suites d s schedule (.ok verdicts)) :
    verdicts = signings.zipIdx.map fun p => p.1.verdict p.2 := by
  have length := called.length
  have size : verdicts.length = signings.length := length.trans (attached_made fresh attached).1
  refine List.ext_getElem? fun i => ?_
  rw [List.getElem?_map, List.getElem?_zipIdx, Nat.zero_add]
  by_cases inside : i < d.proofs.length
  · have stands := List.getElem?_eq_getElem inside
    obtain ⟨v, listed, so⟩ := called.each stands
    obtain ⟨x, signing, made⟩ := made_of_stands fresh attached stands
    obtain rfl := Except.ok.inj
      (stands_made made (trusted x (List.mem_of_getElem? signing)) so)
    rw [signing]
    exact listed
  · have beyond : verdicts[i]? = none := List.getElem?_eq_none_iff.mpr (by omega)
    have beyond' : signings[i]? = none := List.getElem?_eq_none_iff.mpr (by omega)
    rw [beyond, beyond']
    rfl

theorem called_made (fresh : d₀.proofs = []) (attached : Attached d₀ signings d)
    (trusted : ∀ x ∈ signings, x.Trusted fetch suites) {r : Outcome (List Verdict)}
    (called : Called CurveTable.initial fetch suites d s schedule r) :
    r = .ok (signings.zipIdx.map fun p => p.1.verdict p.2) := by
  cases r with
  | error failure =>
    obtain ⟨i, proof, stands, so⟩ := pooled_error called.result
    obtain ⟨x, signing, made⟩ := made_of_stands fresh attached stands
    cases stands_made made (trusted x (List.mem_of_getElem? signing)) so
  | ok verdicts => rw [verdicts_eq fresh attached trusted called]

/-- Every call on a document that came about by signings returns one verdict on each of them, in
their order, with nothing against it, and both policies accept. -/
theorem signed_verifies (fresh : d₀.get? Document.proofKey = none) (filled : signings ≠ [])
    (attached : Attached d₀ signings d) (trusted : ∀ x ∈ signings, x.Trusted fetch suites)
    {r : Outcome (List Verdict)}
    (called : Called CurveTable.initial fetch suites d s schedule r) :
    ∃ verdicts, r = .ok verdicts ∧ verdicts = signings.zipIdx.map (fun p => p.1.verdict p.2) ∧
      Policy.all.accepts verdicts = true ∧ Policy.any.accepts verdicts = true := by
  refine ⟨_, called_made (Document.proofs_of_missing fresh) attached trusted called, rfl, ?_⟩
  have valid : ∀ v ∈ signings.zipIdx.map (fun p => p.1.verdict p.2), v.valid = true := by
    intro v member
    obtain ⟨p, _, rfl⟩ := List.mem_map.mp member
    rfl
  have some : signings.zipIdx.map (fun p => p.1.verdict p.2) ≠ [] := by simpa using filled
  obtain ⟨v, member⟩ := List.exists_mem_of_ne_nil _ some
  exact ⟨accepts_all.mpr ⟨some, valid⟩, accepts_any.mpr ⟨v, member, valid v member⟩⟩

end Calls

section Echo

def echo (type : Text) (chain : Bool) : Suite Unit where
  type := type
  signer := some ⟨"ES256", fun message => pure (1 :: message)⟩
  verifier := fun _ message signature =>
    if signature = 1 :: message then pure () else throw (.proof .invalidSignature)
  canonicalizer := ⟨chain, Json.usualRoom⟩
  headerRoom := Json.usualRoom
  digest := Digest.sha256

def published : PublicKey := .encoded [] (.text "P-256") PublicKey.defaultType

def echoed (r : Representation) : Signing Unit where
  request := ⟨r.key, echo r.key (r = .jws), .text "did:ex:1#k", r, none,
    ProofRequest.defaultPurpose, .wholeSeconds⟩
  key := published

def echoTable : SuiteTable Unit :=
  SuiteTable.ofSuites (Representation.all.map fun r => (echoed r).request.suite)

def publishing : Fetcher Unit := fun _ _ => pure published

private theorem echoed_trusted (r : Representation) : (echoed r).Trusted publishing echoTable where
  registered := by
    refine ⟨(echoed r).request.suite, by cases r <;> rfl, rfl, rfl, le_rfl, ?_⟩
    rintro signer made message signature s s' signed
    obtain rfl := Option.some.inj made
    obtain ⟨same, _⟩ := Action.ends_pure.mp signed
    obtain rfl := Except.ok.inj same
    refine ⟨List.cons_ne_nil _ _, fun t => ⟨t, ?_⟩⟩
    change (if 1 :: message = 1 :: message then pure () else throw _ : Action Unit Unit).Ends t _ t
    rw [if_pos rfl]
    exact Action.ends_pure.mpr ⟨rfl, rfl⟩
  fetched := fun _ _ t => ⟨t, rfl⟩
  agrees := by
    intro signer made _ curve announced
    obtain rfl := Option.some.inj made
    obtain rfl := Option.some.inj announced
    exact ⟨CurveTable.p256, rfl, rfl⟩

def newYear : Timestamp := ⟨⟨2024, 1, 1, 0, 0, 0, 0, by decide⟩, none⟩

private theorem echoed_attach (r : Representation) {d : Document} {payload : Bytes}
    (whole : d.proofs.length = d.entryCount)
    (data : (echoed r).request.suite.verifyData d
      ((echoed r).request.options "2024-01-01T00:00:00Z") (some d.proofs.length) = .ok payload) :
    ∃ proof, (Document.attach newYear (echoed r).request (.object d)).Ends ()
      (.ok (d.addProof proof)) () := by
  have prepared : (echoed r).request.prepare newYear (.object d) = .ok (d, _, payload) :=
    ProofRequest.prepare_ok.mpr ⟨rfl, by cases r <;> rfl, ⟨⟨"did:ex:1", "k"⟩, by cases r <;> rfl⟩,
      rfl, whole, ⟨"2024-01-01T00:00:00Z", by cases r <;> rfl, rfl⟩, data⟩
  have signed : ((echoed r).request.suite.sign payload (echoed r).request.representation).Ends ()
      (.ok (Suite.signatureText "ES256" (1 :: Suite.signedMessage "ES256" payload r) r)) () :=
    Suite.sign_ok.mpr ⟨_, _, rfl, rfl, rfl⟩
  exact ⟨_, ProofRequest.attach_ok.mpr ⟨d, _, payload, _, prepared, signed, rfl⟩⟩

def unsigned : Document := [("id", .text "urn:1")]

set_option maxRecDepth 8000 in
/-- A proof in a chain and behind it one of a set. -/
theorem echoed_attached : ∃ d, Attached unsigned [echoed .jws, echoed .proofValue] d := by
  have bytes : Document.serialize Json.usualRoom (.object unsigned) =
      .ok (Bytes.ofCodes "\x7b\"id\":\"urn:1\"\x7d") := rfl
  have chained :
      unsigned.canonicalize (echoed .jws).request.suite.canonicalizer
        (some unsigned.proofs.length) = .ok (Bytes.ofCodes "\x7b\"id\":\"urn:1\"\x7d") := rfl
  have optionBytes (r : Representation) : ∃ x, Document.canonicalize ⟨r = .jws, Json.usualRoom⟩
      ((echoed r).request.options "2024-01-01T00:00:00Z") none = .ok x := by
    cases r <;> exact ⟨_, rfl⟩
  obtain ⟨x, first⟩ := optionBytes .jws
  obtain ⟨proof, ended⟩ := @echoed_attach .jws unsigned _ rfl
    (Suite.verifyData_ok.mpr ⟨x, _, first, chained, rfl⟩)
  have bytes' : (unsigned.addProof proof).canonicalize ⟨false, Json.usualRoom⟩
      (some (unsigned.addProof proof).proofs.length) =
      .ok (Bytes.ofCodes "\x7b\"id\":\"urn:1\"\x7d") := by
    rw [Document.canonicalize, Document.signed_set, Document.addProof_erase]
    exact bytes
  obtain ⟨x', second⟩ := optionBytes .proofValue
  obtain ⟨proof', ended'⟩ := echoed_attach .proofValue
    (Document.entryCount_addProof unsigned proof).symm
    (Suite.verifyData_ok.mpr ⟨x', _, second, bytes', rfl⟩)
  exact ⟨_, @Attached.more Unit _ [echoed .jws] _ _ _ _ _ _ (.more .none ended) ended'⟩

open Verification in
theorem signed_verifies_echoed : ∃ d r,
    Attached unsigned [echoed .jws, echoed .proofValue] d ∧
    Called CurveTable.initial publishing echoTable d () (oneByOne 0 d.proofs.length) r ∧
    ∃ verdicts, r = .ok verdicts ∧
      verdicts = [(echoed .jws).verdict 0, (echoed .proofValue).verdict 1] ∧
      Policy.all.accepts verdicts = true ∧ Policy.any.accepts verdicts = true := by
  obtain ⟨d, attached⟩ := echoed_attached
  obtain ⟨r, u, ended⟩ := Action.ends_some
    (run CurveTable.initial publishing echoTable (.object d)) ()
  have trusted : ∀ x ∈ [echoed .jws, echoed .proofValue], x.Trusted publishing echoTable := by
    intro x member
    simp only [List.mem_cons, List.not_mem_nil, or_false] at member
    rcases member with rfl | rfl <;> exact echoed_trusted _
  exact ⟨d, r, attached, .alone ended,
    signed_verifies rfl (List.cons_ne_nil _ _) attached trusted (.alone ended)⟩

end Echo

end Signing

end LinkedProof
