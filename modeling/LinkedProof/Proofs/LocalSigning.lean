import LinkedProof.Proofs.KeyFile
import LinkedProof.Proofs.LocalKeys
import LinkedProof.Proofs.RoundTrip

/-! Signing with a key from a file. Whatever curve the key lies on, the signer that is made of it is
one whose signatures a suite with the local verifier takes under a form of its public key. -/
namespace LinkedProof

/-- Whatever the raw operations sign they take as well. -/
def Primitive.Consistent (p : Primitive) : Prop :=
  ∀ (key : PrivateKey) (hash : HashAlgorithm) (message : Bytes) (r s : Nat),
    p.sign key hash message = .ok (r, s) → p.Signs key hash message r s

def Primitive.checked (p : Primitive) : Primitive where
  sign key hash message := do
    let (r, s) ← p.sign key hash message
    if (1 ≤ r ∧ r < key.curve.n) ∧ (1 ≤ s ∧ s < key.curve.n) ∧
        p.verify key.point hash message r s = true then return (r, s)
    else throw (.external .runtime "a signature that does not hold")
  verify := p.verify

namespace LocalSigner

variable {p : Primitive} {key : PrivateKey} {e : CurveEntry} {kid : Json} {signer : LocalSigner}
  {pem message signature : Bytes} {password : Option Text} {wording : KeyFile.Fault → Text}

/-- The signer of a key from a file is that of an entry which the first table binds the curve of the
key to. -/
theorem ofPem_initial (made : ofPem wording .initial pem password kid = .ok signer) :
    ∃ key e, KeyFile.read pem password = .ok (.curveKey key) ∧
      CurveTable.initial.Binds e key.curve ∧ signer = ofEntry key e kid := by
  obtain ⟨loaded, read, made⟩ := Outcome.bind_ok.mp made
  have read := Outcome.mapError_ok.mp read
  cases loaded with
  | curveKey key =>
    obtain ⟨e, found, _⟩ := Outcome.bind_ok.mp made
    have listed := List.mem_of_find?_eq_some (CurveTable.ofCurve_ok.mp found)
    have binds := CurveTable.initial_binds listed
      (CurveTable.ofCurve_available (KeyFile.read_available read) found)
    exact ⟨key, e, read, binds, Except.ok.inj (made.symm.trans (ofKey_ok binds))⟩
  | rsaKey numbers => cases made
  | otherKey kind => cases made

/-- What a signer of an entry signs is two numbers in the width of the entry. -/
theorem sign_cases (signed : (ofEntry key e kid).sign p message = .ok signature) :
    ∃ hash r s, e.newHash = .ok hash ∧ p.sign key hash message = .ok (r, s) ∧
      Signature.encode r s e.coordinateSize = .ok signature := by
  obtain ⟨⟨r, s⟩, raw, encoded⟩ := Outcome.bind_ok.mp signed
  obtain ⟨hash, made, raw⟩ := Outcome.bind_ok.mp (Outcome.rename_ok.mp raw)
  exact ⟨hash, r, s, made, raw, encoded⟩

/-- Whatever a signer of an entry signs is taken under every key of the same point. -/
theorem verify_signed {table : CurveTable} {form : PublicKey} (binds : table.Binds e key.curve)
    (consistent : p.Consistent) (point : form.point table = .ok key.point)
    (signed : (ofEntry key e kid).sign p message = .ok signature) :
    signature ≠ [] ∧ LocalVerifier.verify p table form message signature = .ok () := by
  obtain ⟨hash, r, s, made, signed, encoded⟩ := sign_cases signed
  have raw := consistent _ _ _ _ _ signed
  refine ⟨fun empty => ?_, verify_ok binds point made raw encoded⟩
  -- without any width there would be no number below the order
  have length := Signature.length_encode encoded
  have order := binds.order
  have first := raw.first
  have none : e.coordinateSize = 0 := by
    rw [empty, List.length_nil] at length
    omega
  rw [none] at order
  omega

end LocalSigner

namespace Signing

variable {σ τ : Type} {fetch : Fetcher τ} {suites : SuiteTable τ} {request : ProofRequest σ}
  {p : Primitive} {key : PrivateKey} {e : CurveEntry} {kid : Json} {form : PublicKey}

/-- A proof by a local signer is taken where its type has a suite with the local verifier, and the
key that is fetched is of the signer's point and announces the entry of the signer. -/
theorem trusted_local (binds : CurveTable.initial.Binds e key.curve) (consistent : p.Consistent)
    (signs : request.suite.signer = some ((LocalSigner.ofEntry key e kid).toSigner p))
    (registered : ∃ suite, suites.get? request.type = some suite ∧
      suite.digest = request.suite.digest ∧
      suite.canonicalizer.chain = request.suite.canonicalizer.chain ∧
      request.suite.canonicalizer.room ≤ suite.canonicalizer.room ∧
      suite.verifier = LocalVerifier.toVerifier p .initial)
    (fetched : ∀ method, Method.ofValue request.method = .ok method →
      ∀ t, ∃ u, (fetch method.issuer method.keyId).Ends t (.ok form) u)
    (point : form.point .initial = .ok key.point)
    (announced : DetachedJws.announcedCurve? form = some (.text e.name)) :
    (⟨request, form⟩ : Signing σ).Trusted fetch suites where
  registered := by
    obtain ⟨suite, listed, digest, chain, room, verifier⟩ := registered
    refine ⟨suite, listed, digest, chain, room, ?_⟩
    intro signer isSigner message signature s s' ended
    obtain rfl := Option.some.inj (signs.symm.trans isSigner)
    obtain ⟨filled, taken⟩ :=
      LocalSigner.verify_signed binds consistent point (Action.ends_ofOutcome.mp ended).1
    refine ⟨filled, fun t => ⟨t, ?_⟩⟩
    rw [verifier]
    exact Action.ends_ofOutcome.mpr ⟨taken, rfl⟩
  fetched := fetched
  agrees := by
    intro signer isSigner _ curve announces
    obtain rfl := Option.some.inj (signs.symm.trans isSigner)
    obtain rfl := Option.some.inj (announced.symm.trans announces)
    exact ⟨e, binds.byName, rfl⟩

end Signing

end LinkedProof
