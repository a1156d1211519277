import LinkedProof.Proofs.KeyForms
import LinkedProof.Signer

/-! Signing and checking with keys at hand fit together. What a signer makes of two numbers below
the order of its curve has the width of the curve, and the verifier finds the same two numbers under
each form in which the signer shows its public key. -/
namespace LinkedProof

/-- The raw operations sign a message under a key with two numbers between zero and the order of the
base point, and take this pair under the point of the key. -/
structure Primitive.Signs (p : Primitive) (key : PrivateKey) (hash : HashAlgorithm)
    (message : Bytes) (r s : Nat) : Prop where
  signed : p.sign key hash message = .ok (r, s)
  first : 1 ≤ r ∧ r < key.curve.n
  second : 1 ≤ s ∧ s < key.curve.n
  taken : p.verify key.point hash message r s = true

namespace LocalSigner

variable {p : Primitive} {table : CurveTable} {e : CurveEntry} {key : PrivateKey} {kid : Json}
  {hash : HashAlgorithm} {message signature : Bytes} {r s : Nat}

/-- The forms in which a signer shows its public key: as it is, as its JSON Web Key written into an
object and read from it, and as its encoded point under the name of its curve. -/
inductive Shows (signer : LocalSigner) : PublicKey → Prop
  | own : Shows signer signer.publicKey
  | reread (type : Text) : Shows signer (.jwk (Jwk.ofMembers signer.jwk.toMembers) type)
  | encoded (type : Text) :
    Shows signer (.encoded signer.publicBytes (.text signer.entry.name) type)

def ofEntry (key : PrivateKey) (e : CurveEntry) (kid : Json) : LocalSigner where
  key := key
  entry := e
  jwk := ⟨.text "EC", .text e.name, e.coordinate key.point.x, e.coordinate key.point.y,
    .text e.algorithm, kid⟩

theorem ofKey_ok (binds : table.Binds e key.curve) :
    ofKey table key kid = .ok (ofEntry key e kid) := by
  simp only [ofKey, binds.byCurve, bind, Except.bind, Jwk.ofPoint_ok binds]
  rfl

/-- Each form of the public key stands for the point of the private one. -/
theorem Shows.point {form : PublicKey} (shows : (ofEntry key e kid).Shows form)
    (binds : table.Binds e key.curve) : form.point table = .ok key.point := by
  cases shows with
  | own => exact PublicKey.point_jwk (Jwk.point_coordinates binds rfl rfl rfl rfl)
  | reread type => exact PublicKey.point_jwk (Jwk.point_coordinates binds rfl rfl rfl rfl)
  | encoded type => exact PublicKey.point_encoded binds

/-- Halves as wide as a coordinate have room for all numbers below the order. -/
theorem sign_ok (kid : Json) (binds : table.Binds e key.curve) (made : e.newHash = .ok hash)
    (raw : p.Signs key hash message r s) :
    ∃ signature, (ofEntry key e kid).sign p message = .ok signature ∧
      Signature.encode r s e.coordinateSize = .ok signature := by
  have first := Nat.lt_of_lt_of_le raw.first.2 binds.order
  have second := Nat.lt_of_lt_of_le raw.second.2 binds.order
  have encoded := Signature.encode_ok.mpr ⟨first, second, rfl⟩
  refine ⟨_, ?_, encoded⟩
  simp only [sign, ofEntry, made, raw.signed, Outcome.rename, ok_mapError, bind, Except.bind]
  exact encoded

theorem verify_ok {form : PublicKey} (binds : table.Binds e key.curve)
    (point : form.point table = .ok key.point) (made : e.newHash = .ok hash)
    (raw : p.Signs key hash message r s)
    (encoded : Signature.encode r s e.coordinateSize = .ok signature) :
    LocalVerifier.verify p table form message signature = .ok () := by
  have entry : table.ofCurve key.point.curve.name = .ok e := binds.byCurve
  simp only [LocalVerifier.verify, point, entry, Outcome.rename, ok_mapError, bind,
    Except.bind, Signature.decode_encode encoded, made, raw.taken]
  rfl

/-- Every private key on a curve of the first table has a signer. Its signatures are as long as the
entry of the curve says, and the verifier takes them under every form of its public key. -/
theorem signature_verifies (listed : e ∈ CurveTable.initial.entries)
    (on : e.curve.curve = .ok key.curve) (kid : Json) :
    ∃ signer hash, ofKey .initial key kid = .ok signer ∧ signer.entry = e ∧ e.newHash = .ok hash ∧
      ∀ (p : Primitive) (message : Bytes) (r s : Nat), p.Signs key hash message r s →
        ∃ signature, signer.sign p message = .ok signature ∧
          signature.length = e.signatureSize ∧
          ∀ form, signer.Shows form →
            LocalVerifier.verify p .initial form message signature = .ok () := by
  have binds := CurveTable.initial_binds listed on
  obtain ⟨hash, made⟩ := CurveTable.initial_hashed e listed
  refine ⟨_, hash, ofKey_ok binds, rfl, made, fun p message r s raw => ?_⟩
  obtain ⟨signature, signed, encoded⟩ := sign_ok kid binds made raw
  exact ⟨signature, signed, Signature.length_encode encoded, fun form shows =>
    verify_ok binds (shows.point binds) made raw encoded⟩

def unitKey : PrivateKey where
  scalar := 1
  point := ⟨Curve.secp256k1, Curve.secp256k1.gx, Curve.secp256k1.gy, by decide +kernel⟩
  multiple := by decide +kernel

def unitMessage : Bytes := [0, 2]

theorem unit_signs : Primitive.deterministic.Signs unitKey Digest.sha256.algorithm unitMessage
    0x9856c04dae4da6ad8ff3cac15f2cd5be45b0284ad607f09118e864c08ec373
    0xa97cda48e94be56378a9fcfc38a5cc4ae9740fd622c2290d0dea2a191f49f39d where
  signed := by
    have raw : Ecdsa.sign? unitKey.curve unitKey.scalar .sha256 unitMessage =
        some (0x9856c04dae4da6ad8ff3cac15f2cd5be45b0284ad607f09118e864c08ec373,
          0xa97cda48e94be56378a9fcfc38a5cc4ae9740fd622c2290d0dea2a191f49f39d) := by decide +kernel
    simp only [Primitive.deterministic, HashAlgorithm.digest?_algorithm, raw]
  first := by decide
  second := by decide
  taken := by decide +kernel

theorem signature_verifies_unit : ∃ r s signer signature,
    Primitive.deterministic.Signs unitKey Digest.sha256.algorithm unitMessage r s ∧
    ofKey .initial unitKey (.text "k") = .ok signer ∧
    signer.sign .deterministic unitMessage = .ok signature ∧ signature.length = 64 ∧
    ∀ form, signer.Shows form →
      LocalVerifier.verify .deterministic .initial form unitMessage signature = .ok () := by
  obtain ⟨signer, _, made, _, hash, each⟩ :=
    @signature_verifies CurveTable.p256k unitKey CurveTable.p256k_listed rfl (.text "k")
  obtain rfl : Digest.sha256.algorithm = _ := Except.ok.inj hash
  obtain ⟨signature, signed, length, verified⟩ := each _ _ _ _ unit_signs
  exact ⟨_, _, signer, signature, unit_signs, made, signed, length, verified⟩

end LocalSigner

end LinkedProof
