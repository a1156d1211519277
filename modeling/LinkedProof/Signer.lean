import LinkedProof.KeyFile
import LinkedProof.PublicKey
import LinkedProof.Signature

/-! What signs and what checks signatures, and the two of them for keys that are at hand. -/
namespace LinkedProof

structure Signer (σ : Type) where
  algorithm : Text
  sign : Bytes → Action σ Bytes

/-- Checks a signature of a message under a key; it succeeds when the signature is valid. -/
abbrev Verifier (σ : Type) := PublicKey → Bytes → Bytes → Action σ Unit

structure LocalSigner where
  key : PrivateKey
  entry : CurveEntry
  jwk : Jwk

namespace LocalSigner

def ofKey (table : CurveTable) (key : PrivateKey) (kid : Json) : Outcome LocalSigner := do
  let entry ← table.ofCurve key.curve.name
  let jwk ← Jwk.ofPoint table key.point kid
  return ⟨key, entry, jwk⟩

def ofLoaded (table : CurveTable) (loaded : KeyFile.Loaded) (kid : Json) : Outcome LocalSigner :=
  match loaded with
  | .curveKey key => ofKey table key kid
  | .rsaKey _ => .error (.proof (.notCurveKey KeyFile.rsaName))
  | .otherKey kind => .error (.proof (.notCurveKey kind))

def ofPem (wording : KeyFile.Fault → Text) (table : CurveTable) (pem : Bytes)
    (password : Option Text) (kid : Json) : Outcome LocalSigner := do
  ofLoaded table (← (KeyFile.read pem password).mapError fun f => .keyFile f (wording f)) kid

def generationFailure (entry : CurveEntry) (failure : Failure) : Failure :=
  if failure.isUnfit || failure.isUnsupportedAlgorithm || failure.isSystem then
    .proof (.generation entry.name failure.message)
  else failure

def generate (table : CurveTable) (generator : CurveLabel → Outcome PrivateKey)
    (entry : CurveEntry) (kid : Json) : Outcome LocalSigner := do
  let key ← (generator entry.curve).rename (generationFailure entry)
  ofKey table key kid

def publicKey (s : LocalSigner) : PublicKey := .jwk s.jwk PublicKey.defaultType

def publicBytes (s : LocalSigner) : Bytes := s.key.point.encode

def pem (s : LocalSigner) : Text := KeyFile.write s.key

def signingFailure (entry : CurveEntry) (failure : Failure) : Failure :=
  if failure.isUnfit || failure.isUnsupportedAlgorithm then
    .proof (.signing entry.algorithm failure.message)
  else failure

def sign (p : Primitive) (s : LocalSigner) (message : Bytes) : Outcome Bytes := do
  let (r, t) ← Outcome.rename (signingFailure s.entry) do
    p.sign s.key (← s.entry.newHash) message
  Signature.encode r t s.entry.coordinateSize

def toSigner {σ : Type} (p : Primitive) (s : LocalSigner) : Signer σ where
  algorithm := s.entry.algorithm
  sign message := .ofOutcome (s.sign p message)

end LocalSigner

namespace LocalVerifier

def verify (p : Primitive) (table : CurveTable) (key : PublicKey) (message signature : Bytes) :
    Outcome Unit := do
  let q ← key.point table
  let entry ← (table.ofCurve q.curve.name).rename fun failure => .proof (.refused failure.message)
  let (r, s) ← Signature.decode signature entry.coordinateSize
  let hash ← entry.newHash
  if p.verify q hash message r s then return () else throw (.proof .invalidSignature)

def toVerifier {σ : Type} (p : Primitive) (table : CurveTable) : Verifier σ :=
  fun key message signature => .ofOutcome (verify p table key message signature)

end LocalVerifier

end LinkedProof
