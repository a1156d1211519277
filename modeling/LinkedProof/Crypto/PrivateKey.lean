import LinkedProof.Crypto.Ecdsa
import LinkedProof.Crypto.HashAlgorithm

/-! Private keys, and the raw operations that sign and check with elliptic curve keys. -/
namespace LinkedProof

structure PrivateKey where
  scalar : Nat
  point : CurvePoint
  multiple : CurvePoint.ofScalar? point.curve scalar = some point

namespace PrivateKey

def curve (k : PrivateKey) : Curve := k.point.curve

theorem curve_ofCoordinates? {c : Curve} {x y : Nat} {q : CurvePoint}
    (found : CurvePoint.ofCoordinates? c x y = some q) : q.curve = c := by
  unfold CurvePoint.ofCoordinates? at found
  split at found
  · exact (Option.some.inj found) ▸ rfl
  · contradiction

theorem curve_ofScalar? {c : Curve} {scalar : Nat} {q : CurvePoint}
    (found : CurvePoint.ofScalar? c scalar = some q) : q.curve = c := by
  unfold CurvePoint.ofScalar? at found
  obtain ⟨_, _, inside⟩ := Option.bind_eq_some_iff.mp found
  exact curve_ofCoordinates? inside

def ofScalar? (c : Curve) (scalar : Nat) : Option PrivateKey :=
  if 0 < scalar && scalar < c.n then
    match found : CurvePoint.ofScalar? c scalar with
    | some point => some ⟨scalar, point, by rw [curve_ofScalar? found]; exact found⟩
    | none => none
  else none

end PrivateKey

structure Primitive where
  sign : PrivateKey → HashAlgorithm → Bytes → Outcome (Nat × Nat)
  verify : CurvePoint → HashAlgorithm → Bytes → Nat → Nat → Bool

namespace Primitive

/-- Signatures with nonces drawn from the key and the message, for the hashes that are digests at
hand. -/
def deterministic : Primitive where
  sign key hash message :=
    match hash.digest? with
    | none => .error (.external .unsupportedAlgorithm (hash.name ++ " is not supported"))
    | some digest =>
      match Ecdsa.sign? key.curve key.scalar digest message with
      | some signature => .ok signature
      | none => .error (.external .runtime "no nonce gives a signature")
  verify q hash message r s := hash.digest?.any fun digest => Ecdsa.verify q digest message r s

def failing (p : Primitive) (failure : Failure) : Primitive :=
  { p with sign := fun _ _ _ => .error failure }

end Primitive

end LinkedProof
