import LinkedProof.Crypto.Sha2

/-! Hash functions by what a suite asks of them: all of their values have one length. -/
namespace LinkedProof

structure HashFunction where
  size : Nat
  hash : Bytes → Bytes
  length_hash : ∀ message, (hash message).length = size

theorem Bytes.length_ofNat (size n : Nat) : (Bytes.ofNat size n).length = size := by
  induction size generalizing n with
  | zero => rfl
  | succ size ih => simp [Bytes.ofNat, ih]

theorem Sha2.length_run {w : Nat} (family : Sha2.Family w) (initial : List (BitVec w))
    (message : Bytes) : (Sha2.run family initial message).length = 8 * (w / 8) := by
  simp only [Sha2.run, Sha2.Working.toList, List.flatMap_cons, List.flatMap_nil,
    List.length_append, Bytes.length_ofNat, List.length_nil]
  omega

namespace Digest

theorem length_hash (d : Digest) (message : Bytes) : (d.hash message).length = d.size := by
  cases d with
  | sha256 => exact Sha2.length_run _ _ message
  | sha384 =>
    rw [hash, List.length_take, Sha2.length_run]
    rfl
  | sha512 => exact Sha2.length_run _ _ message

def function (d : Digest) : HashFunction := ⟨d.size, d.hash, d.length_hash⟩

instance : Coe Digest HashFunction := ⟨function⟩

end Digest

end LinkedProof
