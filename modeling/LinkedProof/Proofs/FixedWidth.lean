import LinkedProof.Crypto.HashFunction
import LinkedProof.Proofs.Action
import LinkedProof.Signature

/-! Numbers in a fixed count of bytes. A number that fits is written in full width and read as
itself, and a signature is two such numbers side by side. -/
namespace LinkedProof

-- Powers are the core library's, whatever else is in scope.
attribute [local instance (high)] instPowNat

namespace Bytes

variable {size n : Nat} {bytes : Bytes}

theorem toNat_concat (bytes : Bytes) (b : UInt8) :
    toNat (bytes ++ [b]) = toNat bytes * 256 + b.toNat := by
  simp [toNat, List.foldl_append]

theorem toNat_ofNat (fits : n < 256 ^ size) : toNat (ofNat size n) = n := by
  induction size generalizing n with
  | zero =>
    have zero : n = 0 := by simpa using fits
    rw [zero]
    rfl
  | succ size ih =>
    have leading : n / 256 < 256 ^ size := by
      rw [Nat.pow_succ] at fits
      exact Nat.div_lt_of_lt_mul (by rwa [Nat.mul_comm])
    have last : (UInt8.ofNat (n % 256)).toNat = n % 256 := by simp
    rw [ofNat, toNat_concat, ih leading, last]
    omega

theorem ofNat?_eq_some : ofNat? size n = some bytes ↔ n < 256 ^ size ∧ bytes = ofNat size n := by
  rw [ofNat?]
  split
  · rename_i fits
    rw [Option.some.injEq, eq_comm]
    exact (and_iff_right fits).symm
  · rename_i tooBig
    exact iff_of_false nofun fun both => tooBig both.1

end Bytes

namespace Signature

variable {size n r s : Nat} {bytes signature : Bytes}

theorem half_ok : half size n = .ok bytes ↔ n < 256 ^ size ∧ bytes = Bytes.ofNat size n := by
  rw [← Bytes.ofNat?_eq_some, half, if_neg (by omega), if_neg (by omega)]
  simp only [Int.toNat_natCast]
  cases Bytes.ofNat? size n with
  | none => exact iff_of_false nofun nofun
  | some found => rw [Except.ok.injEq, Option.some.injEq]

theorem encode_ok : encode r s size = .ok signature ↔ r < 256 ^ size ∧ s < 256 ^ size ∧
    signature = Bytes.ofNat size r ++ Bytes.ofNat size s := by
  simp only [encode, Outcome.bind_ok, Outcome.pure_ok, half_ok]
  constructor
  · rintro ⟨first, ⟨fits, rfl⟩, second, ⟨fits', rfl⟩, rfl⟩
    exact ⟨fits, fits', rfl⟩
  · rintro ⟨fits, fits', rfl⟩
    exact ⟨_, ⟨fits, rfl⟩, _, ⟨fits', rfl⟩, rfl⟩

theorem length_encode (encoded : encode r s size = .ok signature) :
    signature.length = 2 * size := by
  obtain ⟨_, _, rfl⟩ := encode_ok.mp encoded
  rw [List.length_append, Bytes.length_ofNat, Bytes.length_ofNat]
  omega

theorem decode_ok : decode signature size = .ok (r, s) ↔ signature.length = 2 * size ∧
    Bytes.toNat (signature.take size) = r ∧ Bytes.toNat (signature.drop size) = s := by
  rw [decode]
  by_cases length : signature.length = 2 * size
  · rw [if_pos (by omega), Except.ok.injEq, Prod.mk.injEq, Int.toNat_natCast]
    exact (and_iff_right length).symm
  · rw [if_neg (by omega)]
    exact iff_of_false nofun fun both => length both.1

theorem decode_encode (encoded : encode r s size = .ok signature) :
    decode signature size = .ok (r, s) := by
  have length := length_encode encoded
  obtain ⟨fits, fits', rfl⟩ := encode_ok.mp encoded
  have halves : (Bytes.ofNat size r).length = size := Bytes.length_ofNat size r
  rw [decode_ok, List.take_left' halves, List.drop_left' halves]
  exact ⟨length, Bytes.toNat_ofNat fits, Bytes.toNat_ofNat fits'⟩

end Signature

end LinkedProof
