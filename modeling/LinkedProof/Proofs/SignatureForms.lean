import LinkedProof.Proofs.AlgorithmBinding
import LinkedProof.Proofs.LocalKeys

/-! The wire form of signatures in both directions. Two integers have a form exactly if both lie in
the range of the width, and a byte string of the right length is the form of one pair of numbers.
The verifier for local keys takes the forms of the pairs that the raw operation takes, and nothing
else. -/
namespace LinkedProof

-- Powers are the core library's, whatever else is in scope.
attribute [local instance (high)] instPowNat

namespace Bytes

theorem toNat_lt (bytes : Bytes) : toNat bytes < 256 ^ bytes.length := by
  induction bytes using List.reverseRecOn with
  | nil => decide
  | append_singleton front b ih =>
    have last := b.toNat_lt
    rw [toNat_concat, List.length_append, List.length_singleton, Nat.pow_succ]
    omega

theorem ofNat_toNat (bytes : Bytes) : ofNat bytes.length (toNat bytes) = bytes := by
  induction bytes using List.reverseRecOn with
  | nil => rfl
  | append_singleton front b ih =>
    have small := b.toNat_lt
    have leading : (toNat front * 256 + b.toNat) / 256 = toNat front := by omega
    have last : (toNat front * 256 + b.toNat) % 256 = b.toNat := by omega
    rw [toNat_concat, List.length_append, List.length_singleton, ofNat, leading, last, ih,
      UInt8.ofNat_toNat]

end Bytes

namespace Signature

variable {size : Nat} {r s : Int} {m n : Nat} {bytes signature : Bytes} {failure : Failure}

def InRange (size : Nat) (r : Int) : Prop := 0 ≤ r ∧ r < (256 ^ size : Nat)

instance : Decidable (InRange size r) := inferInstanceAs (Decidable (_ ∧ _))

theorem half_ok_iff :
    half size r = .ok bytes ↔ InRange size r ∧ bytes = Bytes.ofNat size r.toNat := by
  by_cases negative : r < 0
  · rw [half, if_neg (by omega), if_pos negative]
    apply iff_of_false
    · intro made
      cases made
    · intro both
      exact absurd both.1.1 (by omega)
  · obtain ⟨m, rfl⟩ := Int.eq_ofNat_of_zero_le (show 0 ≤ r by omega)
    rw [half_ok, Int.toNat_natCast, InRange, Int.ofNat_lt]
    simp

theorem encode_ok_iff : encode r s size = .ok signature ↔ InRange size r ∧ InRange size s ∧
    signature = Bytes.ofNat size r.toNat ++ Bytes.ofNat size s.toNat := by
  simp only [encode, Outcome.bind_ok, Outcome.pure_ok, half_ok_iff]
  constructor
  · intro ⟨_, ⟨first, same⟩, _, ⟨second, same'⟩, whole⟩
    exact ⟨first, second, by rw [← whole, same, same']⟩
  · intro ⟨first, second, whole⟩
    exact ⟨_, ⟨first, rfl⟩, _, ⟨second, rfl⟩, whole.symm⟩

theorem encode_inRange :
    (∃ signature, encode r s size = .ok signature) ↔ InRange size r ∧ InRange size s := by
  simp [encode_ok_iff]

/-- A pair that has a form consists of natural numbers. -/
theorem encode_naturals (encoded : encode r s size = .ok signature) :
    ∃ m n : Nat, r = m ∧ s = n ∧ encode m n size = .ok signature := by
  obtain ⟨first, second, _⟩ := encode_ok_iff.mp encoded
  obtain ⟨m, rfl⟩ := Int.eq_ofNat_of_zero_le first.1
  obtain ⟨n, rfl⟩ := Int.eq_ofNat_of_zero_le second.1
  exact ⟨m, n, rfl, rfl, encoded⟩

theorem decode_iff_encode :
    decode signature size = .ok (m, n) ↔ encode m n size = .ok signature := by
  constructor
  · intro decoded
    obtain ⟨length, rfl, rfl⟩ := decode_ok.mp decoded
    have front : (signature.take size).length = size := by
      rw [List.length_take]
      omega
    have back : (signature.drop size).length = size := by
      rw [List.length_drop]
      omega
    have first := Bytes.toNat_lt (signature.take size)
    have second := Bytes.toNat_lt (signature.drop size)
    have whole := Bytes.ofNat_toNat (signature.take size)
    have whole' := Bytes.ofNat_toNat (signature.drop size)
    rw [front] at first whole
    rw [back] at second whole'
    rw [encode_ok, whole, whole', List.take_append_drop]
    exact ⟨first, second, rfl⟩
  · exact decode_encode

theorem decode_length :
    (∃ pair, decode signature size = .ok pair) ↔ signature.length = 2 * size := by
  simp only [Prod.exists, decode_ok]
  constructor
  · intro ⟨_, _, length, _⟩
    exact length
  · intro length
    exact ⟨_, _, length, rfl, rfl⟩

theorem decode_refused (other : signature.length ≠ 2 * size) :
    decode signature size = .error (.proof (.signature (.length (2 * size) signature.length))) := by
  rw [decode, if_neg (by omega)]

end Signature

namespace LocalVerifier

open Signature

variable {p : Primitive} {table : CurveTable} {key : PublicKey} {message signature : Bytes}
  {size size' m n m' n' : Nat}

/-- The raw operation takes two numbers for a message under the point of a key, with the hash of
the curve of the point; `size` is the width that the curve gives to them. -/
def Takes (p : Primitive) (table : CurveTable) (key : PublicKey) (message : Bytes)
    (size m n : Nat) : Prop :=
  ∃ q e hash, key.point table = .ok q ∧ table.ofCurve q.curve.name = .ok e ∧
    e.coordinateSize = size ∧ e.newHash = .ok hash ∧ p.verify q hash message m n = true

/-- A key has one width. -/
theorem Takes.width (takes : Takes p table key message size m n)
    (takes' : Takes p table key message size' m' n') : size = size' := by
  obtain ⟨q, e, _, point, entry, rfl, _⟩ := takes
  obtain ⟨q', e', _, point', entry', rfl, _⟩ := takes'
  obtain rfl := Except.ok.inj (point.symm.trans point')
  obtain rfl := Except.ok.inj (entry.symm.trans entry')
  rfl

theorem verify_iff_takes : verify p table key message signature = .ok () ↔
    ∃ size m n : Nat, Takes p table key message size m n ∧ encode m n size = .ok signature := by
  rw [verify_iff]
  constructor
  · intro ⟨q, e, hash, point, entry, length, valid⟩
    have decoded := decode_ok.mpr ⟨length, rfl, rfl⟩
    exact ⟨_, _, _, ⟨q, e, hash, point, entry, rfl, valid⟩, decode_iff_encode.mp decoded⟩
  · intro ⟨_, _, _, ⟨q, e, hash, point, entry, width, valid⟩, encoded⟩
    subst width
    obtain ⟨length, rfl, rfl⟩ := decode_ok.mp (decode_encode encoded)
    exact ⟨q, e, hash, point, entry, length, valid⟩

theorem Takes.length (takes : Takes p table key message size m n)
    (taken : verify p table key message signature = .ok ()) : signature.length = 2 * size := by
  obtain ⟨size', _, _, takes', encoded⟩ := verify_iff_takes.mp taken
  rw [length_encode encoded, takes.width takes']

/-- Of the signatures that are read as a pair the verifier takes the form of the pair. -/
theorem Takes.taken_iff (takes : Takes p table key message size m n) :
    verify p table key message signature = .ok () ∧ decode signature size = .ok (m, n) ↔
      encode m n size = .ok signature := by
  rw [decode_iff_encode]
  constructor
  · intro both
    exact both.2
  · intro encoded
    exact ⟨verify_iff_takes.mpr ⟨size, m, n, takes, encoded⟩, encoded⟩

/-- Writing and reading of signatures are inverse to one another, and each of them fails exactly on
what the other does not give: on integers that do not fit, and on byte strings of another length. So
for each pair that the raw operation takes, the verifier takes one byte string, if the pair has a
form at all; and it takes no others. -/
theorem forms_unique :
    (∀ (size : Nat) (r s : Int),
      ((∃ signature, encode r s size = .ok signature) ↔ InRange size r ∧ InRange size s) ∧
      ∀ signature, encode r s size = .ok signature → signature.length = 2 * size ∧
        ∃ m n : Nat, r = m ∧ s = n ∧ decode signature size = .ok (m, n)) ∧
    (∀ (size : Nat) (signature : Bytes),
      ((∃ pair, decode signature size = .ok pair) ↔ signature.length = 2 * size) ∧
      (signature.length ≠ 2 * size → ∃ cause, decode signature size = .error (.proof cause) ∧
        cause.family = .verification) ∧
      ∀ m n : Nat, decode signature size = .ok (m, n) → encode m n size = .ok signature) ∧
    ∀ (p : Primitive) (table : CurveTable) (key : PublicKey) (message : Bytes),
      (∀ signature, verify p table key message signature = .ok () ↔ ∃ size m n : Nat,
        Takes p table key message size m n ∧ encode m n size = .ok signature) ∧
      ∀ size m n : Nat, Takes p table key message size m n →
        (∀ signature, verify p table key message signature = .ok () →
          signature.length = 2 * size) ∧
        (∀ signature signature', verify p table key message signature = .ok () →
          decode signature size = .ok (m, n) → verify p table key message signature' = .ok () →
          decode signature' size = .ok (m, n) → signature = signature') ∧
        ((∃ signature, verify p table key message signature = .ok () ∧
          decode signature size = .ok (m, n)) ↔ InRange size m ∧ InRange size n) := by
  refine ⟨fun size r s => ⟨encode_inRange, ?_⟩, fun size signature => ⟨decode_length, ?_, ?_⟩, ?_⟩
  · intro signature encoded
    obtain ⟨m, n, rfl, rfl, encoded⟩ := encode_naturals encoded
    exact ⟨length_encode encoded, m, n, rfl, rfl, decode_encode encoded⟩
  · intro other
    exact ⟨_, decode_refused other, rfl⟩
  · intro m n decoded
    exact decode_iff_encode.mp decoded
  · intro p table key message
    refine ⟨fun signature => verify_iff_takes, fun size m n takes => ⟨?_, ?_, ?_⟩⟩
    · intro signature taken
      exact takes.length taken
    · intro signature signature' taken decoded taken' decoded'
      have encoded := takes.taken_iff.mp ⟨taken, decoded⟩
      have encoded' := takes.taken_iff.mp ⟨taken', decoded'⟩
      exact Except.ok.inj (encoded.symm.trans encoded')
    · rw [← encode_inRange]
      exact exists_congr fun signature => takes.taken_iff

open LocalSigner in
/-- The one form of a pair whose first number is shorter than the width. -/
theorem forms_unique_unit : ∃ (key : PublicKey) (m n : Nat) (signature : Bytes),
    Takes .deterministic .initial key unitMessage 32 m n ∧ m < 256 ^ 31 ∧
      verify .deterministic .initial key unitMessage signature = .ok () ∧
      decode signature 32 = .ok (m, n) ∧ signature.length = 64 ∧
      ∀ signature', verify .deterministic .initial key unitMessage signature' = .ok () →
        decode signature' 32 = .ok (m, n) → signature' = signature := by
  have binds := @CurveTable.initial_binds _ unitKey.curve CurveTable.p256k_listed rfl
  have point := @PublicKey.point_encoded _ _ unitKey.point PublicKey.defaultType binds
  have takes : Takes .deterministic .initial _ unitMessage 32 _ _ :=
    ⟨_, _, _, point, binds.byCurve, rfl, rfl, unit_signs.taken⟩
  obtain ⟨length, unique, fits⟩ := (forms_unique.2.2 _ _ _ _).2 _ _ _ takes
  obtain ⟨signature, taken, decoded⟩ := fits.mpr ⟨by decide, by decide⟩
  refine ⟨_, _, _, signature, takes, by decide, taken, decoded, length _ taken, ?_⟩
  intro signature' taken' decoded'
  exact unique _ _ taken' decoded' taken decoded

end LocalVerifier

end LinkedProof
