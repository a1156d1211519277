import LinkedProof.Number.Shortest
import Mathlib.Algebra.Order.Field.Power
import Mathlib.Tactic.FieldSimp
import Mathlib.Tactic.Linarith
import Mathlib.Tactic.NormNum
import Mathlib.Tactic.Positivity
import Mathlib.Tactic.Ring

/-! The decimals that are found for a binary number. The interval of a number holds the rationals
that are nearer to it than to any other number; with seventeen digits some decimal lies in it, so
the search ends on one. -/
namespace LinkedProof

namespace Binary64

structure Proper (x : Binary64) : Prop where
  number : x.isNaN = false
  finite : x.isInfinite = false
  filled : x.isZero = false

theorem fraction_lt (x : Binary64) : x.fraction < 2 ^ 52 := Nat.mod_lt _ (by norm_num)

theorem Proper.exponent_lt {x : Binary64} (proper : x.Proper) : x.biasedExponent < 2047 := by
  have bound : x.biasedExponent < 2 ^ 11 := Nat.mod_lt _ (by norm_num)
  have number := proper.number
  have finite := proper.finite
  simp only [isNaN, isInfinite, Bool.and_eq_false_imp, decide_eq_true_eq,
    decide_eq_false_iff_not] at number finite
  by_contra high
  have top : x.biasedExponent = 2047 := by omega
  exact finite top (not_not.mp (number top))

theorem Proper.mantissa_pos {x : Binary64} (proper : x.Proper) : 0 < x.mantissa := by
  have filled := proper.filled
  simp only [isZero, Bool.and_eq_false_imp, decide_eq_true_eq, decide_eq_false_iff_not] at filled
  unfold mantissa
  split
  · rename_i zero
    exact Nat.pos_of_ne_zero (filled zero)
  · positivity

theorem mantissa_lt (x : Binary64) : x.mantissa < 2 ^ 53 := by
  have bound := x.fraction_lt
  unfold mantissa
  split <;> omega

end Binary64

namespace Shortest

def Decimal.value (d : Decimal) : ℚ := d.digits * 10 ^ d.exponent

private theorem power_split (base : Nat) (positive : 0 < base) (q : Int) :
    (base : ℚ) ^ q * ((if -q < 0 then 1 else base ^ (-q).toNat : Nat) : ℚ) =
      ((if q < 0 then 1 else base ^ q.toNat : Nat) : ℚ) := by
  have nonzero : (base : ℚ) ≠ 0 := by positivity
  rcases lt_trichotomy q 0 with low | rfl | high
  · obtain ⟨n, rfl⟩ : ∃ n : Nat, q = -n := ⟨q.natAbs, by omega⟩
    rw [if_neg (by omega), if_pos low]
    simp [nonzero]
  · simp
  · obtain ⟨n, rfl⟩ : ∃ n : Nat, q = n := ⟨q.natAbs, by omega⟩
    rw [if_pos (by omega), if_neg (by omega)]
    simp

/-- The two naturals of a comparison are the two numbers in one common unit. -/
theorem sides_scaled (a : Nat) (p : Int) (b : Nat) (e : Int) : ∃ unit : ℚ, 0 < unit ∧
    ((sides a p b e).1 : ℚ) = a * 2 ^ p * unit ∧ ((sides a p b e).2 : ℚ) = b * 10 ^ e * unit := by
  have two := power_split 2 (by norm_num) p
  have ten := power_split 10 (by norm_num) e
  refine ⟨((if -p < 0 then 1 else 2 ^ (-p).toNat : Nat) : ℚ) *
    ((if -e < 0 then 1 else 10 ^ (-e).toNat : Nat) : ℚ), ?_, ?_, ?_⟩
  · split_ifs <;> positivity
  · simp only [sides]
    push_cast at two ten ⊢
    rw [← two]
    ring
  · simp only [sides]
    push_cast at two ten ⊢
    rw [← ten]
    ring

theorem sides_le {a : Nat} {p : Int} {b : Nat} {e : Int} :
    (sides a p b e).1 ≤ (sides a p b e).2 ↔ (a : ℚ) * 2 ^ p ≤ b * 10 ^ e := by
  obtain ⟨unit, positive, left, right⟩ := sides_scaled a p b e
  rw [← Nat.cast_le (α := ℚ), left, right, mul_le_mul_iff_left₀ positive]

theorem sides_lt {a : Nat} {p : Int} {b : Nat} {e : Int} :
    (sides a p b e).1 < (sides a p b e).2 ↔ (a : ℚ) * 2 ^ p < b * 10 ^ e := by
  obtain ⟨unit, positive, left, right⟩ := sides_scaled a p b e
  rw [← Nat.cast_lt (α := ℚ), left, right, mul_lt_mul_iff_left₀ positive]

theorem sides_ge {a : Nat} {p : Int} {b : Nat} {e : Int} :
    (sides a p b e).2 ≤ (sides a p b e).1 ↔ (b : ℚ) * 10 ^ e ≤ a * 2 ^ p := by
  rw [← not_lt, sides_lt, not_lt]

theorem sides_gt {a : Nat} {p : Int} {b : Nat} {e : Int} :
    (sides a p b e).2 < (sides a p b e).1 ↔ (b : ℚ) * 10 ^ e < a * 2 ^ p := by
  rw [← not_le, sides_le, not_le]

namespace Interval

def Holds (i : Interval) (v : ℚ) : Prop :=
  if i.closed then (i.low : ℚ) * 2 ^ i.exponent ≤ v ∧ v ≤ i.high * 2 ^ i.exponent
  else (i.low : ℚ) * 2 ^ i.exponent < v ∧ v < i.high * 2 ^ i.exponent

theorem Holds.between {i : Interval} {v : ℚ} (inside : i.Holds v) :
    (i.low : ℚ) * 2 ^ i.exponent ≤ v ∧ v ≤ i.high * 2 ^ i.exponent := by
  unfold Holds at inside
  split at inside
  · exact inside
  · exact ⟨inside.1.le, inside.2.le⟩

theorem contains_iff (i : Interval) (d : Decimal) : i.contains d = true ↔ i.Holds d.value := by
  have low := sides_le (a := i.low) (p := i.exponent) (b := d.digits) (e := d.exponent)
  have low' := sides_lt (a := i.low) (p := i.exponent) (b := d.digits) (e := d.exponent)
  have high := sides_ge (a := i.high) (p := i.exponent) (b := d.digits) (e := d.exponent)
  have high' := sides_gt (a := i.high) (p := i.exponent) (b := d.digits) (e := d.exponent)
  cases closed : i.closed <;>
    simp [contains, Holds, Decimal.value, closed, low, low', high, high']

theorem floor_le (i : Interval) (e : Int) :
    (i.floor e : ℚ) * 10 ^ e ≤ i.centre * 2 ^ i.exponent := by
  obtain ⟨unit, positive, left, right⟩ := sides_scaled i.centre i.exponent 1 e
  have quotient : i.floor e * (sides i.centre i.exponent 1 e).2 ≤
      (sides i.centre i.exponent 1 e).1 := Nat.div_mul_le_self _ _
  have scaled : (i.floor e : ℚ) * (1 * 10 ^ e * unit) ≤ i.centre * 2 ^ i.exponent * unit := by
    rw [← left]
    rw [Nat.cast_one] at right
    rw [← right]
    exact_mod_cast quotient
  have cancelled : (i.floor e : ℚ) * 10 ^ e * unit ≤ i.centre * 2 ^ i.exponent * unit := by
    linarith
  exact le_of_mul_le_mul_right cancelled positive

theorem lt_floor_succ (i : Interval) (e : Int) :
    (i.centre : ℚ) * 2 ^ i.exponent < (i.floor e + 1) * 10 ^ e := by
  obtain ⟨unit, positive, left, right⟩ := sides_scaled i.centre i.exponent 1 e
  rw [Nat.cast_one] at right
  have filled : 0 < (sides i.centre i.exponent 1 e).2 := by
    have : (0 : ℚ) < (sides i.centre i.exponent 1 e).2 := by rw [right]; positivity
    exact_mod_cast this
  have quotient : (sides i.centre i.exponent 1 e).1 <
      (i.floor e + 1) * (sides i.centre i.exponent 1 e).2 := by
    have := Nat.lt_mul_div_succ (sides i.centre i.exponent 1 e).1 filled
    rwa [Nat.mul_comm] at this
  have scaled : (i.centre : ℚ) * 2 ^ i.exponent * unit < (i.floor e + 1) * (1 * 10 ^ e * unit) := by
    rw [← left, ← right]
    exact_mod_cast quotient
  have cancelled : (i.centre : ℚ) * 2 ^ i.exponent * unit < (i.floor e + 1) * 10 ^ e * unit := by
    linarith
  exact lt_of_mul_lt_mul_right cancelled positive.le

theorem onGrid?_holds {i : Interval} {e : Int} {d : Decimal} (found : i.onGrid? e = some d) :
    i.Holds d.value := by
  rw [← contains_iff]
  unfold onGrid? at found
  dsimp only at found
  split at found
  · rename_i below above
    obtain rfl := Option.some.inj found
    unfold nearer
    dsimp only
    split_ifs <;> assumption
  · rename_i below above
    obtain rfl := Option.some.inj found
    exact below
  · rename_i below above
    obtain rfl := Option.some.inj found
    exact above
  · cases found

theorem holds_of_inside {i : Interval} {v : ℚ} (low : (i.low : ℚ) * 2 ^ i.exponent < v)
    (high : v < i.high * 2 ^ i.exponent) : i.Holds v := by
  unfold Holds
  split
  · exact ⟨low.le, high.le⟩
  · exact ⟨low, high⟩

/-- A grid that is finer than the interval is wide has a point in it: if neither neighbour of the
centre were inside, the two would be as far apart as the ends. -/
theorem onGrid?_isSome {i : Interval} {e : Int} (low : i.low < i.centre) (high : i.centre < i.high)
    (fine : (10 : ℚ) ^ e < (i.high - i.low) * 2 ^ i.exponent) : ∃ d, i.onGrid? e = some d := by
  have unit : (0 : ℚ) < 2 ^ i.exponent := by positivity
  have lowCentre : (i.low : ℚ) * 2 ^ i.exponent < i.centre * 2 ^ i.exponent :=
    mul_lt_mul_of_pos_right (by exact_mod_cast low) unit
  have centreHigh : (i.centre : ℚ) * 2 ^ i.exponent < i.high * 2 ^ i.exponent :=
    mul_lt_mul_of_pos_right (by exact_mod_cast high) unit
  have below := i.floor_le e
  have above := i.lt_floor_succ e
  by_cases inBelow : i.contains ⟨i.floor e, e⟩ = true
  · cases inAbove : i.contains ⟨i.floor e + 1, e⟩ <;> simp [onGrid?, inBelow, inAbove]
  by_cases inAbove : i.contains ⟨i.floor e + 1, e⟩ = true
  · simp [onGrid?, inBelow, inAbove]
  rw [contains_iff] at inBelow inAbove
  simp only [Decimal.value, Nat.cast_add, Nat.cast_one] at inBelow inAbove
  have left : (i.floor e : ℚ) * 10 ^ e ≤ i.low * 2 ^ i.exponent := by
    by_contra inside
    exact inBelow (holds_of_inside (not_le.mp inside) (by linarith))
  have right : (i.high : ℚ) * 2 ^ i.exponent ≤ (i.floor e + 1) * 10 ^ e := by
    by_contra inside
    exact inAbove (holds_of_inside (by linarith) (not_le.mp inside))
  linarith

/-- The search for the power of ten starts below the centre and does not pass it. -/
theorem magnitude_le (i : Interval) (fuel : Nat) (e : Int)
    (start : (10 : ℚ) ^ e ≤ i.centre * 2 ^ i.exponent) :
    (10 : ℚ) ^ i.magnitude fuel e ≤ i.centre * 2 ^ i.exponent := by
  induction fuel generalizing e with
  | zero => exact start
  | succ fuel ih =>
    have power := sides_lt (a := i.centre) (p := i.exponent) (b := 1) (e := e + 1)
    rw [Nat.cast_one, one_mul] at power
    unfold magnitude
    dsimp only
    split_ifs with beyond
    · exact start
    · exact ih (e + 1) (not_lt.mp fun less => beyond (power.mpr less))

end Interval

theorem search_holds (i : Interval) (magnitude : Int) (fuel count : Nat)
    (hit : ∃ c, count ≤ c ∧ c < count + fuel ∧ ∃ d, i.onGrid? (magnitude + 1 - c) = some d) :
    i.Holds (search i magnitude fuel count).value := by
  induction fuel generalizing count with
  | zero =>
    obtain ⟨c, least, most, _⟩ := hit
    omega
  | succ fuel ih =>
    unfold search
    split
    · rename_i d found
      exact Interval.onGrid?_holds found
    · rename_i missed
      obtain ⟨c, least, most, d, found⟩ := hit
      have later : c ≠ count := by
        rintro rfl
        rw [found] at missed
        cases missed
      exact ih (count + 1) ⟨c, by omega, by omega, d, found⟩

theorem Decimal.trim_value (fuel : Nat) (d : Decimal) : (d.trim fuel).value = d.value := by
  induction fuel generalizing d with
  | zero => rfl
  | succ fuel ih =>
    unfold Decimal.trim
    split
    · rename_i zero
      rw [Bool.and_eq_true, decide_eq_true_eq, decide_eq_true_eq] at zero
      rw [ih]
      have whole : d.digits = 10 * (d.digits / 10) := by omega
      have cast : (d.digits : ℚ) = 10 * (d.digits / 10 : Nat) := by exact_mod_cast whole
      simp only [Decimal.value]
      rw [cast, zpow_add₀ (by norm_num), zpow_one]
      ring
    · rfl

theorem power_le_of_root {a b : ℚ} {g l : Int} (n : Nat) (some : n ≠ 0) (positive : 0 < b)
    (powers : a ^ (g * n) ≤ b ^ (l * n)) : a ^ g ≤ b ^ l := by
  refine le_of_pow_le_pow_left₀ some (zpow_pos positive l).le ?_
  rw [← zpow_natCast, ← zpow_natCast, ← zpow_mul, ← zpow_mul]
  exact powers

/-- An estimate of the power of ten from the power of two: it stays below, since `10 ^ 3 ≤ 2 ^ 10`
and `2 ^ 93 ≤ 10 ^ 28` are close enough for all exponents of a binary number. -/
theorem estimate_le (l : Int) (least : -30000 ≤ l) (most : l ≤ 1900) :
    (10 : ℚ) ^ (l * 30102 / 100000 - 2) ≤ 2 ^ l := by
  rcases le_or_gt 0 l with high | low
  · refine power_le_of_root 10 (by norm_num) (by norm_num) ?_
    calc (10 : ℚ) ^ ((l * 30102 / 100000 - 2) * (10 : Nat))
        ≤ 10 ^ (3 * l) := zpow_le_zpow_right₀ (by norm_num) (by omega)
      _ = (10 ^ 3) ^ l := by rw [zpow_mul]; rfl
      _ ≤ (2 ^ 10) ^ l := zpow_le_zpow_left₀ high (by norm_num) (by norm_num)
      _ = 2 ^ (l * (10 : Nat)) := by rw [mul_comm, zpow_mul]; rfl
  · refine power_le_of_root 93 (by norm_num) (by norm_num) ?_
    have inverted : ((10 : ℚ) ^ 28)⁻¹ ≤ (2 ^ 93)⁻¹ := by norm_num
    calc (10 : ℚ) ^ ((l * 30102 / 100000 - 2) * (93 : Nat))
        ≤ 10 ^ (28 * l) := zpow_le_zpow_right₀ (by norm_num) (by omega)
      _ = ((10 ^ 28)⁻¹) ^ (-l) := by rw [inv_zpow', neg_neg, zpow_mul]; rfl
      _ ≤ ((2 ^ 93)⁻¹) ^ (-l) := zpow_le_zpow_left₀ (by omega) (by positivity) inverted
      _ = 2 ^ (l * (93 : Nat)) := by rw [inv_zpow', neg_neg, mul_comm l, zpow_mul]; rfl

section Found

variable {x : Binary64}

theorem interval_order (proper : x.Proper) :
    (interval x).low < (interval x).centre ∧ (interval x).centre < (interval x).high ∧
      0 < (interval x).low := by
  have positive := proper.mantissa_pos
  simp only [interval]
  split_ifs <;> omega

theorem interval_wide (proper : x.Proper) :
    ((interval x).centre : ℚ) / 10 ^ 16 < (interval x).high - (interval x).low := by
  have positive := proper.mantissa_pos
  have small := x.mantissa_lt
  have order := interval_order proper
  have width : (interval x).centre < 10 ^ 16 * ((interval x).high - (interval x).low) := by
    simp only [interval]
    split_ifs with narrow
    · have exact : x.mantissa = 2 ^ 52 := by
        simp only [Bool.and_eq_true, decide_eq_true_eq] at narrow
        rw [Binary64.mantissa, if_neg (by omega), narrow.1, Nat.add_zero]
      omega
    · omega
  rw [div_lt_iff₀ (by norm_num), ← Nat.cast_sub (by omega), mul_comm]
  exact_mod_cast width

/-- The decimal that is found for a number lies in the interval of the number. -/
theorem decimal_holds (proper : x.Proper) : (interval x).Holds (decimal x).value := by
  obtain ⟨low, high, filled⟩ := interval_order proper
  have positive : (interval x).centre ≠ 0 := by omega
  have unit : (0 : ℚ) < 2 ^ (interval x).exponent := by positivity
  have start : (10 : ℚ) ^ ((((interval x).centre.log2 : Int) + (interval x).exponent) * 30102
      / 100000 - 2) ≤ (interval x).centre * 2 ^ (interval x).exponent := by
    have digits : (interval x).centre.log2 ≤ 55 := by
      have small := x.mantissa_lt
      have : (interval x).centre < 2 ^ 55 := by simp only [interval]; omega
      exact ((Nat.log2_lt positive).mpr this).le
    have exponents : -1076 ≤ (interval x).exponent ∧ (interval x).exponent ≤ 1000 := by
      have bound := proper.exponent_lt
      simp only [interval, Binary64.exponent]
      split_ifs <;> omega
    have least : (2 : ℚ) ^ (interval x).centre.log2 ≤ (interval x).centre := by
      exact_mod_cast Nat.log2_self_le positive
    calc _ ≤ (2 : ℚ) ^ (((interval x).centre.log2 : Int) + (interval x).exponent) :=
          estimate_le _ (by omega) (by omega)
      _ = 2 ^ (interval x).centre.log2 * 2 ^ (interval x).exponent := by
          rw [zpow_add₀ (by norm_num), zpow_natCast]
      _ ≤ _ := mul_le_mul_of_nonneg_right least unit.le
  have reached := (interval x).magnitude_le 6 _ start
  rw [decimal, Decimal.trim_value]
  refine search_holds _ _ 17 1 ⟨17, by omega, by omega, Interval.onGrid?_isSome low high ?_⟩
  have wide := interval_wide proper
  rw [div_lt_iff₀ (by norm_num)] at wide
  have exponent (m : Int) : m + 1 - (17 : Nat) = m - 16 := by omega
  rw [exponent, zpow_sub₀ (by norm_num), div_lt_iff₀ (by norm_num)]
  have scaled := mul_lt_mul_of_pos_right wide unit
  norm_num at scaled ⊢
  linarith

end Found

end Shortest

end LinkedProof
