import LinkedProof.Proofs.Number.Shortest

/-! Reading a decimal: whatever lies in the interval of a number is rounded to that number, so the
decimal that was found for a number is read as the number again. What is read is always a number. -/
namespace LinkedProof.Binary64

theorem ofFields_self (x : Binary64) : ofFields x.isNegative x.biasedExponent x.fraction = x := by
  have bound : x.bits.toNat < 2 ^ 64 := x.bits.toNat_lt
  have bits : (if x.isNegative then 2 ^ 63 else 0) + x.biasedExponent * 2 ^ 52 + x.fraction =
      x.bits.toNat := by
    simp only [isNegative, biasedExponent, fraction, decide_eq_true_eq]
    split_ifs <;> omega
  rw [ofFields, bits, UInt64.ofNat_toNat]

/-- A quotient between two halves around a natural number is rounded to it, and on a half if the
number is even. -/
theorem roundQuotient_eq {n d k : Nat} (positive : 0 < d)
    (low : 2 * k * d ≤ 2 * n + d) (high : 2 * n ≤ (2 * k + 1) * d)
    (tie : k % 2 = 0 ∨ 2 * k * d < 2 * n + d ∧ 2 * n < (2 * k + 1) * d) :
    roundQuotient n d = k := by
  have parts := Nat.div_add_mod n d
  have small := Nat.mod_lt n positive
  unfold roundQuotient
  dsimp only
  generalize n / d = whole at parts ⊢
  generalize n % d = rest at parts small ⊢
  subst parts
  -- every comparison of `k` with the whole part goes through a product with the denominator
  have order (a b : Nat) (less : d * a < d * b) : a < b := Nat.lt_of_mul_lt_mul_left less
  split_ifs with below above
  · have upper := order (2 * k) (2 * (whole + 1)) (by nlinarith)
    have lower := order (2 * whole) (2 * k + 2) (by nlinarith)
    omega
  · have upper := order (2 * k) (2 * whole + 3) (by nlinarith)
    have lower := order (2 * whole) (2 * k) (by nlinarith)
    omega
  · have half : 2 * rest = d := by omega
    have upper := order (2 * k) (2 * whole + 3) (by nlinarith)
    have lower := order (2 * whole) (2 * k + 1) (by nlinarith)
    rcases tie with even | ⟨strictLow, strictHigh⟩
    · omega
    · have upper' := order (2 * k) (2 * whole + 2) (by nlinarith)
      have lower' := order (2 * whole) (2 * k) (by nlinarith)
      omega

theorem scaled_value {n d : Nat} (positive : 0 < d) (e : Int) : 0 < (scaled n d e).2 ∧
    ((scaled n d e).1 : ℚ) * 2 ^ e = (n : ℚ) / d * (scaled n d e).2 := by
  have nonzero : (d : ℚ) ≠ 0 := by positivity
  unfold scaled
  split_ifs with low
  · obtain ⟨k, rfl⟩ : ∃ k : Nat, e = -k := ⟨e.natAbs, by omega⟩
    refine ⟨positive, ?_⟩
    simp [nonzero]
  · obtain ⟨k, rfl⟩ : ∃ k : Nat, e = k := ⟨e.natAbs, by omega⟩
    refine ⟨by positivity, ?_⟩
    rw [div_mul_eq_mul_div, eq_div_iff nonzero]
    simp
    ring

theorem log2_between {n : Nat} (positive : 0 < n) :
    (2 : ℚ) ^ (n.log2 : Int) ≤ n ∧ (n : ℚ) < 2 ^ ((n.log2 : Int) + 1) := by
  have least := Nat.log2_self_le positive.ne'
  have most := @Nat.lt_log2_self n
  constructor
  · rw [zpow_natCast]
    exact_mod_cast least
  · rw [← Nat.cast_succ, zpow_natCast]
    exact_mod_cast most

/-- The exponent leaves 53 bits in front of the point, unless that takes less than the least one. -/
theorem exponentOf_tight {n d : Nat} (some : 0 < n) (positive : 0 < d) :
    ∃ tight : Int, exponentOf n d = max tight (-1074) ∧
      (2 : ℚ) ^ (tight + 52) ≤ n / d ∧ (n / d : ℚ) < 2 ^ (tight + 53) := by
  obtain ⟨numLow, numHigh⟩ := log2_between some
  obtain ⟨denLow, denHigh⟩ := log2_between positive
  have filled : (0 : ℚ) < d := by exact_mod_cast positive
  generalize guessed : (n.log2 : Int) - d.log2 - 52 = guess
  have low : (2 : ℚ) ^ (guess + 51) ≤ n / d := by
    rw [le_div_iff₀ filled]
    calc (2 : ℚ) ^ (guess + 51) * d
        ≤ 2 ^ (guess + 51) * 2 ^ ((d.log2 : Int) + 1) := by gcongr
      _ = 2 ^ (n.log2 : Int) := by rw [← zpow_add₀ (by norm_num)]; congr 1; omega
      _ ≤ n := numLow
  have high : (n / d : ℚ) < 2 ^ (guess + 53) := by
    rw [div_lt_iff₀ filled]
    calc (n : ℚ) < 2 ^ ((n.log2 : Int) + 1) := numHigh
      _ = 2 ^ (guess + 53) * 2 ^ (d.log2 : Int) := by
          rw [← zpow_add₀ (by norm_num)]; congr 1; omega
      _ ≤ 2 ^ (guess + 53) * d := by gcongr
  obtain ⟨unit, value⟩ := scaled_value (n := n) positive guess
  have unit' : (0 : ℚ) < (scaled n d guess).2 := by exact_mod_cast unit
  have power : (0 : ℚ) < 2 ^ guess := by positivity
  have halfway : (scaled n d guess).1 < (scaled n d guess).2 * 2 ^ 52 ↔
      (n / d : ℚ) < 2 ^ (guess + 52) := by
    have common : (((scaled n d guess).2 * 2 ^ 52 : Nat) : ℚ) * 2 ^ guess =
        2 ^ (guess + 52) * (scaled n d guess).2 := by
      rw [Nat.cast_mul, Nat.cast_pow, Nat.cast_ofNat, zpow_add₀ (by norm_num), zpow_ofNat]
      ring
    rw [← Nat.cast_lt (α := ℚ), ← mul_lt_mul_iff_left₀ power, value, common,
      mul_lt_mul_iff_left₀ unit']
  unfold exponentOf
  dsimp only
  rw [guessed]
  split_ifs with short
  · have exact : guess - 1 + 53 = guess + 52 := by omega
    have exact' : guess - 1 + 52 = guess + 51 := by omega
    exact ⟨guess - 1, rfl, by rwa [exact'], by rw [exact]; exact halfway.mp short⟩
  · exact ⟨guess, rfl, not_lt.mp (fun less => short (halfway.mpr less)), high⟩

/-- A quotient is rounded in units of a power of two to the multiple that is within half a unit. -/
theorem roundQuotient_scaled {n d k : Nat} {e : Int} (positive : 0 < d)
    (low : ((k : ℚ) - 1 / 2) * 2 ^ e ≤ n / d) (high : (n / d : ℚ) ≤ (k + 1 / 2) * 2 ^ e)
    (tie : k % 2 = 0 ∨
      ((k : ℚ) - 1 / 2) * 2 ^ e < n / d ∧ (n / d : ℚ) < (k + 1 / 2) * 2 ^ e) :
    roundQuotient (scaled n d e).1 (scaled n d e).2 = k := by
  obtain ⟨unit, value⟩ := scaled_value (n := n) positive e
  have unit' : (0 : ℚ) < (scaled n d e).2 := by exact_mod_cast unit
  have power : (0 : ℚ) < 2 ^ e := by positivity
  generalize (scaled n d e).1 = num at value ⊢
  generalize (scaled n d e).2 = den at unit unit' value ⊢
  have share : (n / d : ℚ) = num / den * 2 ^ e := by
    rw [div_mul_eq_mul_div, value, mul_div_assoc, div_self unit'.ne', mul_one]
  rw [share, mul_le_mul_iff_left₀ power, le_div_iff₀ unit'] at low
  rw [share, mul_le_mul_iff_left₀ power, div_le_iff₀ unit'] at high
  rw [share, mul_lt_mul_iff_left₀ power, mul_lt_mul_iff_left₀ power, lt_div_iff₀ unit',
    div_lt_iff₀ unit'] at tie
  refine roundQuotient_eq unit ?_ ?_ (tie.imp_right fun both => ⟨?_, ?_⟩)
  · have : (2 * k * den : ℚ) ≤ 2 * num + den := by linarith
    exact_mod_cast this
  · have : (2 * num : ℚ) ≤ (2 * k + 1) * den := by linarith
    exact_mod_cast this
  · have : (2 * k * den : ℚ) < 2 * num + den := by linarith [both.1]
    exact_mod_cast this
  · have : (2 * num : ℚ) < (2 * k + 1) * den := by linarith [both.2]
    exact_mod_cast this

section Proper

variable {x : Binary64}

theorem ofMantissa_self (proper : x.Proper) :
    ofMantissa x.isNegative x.mantissa x.exponent = x := by
  have small := x.mantissa_lt
  have least := x.fraction_lt
  have most := proper.exponent_lt
  conv_rhs => rw [← ofFields_self x]
  unfold ofMantissa
  rw [if_neg (show x.mantissa ≠ 2 ^ 53 by omega)]
  dsimp only
  by_cases subnormal : x.biasedExponent = 0
  · rw [mantissa, if_pos subnormal, if_pos least, subnormal]
  · have exponents : ((x.biasedExponent : Int) - 1075 + 1075).toNat = x.biasedExponent := by omega
    rw [mantissa, exponent, if_neg subnormal, if_neg subnormal, if_neg (by omega),
      if_neg (by omega), exponents, Nat.add_sub_cancel_left]

/-- A mantissa that was rounded up to one bit more is the next power of two. -/
theorem ofMantissa_carry (proper : x.Proper) (power : x.fraction = 0)
    (normal : 0 < x.biasedExponent) : ofMantissa x.isNegative (2 ^ 53) (x.exponent - 1) = x := by
  have own := ofMantissa_self proper
  have shape : x.mantissa = 2 ^ 52 := by rw [mantissa, if_neg (by omega), power, Nat.add_zero]
  rw [shape] at own
  conv_rhs => rw [← own]
  simp [ofMantissa]

/-- A power of two, below which the numbers lie half as far apart as above it. -/
def Narrow (x : Binary64) : Prop := x.fraction = 0 ∧ 1 < x.biasedExponent

theorem Narrow.mantissa_eq (narrow : x.Narrow) : x.mantissa = 2 ^ 52 := by
  obtain ⟨power, normal⟩ := narrow
  rw [mantissa, if_neg (by omega), power, Nat.add_zero]

private theorem quarters (k : ℚ) (e : Int) : k * 2 ^ (e - 2) = k / 4 * 2 ^ e := by
  rw [zpow_sub₀ (by norm_num)]
  norm_num
  ring

theorem interval_high (x : Binary64) :
    ((Shortest.interval x).high : ℚ) * 2 ^ (Shortest.interval x).exponent =
      (x.mantissa + 1 / 2) * 2 ^ x.exponent := by
  simp only [Shortest.interval, quarters]
  push_cast
  ring

theorem interval_low (proper : x.Proper) (wide : ¬x.Narrow) :
    ((Shortest.interval x).low : ℚ) * 2 ^ (Shortest.interval x).exponent =
      (x.mantissa - 1 / 2) * 2 ^ x.exponent := by
  have positive := proper.mantissa_pos
  have narrow : (decide (x.fraction = 0) && decide (1 < x.biasedExponent)) = false := by
    simpa [Narrow] using wide
  simp only [Shortest.interval, quarters, narrow]
  rw [if_neg (by simp), Nat.cast_sub (by omega)]
  push_cast
  ring

theorem interval_low_narrow (proper : x.Proper) (narrow : x.Narrow) :
    ((Shortest.interval x).low : ℚ) * 2 ^ (Shortest.interval x).exponent =
      (x.mantissa - 1 / 4) * 2 ^ x.exponent := by
  have positive := proper.mantissa_pos
  have narrow : (decide (x.fraction = 0) && decide (1 < x.biasedExponent)) = true := by
    simpa [Narrow] using narrow
  simp only [Shortest.interval, quarters, narrow]
  rw [if_pos trivial, Nat.cast_sub (by omega)]
  push_cast
  ring

private theorem exponent_lt_of_power {a b : Int} {v : ℚ} (low : 2 ^ a ≤ v) (high : v < 2 ^ b) :
    a < b := (zpow_lt_zpow_iff_right₀ (by norm_num)).mp (low.trans_lt high)

private theorem power_add (e k : Int) : (2 : ℚ) ^ (e + k) = 2 ^ k * 2 ^ e := by
  rw [zpow_add₀ (by norm_num), mul_comm]

/-- Fewer than 53 bits stand above the least exponent. -/
private theorem exponentOf_subnormal {n d : Nat} (some : 0 < n) (positive : 0 < d)
    (subnormal : x.biasedExponent = 0)
    (most : (n / d : ℚ) ≤ (x.mantissa + 1 / 2) * 2 ^ x.exponent) :
    exponentOf n d = x.exponent := by
  obtain ⟨tight, same, low, high⟩ := exponentOf_tight some positive
  have exponent : x.exponent = -1074 := by rw [exponent, if_pos subnormal]
  have short : (x.mantissa : ℚ) + 1 ≤ 2 ^ 52 := by
    have := x.fraction_lt
    rw [mantissa, if_pos subnormal]
    exact_mod_cast this
  have less := exponent_lt_of_power low (b := x.exponent + 52) (lt_of_le_of_lt most (by
    rw [power_add, zpow_ofNat]
    exact mul_lt_mul_of_pos_right (by linarith) (by positivity)))
  omega

/-- Away from the powers of two there are 53 bits from half a unit below to half a unit above. -/
private theorem exponentOf_wide {n d : Nat} (some : 0 < n) (positive : 0 < d)
    (normal : x.biasedExponent ≠ 0) (wide : ¬x.Narrow)
    (least : (x.mantissa - 1 / 2) * 2 ^ x.exponent ≤ (n / d : ℚ))
    (less : (n / d : ℚ) < 2 ^ (x.exponent + 53)) : exponentOf n d = x.exponent := by
  obtain ⟨tight, same, low, high⟩ := exponentOf_tight some positive
  have exponent : x.exponent = (x.biasedExponent : Int) - 1075 := by rw [exponent, if_neg normal]
  have upper := exponent_lt_of_power low less
  by_cases first : x.biasedExponent = 1
  · omega
  · have odd : (2 : ℚ) ^ 52 + 1 ≤ x.mantissa := by
      have filled : x.fraction ≠ 0 := fun zero => wide ⟨zero, by omega⟩
      rw [mantissa, if_neg normal]
      exact_mod_cast (show 2 ^ 52 + 1 ≤ 2 ^ 52 + x.fraction by omega)
    have lower := exponent_lt_of_power (a := x.exponent + 52) (le_trans (by
      rw [power_add, zpow_ofNat]
      exact mul_le_mul_of_nonneg_right (by linarith) (by positivity)) least) high
    omega

/-- At a power of two the exponent says on which side of it a value lies. -/
private theorem exponentOf_narrow {n d : Nat} (some : 0 < n) (positive : 0 < d) (narrow : x.Narrow)
    (least : (x.mantissa - 1 / 4) * 2 ^ x.exponent ≤ (n / d : ℚ))
    (less : (n / d : ℚ) < 2 ^ (x.exponent + 53)) :
    exponentOf n d = x.exponent ∧ (x.mantissa : ℚ) * 2 ^ x.exponent ≤ n / d ∨
      exponentOf n d = x.exponent - 1 ∧ (n / d : ℚ) < x.mantissa * 2 ^ x.exponent := by
  obtain ⟨tight, same, low, high⟩ := exponentOf_tight some positive
  have normal := narrow.2
  have exponent : x.exponent = (x.biasedExponent : Int) - 1075 := by
    rw [exponent, if_neg (by omega)]
  have shape : (x.mantissa : ℚ) = 2 ^ 52 := by exact_mod_cast narrow.mantissa_eq
  have upper := exponent_lt_of_power low less
  have lower := exponent_lt_of_power (a := x.exponent + 51) (le_trans (by
    rw [power_add, zpow_ofNat, shape]
    exact mul_le_mul_of_nonneg_right (by norm_num) (by positivity)) least) high
  rcases lt_or_ge (n / d : ℚ) (x.mantissa * 2 ^ x.exponent) with below | above
  · have less := exponent_lt_of_power (b := x.exponent + 52) low
      (by rwa [power_add, zpow_ofNat, ← shape])
    exact .inr ⟨by omega, below⟩
  · have more := exponent_lt_of_power (a := x.exponent + 52)
      (by rwa [power_add, zpow_ofNat, ← shape]) high
    exact .inl ⟨by omega, above⟩

/-- The exponent for what lies in the interval of a number is the exponent of the number. Only just
below a power of two, where the numbers lie closer, it is one less. -/
theorem exponentOf_inside {n d : Nat} (proper : x.Proper) (some : 0 < n) (positive : 0 < d)
    (inside : (Shortest.interval x).Holds (n / d)) :
    exponentOf n d = x.exponent ∧ (x.Narrow → (x.mantissa : ℚ) * 2 ^ x.exponent ≤ n / d) ∨
      exponentOf n d = x.exponent - 1 ∧ x.Narrow ∧
        (n / d : ℚ) < x.mantissa * 2 ^ x.exponent := by
  obtain ⟨least, most⟩ := inside.between
  rw [interval_high] at most
  by_cases subnormal : x.biasedExponent = 0
  · refine .inl ⟨exponentOf_subnormal some positive subnormal most, fun narrow => ?_⟩
    have := narrow.2
    omega
  have short : (x.mantissa : ℚ) + 1 ≤ 2 ^ 53 := by exact_mod_cast x.mantissa_lt
  have less : (n / d : ℚ) < 2 ^ (x.exponent + 53) := by
    rw [power_add, zpow_ofNat]
    exact lt_of_le_of_lt most (mul_lt_mul_of_pos_right (by linarith) (by positivity))
  by_cases narrow : x.Narrow
  · rw [interval_low_narrow proper narrow] at least
    rcases exponentOf_narrow some positive narrow least less with ⟨same, above⟩ | ⟨same, below⟩
    · exact .inl ⟨same, fun _ => above⟩
    · exact .inr ⟨same, narrow, below⟩
  · rw [interval_low proper narrow] at least
    exact .inl ⟨exponentOf_wide some positive subnormal narrow least less,
      fun is => absurd is narrow⟩

theorem ofQuotient_inside {n d : Nat} (proper : x.Proper) (some : 0 < n) (positive : 0 < d)
    (inside : (Shortest.interval x).Holds (n / d)) : ofQuotient x.isNegative n d = x := by
  obtain ⟨least, most⟩ := inside.between
  have unit : (0 : ℚ) < 2 ^ x.exponent := by positivity
  unfold ofQuotient
  dsimp only
  rcases exponentOf_inside proper some positive inside with
    ⟨same, above⟩ | ⟨less, narrow, below⟩
  · rw [same, roundQuotient_scaled positive (k := x.mantissa), ofMantissa_self proper]
    · by_cases narrow : x.Narrow
      · exact le_trans (mul_le_mul_of_nonneg_right (by linarith) unit.le) (above narrow)
      · rwa [interval_low proper narrow] at least
    · rwa [interval_high] at most
    · by_cases narrow : x.Narrow
      · exact .inl (by have := narrow.mantissa_eq; omega)
      · cases closed : (Shortest.interval x).closed with
        | true => exact .inl (by simpa [Shortest.interval] using closed)
        | false =>
          rw [Shortest.Interval.Holds, if_neg (by simp [closed]), interval_low proper narrow,
            interval_high] at inside
          exact .inr inside
  · have half : (2 : ℚ) ^ x.exponent = 2 * 2 ^ (x.exponent - 1) := by
      rw [zpow_sub₀ (by norm_num)]
      norm_num
      ring
    have shape : (x.mantissa : ℚ) = 2 ^ 52 := by exact_mod_cast narrow.mantissa_eq
    obtain ⟨carry, top⟩ : ∃ carry : Nat, carry = 2 ^ 53 := ⟨_, rfl⟩
    have carried : (carry : ℚ) = 2 ^ 53 := by exact_mod_cast top
    rw [interval_low_narrow proper narrow, shape, half] at least
    rw [shape, half] at below
    rw [less, roundQuotient_scaled positive (k := carry), top,
      ofMantissa_carry proper narrow.1 (by have := narrow.2; omega)]
    · rw [carried]
      linarith
    · rw [carried]
      linarith
    · exact .inl (by omega)

/-- A power of two above a power of ten by its exponent times three tenths, and one below it by
its exponent times thirty-one hundredths. -/
private theorem power_bounds (k : Nat) :
    (10 : ℚ) ^ ((k : Int) * 3 / 10) ≤ 2 ^ (k : Int) ∧
      (2 : ℚ) ^ (k : Int) ≤ 10 ^ ((k : Int) * 31 / 100 + 1) := by
  constructor
  · refine Shortest.power_le_of_root 10 (by norm_num) (by norm_num) ?_
    calc (10 : ℚ) ^ ((k : Int) * 3 / 10 * (10 : Nat))
        ≤ 10 ^ (3 * (k : Int)) := zpow_le_zpow_right₀ (by norm_num) (by omega)
      _ = (10 ^ 3) ^ (k : Int) := by rw [zpow_mul]; rfl
      _ ≤ (2 ^ 10) ^ (k : Int) := zpow_le_zpow_left₀ (by omega) (by norm_num) (by norm_num)
      _ = 2 ^ ((k : Int) * (10 : Nat)) := by rw [mul_comm, zpow_mul]; rfl
  · refine Shortest.power_le_of_root 100 (by norm_num) (by norm_num) ?_
    calc (2 : ℚ) ^ ((k : Int) * (100 : Nat))
        = (2 ^ 100) ^ (k : Int) := by rw [mul_comm, zpow_mul]; rfl
      _ ≤ (10 ^ 31) ^ (k : Int) := zpow_le_zpow_left₀ (by omega) (by norm_num) (by norm_num)
      _ = 10 ^ (31 * (k : Int)) := by rw [zpow_mul]; rfl
      _ ≤ 10 ^ (((k : Int) * 31 / 100 + 1) * (100 : Nat)) :=
          zpow_le_zpow_right₀ (by norm_num) (by omega)

private theorem power_order : (2 : ℚ) ^ 1076 < 10 ^ 400 := by
  calc (2 : ℚ) ^ 1076 ≤ 2 ^ 1080 := pow_le_pow_right₀ (by norm_num) (by norm_num)
    _ = (2 ^ 108) ^ 10 := by rw [← pow_mul]
    _ < (10 ^ 40) ^ 10 := pow_lt_pow_left₀ (by norm_num) (by positivity) (by norm_num)
    _ = 10 ^ 400 := by rw [← pow_mul]

theorem inside_range {v : ℚ} (proper : x.Proper) (inside : (Shortest.interval x).Holds v) :
    (10 : ℚ) ^ (-400 : Int) < v ∧ v < 10 ^ (400 : Int) := by
  obtain ⟨least, most⟩ := inside.between
  have positive : 1 ≤ (Shortest.interval x).low := (Shortest.interval_order proper).2.2
  have small : ((Shortest.interval x).high : ℚ) < 2 ^ 56 := by
    have := x.mantissa_lt
    exact_mod_cast (show 4 * x.mantissa + 2 < 2 ^ 56 by omega)
  have exponents : -1076 ≤ (Shortest.interval x).exponent ∧
      (Shortest.interval x).exponent ≤ 971 := by
    have bound := proper.exponent_lt
    simp only [Shortest.interval, exponent]
    split_ifs <;> omega
  constructor
  · calc (10 : ℚ) ^ (-400 : Int) < 2 ^ (-1076 : Int) := by
          rw [zpow_neg, zpow_neg, zpow_ofNat, zpow_ofNat]
          exact inv_strictAnti₀ (by positivity) power_order
      _ ≤ 2 ^ (Shortest.interval x).exponent := zpow_le_zpow_right₀ (by norm_num) exponents.1
      _ ≤ (Shortest.interval x).low * 2 ^ (Shortest.interval x).exponent :=
          le_mul_of_one_le_left (by positivity) (by exact_mod_cast positive)
      _ ≤ v := least
  · calc v ≤ (Shortest.interval x).high * 2 ^ (Shortest.interval x).exponent := most
      _ ≤ 2 ^ 56 * 2 ^ (971 : Int) := by
          gcongr
          · norm_num
          · exact exponents.2
      _ = 2 ^ 1027 := by rw [zpow_ofNat, ← pow_add]
      _ ≤ 2 ^ 1076 := pow_le_pow_right₀ (by norm_num) (by norm_num)
      _ < 10 ^ 400 := power_order
      _ = 10 ^ (400 : Int) := (zpow_ofNat 10 400).symm

/-- A decimal in the interval of a number is read as the number. -/
theorem ofDecimal_inside {digits : Nat} {e : Int} (proper : x.Proper)
    (inside : (Shortest.interval x).Holds (digits * 10 ^ e)) :
    ofDecimal x.isNegative digits e = x := by
  obtain ⟨above, below⟩ := inside_range proper inside
  have ten : (0 : ℚ) < 10 ^ e := by positivity
  have filled : 0 < digits := by
    have value : (0 : ℚ) < digits * 10 ^ e := lt_trans (by positivity) above
    exact_mod_cast pos_of_mul_pos_left value ten.le
  obtain ⟨logLow, logHigh⟩ := log2_between filled
  have shorter (a b : Int) (less : (10 : ℚ) ^ a < 10 ^ b) : a < b :=
    (zpow_lt_zpow_iff_right₀ (by norm_num)).mp less
  have notLarge : (digits.log2 : Int) * 3 / 10 + e < 400 := by
    refine shorter _ _ (lt_of_le_of_lt ?_ below)
    rw [zpow_add₀ (by norm_num)]
    exact mul_le_mul_of_nonneg_right ((power_bounds digits.log2).1.trans logLow) ten.le
  have notSmall : -400 < ((digits.log2 : Int) + 1) * 31 / 100 + 1 + e := by
    refine shorter _ _ (lt_of_lt_of_le above ?_)
    rw [zpow_add₀ (by norm_num)]
    refine mul_le_mul_of_nonneg_right (logHigh.le.trans ?_) ten.le
    exact_mod_cast (power_bounds (digits.log2 + 1)).2
  unfold ofDecimal
  dsimp only
  rw [if_neg filled.ne', if_neg (by omega), if_neg (by omega)]
  split_ifs with low
  · refine ofQuotient_inside proper filled (by positivity) ?_
    obtain ⟨k, rfl⟩ : ∃ k : Nat, e = -k := ⟨e.natAbs, by omega⟩
    simpa [div_eq_mul_inv] using inside
  · refine ofQuotient_inside proper (by positivity) (by norm_num) ?_
    obtain ⟨k, rfl⟩ : ∃ k : Nat, e = k := ⟨e.natAbs, by omega⟩
    simpa using inside

end Proper

section Numbers

theorem isNaN_ofFields (negative : Bool) {biased part : Nat} (exponent : biased < 2048)
    (small : part < 2 ^ 52) (number : biased = 2047 → part = 0) :
    (ofFields negative biased part).isNaN = false := by
  have bits : (ofFields negative biased part).bits.toNat =
      (if negative then 2 ^ 63 else 0) + biased * 2 ^ 52 + part := by
    rw [ofFields, UInt64.toNat_ofNat']
    split <;> omega
  simp only [isNaN, biasedExponent, fraction, bits, Bool.and_eq_false_imp, decide_eq_true_eq,
    decide_eq_false_iff_not, not_not]
  split <;> omega

theorem roundQuotient_le {n d k : Nat} (positive : 0 < d) (below : n ≤ k * d) :
    roundQuotient n d ≤ k := by
  have parts := Nat.div_add_mod n d
  have small := Nat.mod_lt n positive
  have whole : n / d ≤ k := Nat.div_le_of_le_mul (by rwa [Nat.mul_comm])
  unfold roundQuotient
  dsimp only
  -- only a quotient with a remainder is rounded up, and such a one is not the bound itself
  rcases Nat.lt_or_eq_of_le whole with less | same
  · split_ifs <;> omega
  · have exact : n % d = 0 := by
      rw [same, Nat.mul_comm] at parts
      omega
    rw [exact, if_pos (by omega)]
    exact whole

theorem isNaN_ofMantissa (negative : Bool) {m : Nat} (small : m ≤ 2 ^ 53) (e : Int) :
    (ofMantissa negative m e).isNaN = false := by
  have each {m : Nat} (small : m < 2 ^ 53) (e : Int) :
      (if m < 2 ^ 52 then ofFields negative 0 m
        else if 971 < e then infinity negative
        else ofFields negative (e + 1075).toNat (m - 2 ^ 52)).isNaN = false := by
    split_ifs with low high
    · exact isNaN_ofFields negative (by omega) low nofun
    · exact isNaN_ofFields negative (by omega) (by omega) fun _ => rfl
    · exact isNaN_ofFields negative (by omega) (by omega) (by omega)
  unfold ofMantissa
  split_ifs with carry
  · exact each (by norm_num) (e + 1)
  · exact each (by omega) e

theorem isNaN_ofQuotient (negative : Bool) {n d : Nat} (some : 0 < n) (positive : 0 < d) :
    (ofQuotient negative n d).isNaN = false := by
  obtain ⟨tight, exponent, _, high⟩ := exponentOf_tight some positive
  have least : tight ≤ exponentOf n d := exponent ▸ le_max_left _ _
  obtain ⟨unit, value⟩ := scaled_value (n := n) positive (exponentOf n d)
  have unit' : (0 : ℚ) < (scaled n d (exponentOf n d)).2 := by exact_mod_cast unit
  have power : (0 : ℚ) < 2 ^ exponentOf n d := by positivity
  refine isNaN_ofMantissa negative (roundQuotient_le unit ?_) _
  have bound : ((scaled n d (exponentOf n d)).1 : ℚ) * 2 ^ exponentOf n d ≤
      2 ^ 53 * (scaled n d (exponentOf n d)).2 * 2 ^ exponentOf n d := by
    rw [value]
    calc (n / d : ℚ) * (scaled n d (exponentOf n d)).2
        ≤ 2 ^ (exponentOf n d + 53) * (scaled n d (exponentOf n d)).2 := by
          refine mul_le_mul_of_nonneg_right (high.le.trans ?_) unit'.le
          exact zpow_le_zpow_right₀ (by norm_num) (by omega)
      _ = 2 ^ 53 * (scaled n d (exponentOf n d)).2 * 2 ^ exponentOf n d := by
          rw [zpow_add₀ (by norm_num)]
          norm_num
          ring
  exact_mod_cast le_of_mul_le_mul_right bound power

/-- What is read from digits is a number. -/
theorem isNaN_ofDecimal (negative : Bool) (digits : Nat) (e : Int) :
    (ofDecimal negative digits e).isNaN = false := by
  have zero : (zero negative).isNaN = false := isNaN_ofFields negative (by omega) (by omega) nofun
  have infinite : (infinity negative).isNaN = false :=
    isNaN_ofFields negative (by omega) (by omega) fun _ => rfl
  unfold ofDecimal
  dsimp only
  split_ifs with empty
  · exact zero
  · exact infinite
  · exact zero
  · exact isNaN_ofQuotient negative (by omega) (by positivity)
  · exact isNaN_ofQuotient negative (by positivity) (by omega)

end Numbers

end LinkedProof.Binary64
