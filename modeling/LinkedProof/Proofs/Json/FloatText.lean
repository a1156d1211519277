import LinkedProof.Number.Layout
import LinkedProof.Proofs.Json.Number
import LinkedProof.Proofs.Number.Rounding

/-! The text of a floating-point number in JSON: it is read as the number again, whichever notation
was chosen for it. -/
namespace LinkedProof

open Json (ApartFromNumber IsWhole unsignedNumber? number?)

structure Spells (t : Text) (v : ℚ) : Prop where
  lead : ∃ c rest, t = c :: rest ∧ c.isDigit = true
  read : ∀ rest, ApartFromNumber rest → ∃ (digits : Nat) (e : Int), (digits : ℚ) * 10 ^ e = v ∧
    ∀ negative, unsignedNumber? negative (t ++ rest) =
      some (.float (.ofDecimal negative digits e), rest)

namespace Spells

variable {whole decimals power : Text}

private theorem lead_append (leads : IsWhole whole) (tail : Text) :
    ∃ c rest, whole ++ tail = c :: rest ∧ c.isDigit = true := by
  obtain ⟨c, rest, rfl, _⟩ := leads.lead
  exact ⟨c, rest ++ tail, rfl, leads.digits c List.mem_cons_self⟩

theorem fraction (leads : IsWhole whole) (digits : ∀ c ∈ decimals, c.isDigit = true)
    (filled : decimals ≠ []) : Spells (whole ++ CodePoint.ofChar '.' :: decimals)
      (Text.digitsValue (whole ++ decimals) * 10 ^ (-(decimals.length : Int))) := by
  refine ⟨lead_append leads _, fun rest apart => ⟨_, _, rfl, fun negative => ?_⟩⟩
  exact Json.unsignedNumber?_fraction negative leads digits filled apart

theorem exponent (below : Bool) (leads : IsWhole whole)
    (digits : ∀ c ∈ decimals, c.isDigit = true) (powers : ∀ c ∈ power, c.isDigit = true)
    (filled : power ≠ []) : Spells (whole ++
        (if decimals = [] then [] else CodePoint.ofChar '.' :: decimals) ++
        (if below then Text.ofString "e-" else Text.ofString "e+") ++ power)
      (Text.digitsValue (whole ++ decimals) *
        10 ^ ((if below then -(Text.digitsValue power : Int) else Text.digitsValue power) -
          decimals.length)) := by
  refine ⟨?_, fun rest apart => ⟨_, _, rfl, fun negative => ?_⟩⟩
  · rw [List.append_assoc, List.append_assoc]
    exact lead_append leads _
  · exact Json.unsignedNumber?_exponent negative below leads digits powers filled apart

end Spells

namespace FloatLayout

variable {digits : Text} {n : Nat}

private theorem zero_whole : IsWhole [CodePoint.ofChar '0'] :=
  ⟨by decide, _, _, rfl, fun _ => rfl⟩

/-- A number below one, its digits behind zeros of the fraction. -/
private theorem small_spells (decimal : Text.IsDecimal digits n) (filled : digits ≠ []) (k : Nat) :
    Spells (Text.ofString "0." ++ List.replicate k (CodePoint.ofChar '0') ++ digits)
      (n * 10 ^ (-(k : Int) - digits.length)) := by
  have text : Text.ofString "0." = [CodePoint.ofChar '0'] ++ [CodePoint.ofChar '.'] := by decide
  have value := @Spells.fraction _ (List.replicate k (CodePoint.ofChar '0') ++ digits) zero_whole
    (by
      intro d member
      rcases List.mem_append.mp member with inside | inside
      · exact Text.zeros_digits _ d inside
      · exact decimal.digits d inside) (by simp [filled])
  have zeros : Text.digitsValue (List.replicate 1 (CodePoint.ofChar '0') ++
      (List.replicate k (CodePoint.ofChar '0') ++ digits)) = n := by
    simp only [Text.digitsValue_append, Text.digitsValue_zeros, decimal.value, Nat.zero_mul,
      Nat.zero_add]
  rw [List.replicate_one] at zeros
  convert value using 1
  · simp [text]
  · rw [zeros, List.length_append, List.length_replicate]
    congr 2
    omega

/-- A whole number, its digits in front of zeros. -/
private theorem large_spells (decimal : Text.IsDecimal digits n)
    (whole : ∀ k, IsWhole (digits ++ List.replicate k (CodePoint.ofChar '0'))) {k : Nat}
    (long : digits.length ≤ k) :
    Spells (digits ++ List.replicate (k - digits.length) (CodePoint.ofChar '0') ++
      Text.ofString ".0") (n * 10 ^ ((k : Int) - digits.length)) := by
  have text : Text.ofString ".0" = [CodePoint.ofChar '.', CodePoint.ofChar '0'] := by decide
  have value := @Spells.fraction _ (List.replicate 1 (CodePoint.ofChar '0'))
    (whole (k - digits.length)) (Text.zeros_digits 1) (by simp)
  convert value using 1
  · simp [text]
  · simp only [Text.digitsValue_append, Text.digitsValue_zeros, decimal.value,
      List.length_replicate]
    rw [← Nat.cast_sub long, zpow_natCast]
    push_cast
    norm_num
    ring

/-- A number whose point stands between its digits. -/
private theorem divided_spells (decimal : Text.IsDecimal digits n) {k : Nat}
    (whole : IsWhole (digits.take k)) (inside : k < digits.length) :
    Spells (digits.take k ++ Text.ofString "." ++ digits.drop k)
      (n * 10 ^ ((k : Int) - digits.length)) := by
  have text : Text.ofString "." = [CodePoint.ofChar '.'] := by decide
  have value := @Spells.fraction _ (digits.drop k) whole
    (fun d member => decimal.digits d (List.mem_of_mem_drop member))
    (by rw [ne_eq, List.drop_eq_nil_iff]; omega)
  convert value using 1
  · simp [text]
  · rw [List.take_append_drop, decimal.value, List.length_drop]
    congr 2
    omega

/-- Positional notation: the zeros that fill it up do not change the value. -/
theorem positional_spells (decimal : Text.IsDecimal digits n) (positive : 0 < n) (point : Int) :
    Spells (positional digits point) (n * 10 ^ (point - digits.length)) := by
  obtain ⟨c, tail, shape, zero⟩ := decimal.lead
  have filled : digits ≠ [] := by rw [shape]; exact List.cons_ne_nil _ _
  have nonzero : c ≠ CodePoint.ofChar '0' := fun same => by
    have := (zero same).2
    omega
  have leading (rest : Text) (all : ∀ d ∈ c :: rest, d.isDigit = true) : IsWhole (c :: rest) :=
    ⟨all, c, rest, rfl, fun same => absurd same nonzero⟩
  unfold positional
  dsimp only
  split_ifs with low long
  · obtain ⟨k, rfl⟩ : ∃ k : Nat, point = -k := ⟨point.natAbs, by omega⟩
    rw [Int.natAbs_neg, Int.natAbs_natCast]
    exact small_spells decimal filled k
  · obtain ⟨k, rfl⟩ : ∃ k : Nat, point = k := ⟨point.natAbs, by omega⟩
    rw [Int.toNat_natCast] at long ⊢
    refine large_spells decimal (fun j => ?_) long
    rw [shape, List.cons_append]
    refine leading _ fun d member => ?_
    rw [← List.cons_append, ← shape] at member
    rcases List.mem_append.mp member with inside | inside
    · exact decimal.digits d inside
    · exact Text.zeros_digits _ d inside
  · obtain ⟨k, rfl⟩ : ∃ k : Nat, point = k := ⟨point.natAbs, by omega⟩
    rw [Int.toNat_natCast] at long ⊢
    refine divided_spells decimal ?_ (by omega)
    obtain ⟨j, rfl⟩ : ∃ j : Nat, k = j + 1 := ⟨k - 1, by omega⟩
    rw [shape, List.take_succ_cons]
    refine leading _ fun d member => ?_
    rw [← List.take_succ_cons, ← shape] at member
    exact decimal.digits d (List.mem_of_mem_take member)

private theorem padded_digits (width k : Nat) :
    (∀ c ∈ Text.ofNatPadded width k, c.isDigit = true) ∧ Text.ofNatPadded width k ≠ [] ∧
      Text.digitsValue (Text.ofNatPadded width k) = k := by
  obtain ⟨c, tail, shape, _⟩ := (Text.ofNat_isDecimal k).lead
  refine ⟨Text.ofNatPadded_digits width k, ?_, Text.digitsValue_ofNatPadded width k⟩
  simp [Text.ofNatPadded, shape]

/-- With an exponent: the point stands behind the first digit. -/
theorem scientific_spells (layout : FloatLayout) (decimal : Text.IsDecimal digits n)
    (point : Int) : Spells (layout.scientific digits point) (n * 10 ^ (point - digits.length)) := by
  obtain ⟨c, tail, rfl, zero⟩ := decimal.lead
  obtain ⟨powers, filled, worth⟩ := padded_digits layout.exponentDigits (point - 1).natAbs
  have whole : IsWhole [c] := ⟨fun d member => decimal.digits d (by simp_all), c, [], rfl,
    fun _ => rfl⟩
  have value := @Spells.exponent [c] tail _ (decide (point - 1 < 0)) whole
    (fun d member => decimal.digits d (List.mem_cons_of_mem _ member))
    powers filled
  convert value using 1
  · unfold scientific
    cases tail <;> simp [apply_ite Text.ofString]
  · rw [List.singleton_append, decimal.value, worth, List.length_cons]
    congr 2
    split_ifs with low <;> simp at low <;> omega

variable {x : Binary64}

theorem magnitude_proper (layout : FloatLayout) (proper : x.Proper) :
    ∃ v, (Shortest.interval x).Holds v ∧ Spells (layout.magnitude x) v := by
  have inside := Shortest.decimal_holds proper
  have decimal := Text.ofNat_isDecimal (Shortest.decimal x).digits
  have positive : 0 < (Shortest.decimal x).digits := by
    have low : 0 < (Shortest.interval x).low := (Shortest.interval_order proper).2.2
    have value : (0 : ℚ) < (Shortest.decimal x).value :=
      lt_of_lt_of_le (by positivity) inside.between.1
    have ten : (0 : ℚ) < 10 ^ (Shortest.decimal x).exponent := by positivity
    exact_mod_cast pos_of_mul_pos_left value ten.le
  refine ⟨_, inside, ?_⟩
  have exponent (length : Int) : length + (Shortest.decimal x).exponent - length =
      (Shortest.decimal x).exponent := by omega
  unfold magnitude
  rw [if_neg (by simp [proper.filled])]
  dsimp only
  split_ifs with moderate
  · have spelled := positional_spells decimal positive
      ((Text.ofNat (Shortest.decimal x).digits).length + (Shortest.decimal x).exponent)
    rwa [exponent] at spelled
  · have spelled := scientific_spells layout decimal
      ((Text.ofNat (Shortest.decimal x).digits).length + (Shortest.decimal x).exponent)
    rwa [exponent] at spelled

private theorem zero_eq (zero : x.isZero = true) : Binary64.zero x.isNegative = x := by
  have fields := Binary64.ofFields_self x
  simp only [Binary64.isZero, Bool.and_eq_true, decide_eq_true_eq] at zero
  rwa [zero.1, zero.2] at fields

theorem magnitude_read (layout : FloatLayout) (number : x.isNaN = false)
    (finite : x.isInfinite = false) {rest : Text} (apart : ApartFromNumber rest) :
    (∃ c tail, layout.magnitude x = c :: tail ∧ c.isDigit = true) ∧
      unsignedNumber? x.isNegative (layout.magnitude x ++ rest) = some (.float x, rest) := by
  cases zero : x.isZero with
  | false =>
    have proper : x.Proper := ⟨number, finite, zero⟩
    obtain ⟨v, inside, lead, read⟩ := magnitude_proper layout proper
    obtain ⟨digits, e, rfl, found⟩ := read rest apart
    exact ⟨lead, by rw [found, Binary64.ofDecimal_inside proper inside]⟩
  | true =>
    have text : layout.magnitude x = [CodePoint.ofChar '0'] ++ CodePoint.ofChar '.' ::
        [CodePoint.ofChar '0'] := by
      rw [magnitude, if_pos zero]
      decide
    have found := @Json.unsignedNumber?_fraction _ [CodePoint.ofChar '0'] rest x.isNegative
      zero_whole (by decide) (by decide) apart
    have nothing : Text.digitsValue ([CodePoint.ofChar '0'] ++ [CodePoint.ofChar '0']) = 0 := by
      decide
    refine ⟨⟨_, _, text, by decide⟩, ?_⟩
    rw [text, found, nothing, Binary64.ofDecimal, if_pos rfl, zero_eq zero]

end FloatLayout

namespace Json

theorem number?_float {x : Binary64} {rest : Text} (layout : FloatLayout)
    (number : x.isNaN = false) (finite : x.isInfinite = false) (apart : ApartFromNumber rest) :
    number? (layout.text x ++ rest) = some (.float x, rest) := by
  obtain ⟨⟨c, tail, shape, digit⟩, read⟩ := layout.magnitude_read number finite apart
  have unsigned : (if x.isInfinite = true then layout.infinity else layout.magnitude x) =
      layout.magnitude x := if_neg (by simp [finite])
  unfold FloatLayout.text
  rw [if_neg (by simp [number])]
  dsimp only
  rw [unsigned]
  cases negative : x.isNegative with
  | true =>
    have minus : Text.ofString "-" = [CodePoint.ofChar '-'] := by decide
    rw [negative] at read
    rw [if_pos rfl, minus, List.append_assoc, List.singleton_append, number?, if_pos rfl, read]
  | false =>
    have other : c ≠ CodePoint.ofChar '-' := by
      rintro rfl
      exact absurd digit (by decide)
    rw [negative, shape] at read
    rw [if_neg (by simp), shape, List.cons_append, number?, if_neg other]
    exact read

theorem number?_int (i : Int) {rest : Text} (apart : ApartFromNumber rest) :
    number? (Text.ofInt i ++ rest) = some (.int i, rest) := by
  have decimal := Text.ofNat_isDecimal i.natAbs
  have read (negative : Bool) := unsignedNumber?_int negative (IsWhole.ofDecimal decimal) apart
  rw [decimal.value] at read
  unfold Text.ofInt
  split_ifs with low
  · have minus : Text.ofString "-" = [CodePoint.ofChar '-'] := by decide
    rw [minus, List.append_assoc, List.singleton_append, number?, if_pos rfl, read true,
      if_pos rfl]
    congr 3
    omega
  · obtain ⟨c, tail, shape, _⟩ := decimal.lead
    have digit := decimal.digits
    rw [shape] at read digit ⊢
    have other : c ≠ CodePoint.ofChar '-' := by
      rintro rfl
      exact absurd (digit _ List.mem_cons_self) (by decide)
    have found := read false
    rw [List.cons_append] at found ⊢
    rw [number?, if_neg other, found, if_neg (by simp)]
    congr 3
    omega

end Json

end LinkedProof
