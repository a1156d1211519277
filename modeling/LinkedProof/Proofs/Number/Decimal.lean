import LinkedProof.Text.CodePoint

/-! Natural numbers in decimal digits: the digits stand for the number, and the first of several is
not a zero. -/
namespace LinkedProof.Text

-- Powers are the core library's, whatever else is in scope.
attribute [local instance (high)] instPowNat

theorem digitsValue_append (s t : Text) :
    digitsValue (s ++ t) = digitsValue s * 10 ^ t.length + digitsValue t := by
  have shifted (t : Text) (n : Nat) : t.foldl (fun n c => n * 10 + (c.val - 0x30)) n =
      n * 10 ^ t.length + digitsValue t := by
    induction t generalizing n with
    | nil => simp [digitsValue]
    | cons c t ih =>
      rw [digitsValue, List.foldl_cons, List.foldl_cons, ih, ih (0 * 10 + _), List.length_cons,
        Nat.pow_succ', Nat.zero_mul, Nat.zero_add, Nat.add_mul, Nat.mul_assoc, Nat.add_assoc]
  rw [digitsValue, List.foldl_append]
  exact shifted t _

theorem digitsValue_zeros (n : Nat) :
    digitsValue (List.replicate n (CodePoint.ofChar '0')) = 0 := by
  induction n with
  | zero => rfl
  | succ n ih =>
    have one : digitsValue [CodePoint.ofChar '0'] = 0 := by decide
    rw [List.replicate_succ', digitsValue_append, ih, one, Nat.zero_mul]

theorem digit_isDigit : ∀ n < 10, (CodePoint.ofNat (0x30 + n)).isDigit = true ∧
    digitsValue [CodePoint.ofNat (0x30 + n)] = n ∧
    (CodePoint.ofNat (0x30 + n) = CodePoint.ofChar '0' → n = 0) := by decide

structure IsDecimal (t : Text) (n : Nat) : Prop where
  digits : ∀ c ∈ t, c.isDigit = true
  value : digitsValue t = n
  lead : ∃ c rest, t = c :: rest ∧ (c = CodePoint.ofChar '0' → rest = [] ∧ n = 0)

private theorem decimalFrom_digits (fuel n : Nat) (enough : n < 2 ^ fuel) (positive : 0 < fuel) :
    ∃ digits, IsDecimal digits n ∧ ∀ tail, decimalFrom fuel n tail = digits ++ tail := by
  induction fuel generalizing n with
  | zero => exact absurd positive (Nat.lt_irrefl 0)
  | succ fuel ih =>
    obtain ⟨isDigit, value, zero⟩ := digit_isDigit (n % 10) (by omega)
    by_cases small : n < 10
    · refine ⟨[CodePoint.ofNat (0x30 + n % 10)], ⟨by simpa using isDigit, ?_, _, _, rfl, ?_⟩, ?_⟩
      · rw [value, Nat.mod_eq_of_lt small]
      · intro same
        exact ⟨rfl, by have := zero same; omega⟩
      · intro tail
        simp [decimalFrom, small]
    · have less : n / 10 < 2 ^ fuel := by
        rw [Nat.pow_succ] at enough
        omega
      have filled : 0 < fuel := by
        cases fuel with
        | zero => simp at less; omega
        | succ fuel => exact Nat.succ_pos fuel
      obtain ⟨digits, ⟨allDigits, worth, c, rest, shape, leading⟩, written⟩ :=
        ih (n / 10) less filled
      refine ⟨digits ++ [CodePoint.ofNat (0x30 + n % 10)], ⟨?_, ?_, ?_⟩, ?_⟩
      · intro d member
        rcases List.mem_append.mp member with inside | last
        · exact allDigits d inside
        · rw [List.mem_singleton.mp last]
          exact isDigit
      · rw [digitsValue_append, worth, value, List.length_singleton]
        omega
      · refine ⟨c, rest ++ [CodePoint.ofNat (0x30 + n % 10)], by rw [shape]; rfl, ?_⟩
        intro same
        have := (leading same).2
        omega
      · intro tail
        simp [decimalFrom, small, written]

theorem ofNat_isDecimal (n : Nat) : IsDecimal (ofNat n) n := by
  obtain ⟨digits, decimal, written⟩ :=
    decimalFrom_digits (n.log2 + 1) n Nat.lt_log2_self (Nat.succ_pos _)
  rw [ofNat, written, List.append_nil]
  exact decimal

theorem zeros_digits (k : Nat) :
    ∀ c ∈ List.replicate k (CodePoint.ofChar '0'), c.isDigit = true := by
  intro c member
  rw [List.eq_of_mem_replicate member]
  decide

section Padded

variable {width n : Nat}

theorem ofNatPadded_digits (width n : Nat) : ∀ c ∈ ofNatPadded width n, c.isDigit = true := by
  intro c member
  rcases List.mem_append.mp member with inside | inside
  · exact zeros_digits _ c inside
  · exact (ofNat_isDecimal n).digits c inside

theorem digitsValue_ofNatPadded (width n : Nat) : digitsValue (ofNatPadded width n) = n := by
  rw [ofNatPadded, digitsValue_append, digitsValue_zeros, (ofNat_isDecimal n).value]
  omega

/-- A number of several digits is not below the power of its first place. -/
private theorem length_ofNat_le (positive : 0 < width) (small : n < 10 ^ width) :
    (ofNat n).length ≤ width := by
  have decimal := ofNat_isDecimal n
  obtain ⟨c, rest, shape, leading⟩ := decimal.lead
  rw [shape]
  by_cases single : rest = []
  · rw [single]
    exact positive
  · have other : c.val ≠ 0x30 := by
      intro same
      have zero : c = CodePoint.ofChar '0' := by
        cases c
        simpa [CodePoint.ofChar] using same
      exact single (leading zero).1
    have digit := decimal.digits c (shape ▸ List.mem_cons_self)
    simp only [CodePoint.isDigit, Bool.and_eq_true, decide_eq_true_eq] at digit
    have value := decimal.value
    rw [shape, ← List.singleton_append, digitsValue_append] at value
    have first : 1 ≤ digitsValue [c] := by
      simp only [digitsValue, List.foldl_cons, List.foldl_nil]
      omega
    have power : 10 ^ rest.length < 10 ^ width := by
      have := Nat.mul_le_mul_right (10 ^ rest.length) first
      omega
    exact (Nat.pow_lt_pow_iff_right (by decide)).mp power

theorem length_ofNatPadded (positive : 0 < width) (small : n < 10 ^ width) :
    (ofNatPadded width n).length = width := by
  have := length_ofNat_le positive small
  rw [ofNatPadded, List.length_append, List.length_replicate]
  omega

end Padded

end LinkedProof.Text
