import LinkedProof.Base64

/-! Base64 texts there and back: what is written is in the URL alphabet, and the reader takes it in
as the bytes that it was written from, however much padding is put behind it. -/
namespace LinkedProof.Base64

theorem value?_digit : ∀ n < 64, value? (digit n) = some n := by decide

def InAlphabet (c : CodePoint) : Prop := ∃ n < 64, c = digit n

private theorem digit_apart : ∀ n < 64, (digit n).isAscii = true ∧
    digit n ≠ CodePoint.ofChar '=' ∧ digit n ≠ CodePoint.ofChar '.' := by decide

theorem InAlphabet.isAscii {c : CodePoint} (inside : InAlphabet c) : c.isAscii = true := by
  obtain ⟨n, small, rfl⟩ := inside
  exact (digit_apart n small).1

theorem InAlphabet.ne_point {c : CodePoint} (inside : InAlphabet c) : c ≠ CodePoint.ofChar '.' := by
  obtain ⟨n, small, rfl⟩ := inside
  exact (digit_apart n small).2.2

theorem InAlphabet.ne_pad {c : CodePoint} (inside : InAlphabet c) : c ≠ CodePoint.ofChar '=' := by
  obtain ⟨n, small, rfl⟩ := inside
  exact (digit_apart n small).2.1

theorem encode_alphabet (bytes : Bytes) : ∀ c ∈ encode bytes, InAlphabet c := by
  have inside (n : Nat) (small : n < 64) : InAlphabet (digit n) := ⟨n, small, rfl⟩
  fun_induction encode bytes with
  | case1 => simp
  | case2 a =>
    have bound := a.toNat_lt
    simp only [List.mem_cons, List.not_mem_nil, or_false, forall_eq_or_imp, forall_eq]
    exact ⟨inside _ (by omega), inside _ (by omega)⟩
  | case3 a b =>
    have bound := a.toNat_lt
    have bound' := b.toNat_lt
    simp only [List.mem_cons, List.not_mem_nil, or_false, forall_eq_or_imp, forall_eq]
    exact ⟨inside _ (by omega), inside _ (by omega), inside _ (by omega)⟩
  | case4 a b c rest ih =>
    have bound := a.toNat_lt
    have bound' := b.toNat_lt
    have bound'' := c.toNat_lt
    simp only [List.mem_cons, forall_eq_or_imp]
    exact ⟨inside _ (by omega), inside _ (by omega), inside _ (by omega), inside _ (by omega), ih⟩

theorem encode_ascii (bytes : Bytes) : (encode bytes).all CodePoint.isAscii = true :=
  List.all_eq_true.mpr fun c member => (encode_alphabet bytes c member).isAscii

theorem encode_clear (bytes : Bytes) : CodePoint.ofChar '.' ∉ encode bytes :=
  fun member => (encode_alphabet bytes _ member).ne_point rfl

theorem encode_ne_nil {bytes : Bytes} (filled : bytes ≠ []) : encode bytes ≠ [] := by
  fun_cases encode bytes with
  | case1 => exact absurd rfl filled
  | case2 => simp
  | case3 => simp
  | case4 => simp

/-- Three bytes take four characters, and what is left of them one more than its bytes. -/
theorem length_encode (bytes : Bytes) : (encode bytes).length = (4 * bytes.length + 2) / 3 := by
  fun_induction encode bytes with
  | case1 => rfl
  | case2 => simp
  | case3 => simp
  | case4 a b c rest ih =>
    simp only [List.length_cons, ih]
    omega

private theorem run_digit (r : Reader) (n : Nat) (small : n < 64) (rest : Text) :
    r.run (digit n :: rest) = (r.push n).run rest := by
  rw [Reader.run, if_neg (digit_apart n small).2.1, value?_digit n small]

private theorem ofNat_toNat_eq {n : Nat} {b : UInt8} (same : n = b.toNat) : UInt8.ofNat n = b := by
  subst same
  exact UInt8.ofNat_toNat

private theorem run_pads (done : Bytes) (k : Nat) :
    (Reader.mk 0 0 0 done).run (List.replicate k (CodePoint.ofChar '=')) = .ok done.reverse := by
  induction k with
  | zero => rfl
  | succ k ih =>
    rw [List.replicate_succ, Reader.run, if_pos rfl, if_neg (Nat.not_succ_le_zero 1)]
    exact ih

/-- Padding closes the last group as soon as there is enough of it; what is behind that is not
looked at. -/
private theorem run_encode (done bytes : Bytes) {k : Nat}
    (enough : missingPadding (encode bytes).length ≤ k) :
    (Reader.mk 0 0 0 done).run (encode bytes ++ List.replicate k (CodePoint.ofChar '=')) =
      .ok (done.reverse ++ bytes) := by
  -- By groups of three bytes: whole ones hand their bytes on, and only the last one meets padding.
  fun_induction encode bytes generalizing done with
  | case1 =>
    rw [List.nil_append, run_pads, List.append_nil]
  | case2 a =>
    have bound := a.toNat_lt
    have first : UInt8.ofNat (a.toNat / 4 * 4 + a.toNat % 4 * 16 / 16) = a :=
      ofNat_toNat_eq (by omega)
    obtain ⟨more, rfl⟩ : ∃ more, k = more + 2 := Nat.exists_eq_add_of_le' enough
    simp only [List.cons_append, List.nil_append]
    rw [run_digit _ _ (by omega), run_digit _ _ (by omega)]
    simp only [Reader.push, first]
    simp [Reader.run, Reader.bytes, List.replicate]
  | case3 a b =>
    have bound := a.toNat_lt
    have bound' := b.toNat_lt
    have first : UInt8.ofNat (a.toNat / 4 * 4 + (a.toNat % 4 * 16 + b.toNat / 16) / 16) = a :=
      ofNat_toNat_eq (by omega)
    have second : UInt8.ofNat ((a.toNat % 4 * 16 + b.toNat / 16) % 16 * 16 +
        b.toNat % 16 * 4 / 4) = b := ofNat_toNat_eq (by omega)
    obtain ⟨more, rfl⟩ : ∃ more, k = more + 1 := Nat.exists_eq_add_of_le' enough
    simp only [List.cons_append, List.nil_append]
    rw [run_digit _ _ (by omega), run_digit _ _ (by omega), run_digit _ _ (by omega)]
    simp only [Reader.push, first, second]
    simp [Reader.run, Reader.bytes, List.replicate]
  | case4 a b c rest ih =>
    have bound := a.toNat_lt
    have bound' := b.toNat_lt
    have bound'' := c.toNat_lt
    have first : UInt8.ofNat (a.toNat / 4 * 4 + (a.toNat % 4 * 16 + b.toNat / 16) / 16) = a :=
      ofNat_toNat_eq (by omega)
    have second : UInt8.ofNat ((a.toNat % 4 * 16 + b.toNat / 16) % 16 * 16 +
        (b.toNat % 16 * 4 + c.toNat / 64) / 4) = b := ofNat_toNat_eq (by omega)
    have third : UInt8.ofNat ((b.toNat % 16 * 4 + c.toNat / 64) % 4 * 64 + c.toNat % 64) = c :=
      ofNat_toNat_eq (by omega)
    have enough' : missingPadding (encode rest).length ≤ k := by
      simp only [missingPadding, List.length_cons] at enough ⊢
      omega
    simp only [List.cons_append]
    rw [run_digit _ _ (by omega), run_digit _ _ (by omega), run_digit _ _ (by omega),
      run_digit _ _ (by omega)]
    simp only [Reader.push, first, second, third]
    rw [ih _ enough']
    simp

/-- Padding that is there already counts for the length, so that what is added to it makes at least
what the text lacks. -/
private theorem missingPadding_le (length k : Nat) :
    missingPadding length ≤ k + missingPadding (length + k) := by
  simp only [missingPadding]
  omega

theorem decode_encode_pads (bytes : Bytes) (k : Nat) :
    decode (encode bytes ++ List.replicate k (CodePoint.ofChar '=')) = .ok bytes := by
  have ascii : (encode bytes ++ List.replicate k (CodePoint.ofChar '=')).all CodePoint.isAscii =
      true := by
    rw [List.all_append, encode_ascii, Bool.true_and, List.all_eq_true]
    intro c member
    rw [List.eq_of_mem_replicate member]
    rfl
  rw [decode, if_pos ascii, List.length_append, List.length_replicate, List.append_assoc,
    List.replicate_append_replicate, Reader.start, run_encode _ _ (missingPadding_le _ k)]
  rfl

theorem decode_encode (bytes : Bytes) : decode (encode bytes) = .ok bytes := by
  have read := decode_encode_pads bytes 0
  rwa [List.replicate_zero, List.append_nil] at read

theorem encode_injective : Function.Injective encode := by
  intro bytes others same
  have read := decode_encode bytes
  rw [same, decode_encode] at read
  exact (Except.ok.inj read).symm

def IsUrlSafe (c : CodePoint) : Prop :=
  0x41 ≤ c.val ∧ c.val ≤ 0x5A ∨ 0x61 ≤ c.val ∧ c.val ≤ 0x7A ∨ 0x30 ≤ c.val ∧ c.val ≤ 0x39 ∨
    c = CodePoint.ofChar '-' ∨ c = CodePoint.ofChar '_'

instance (c : CodePoint) : Decidable (IsUrlSafe c) := inferInstanceAs (Decidable (_ ∨ _))

private theorem digit_urlSafe : ∀ n < 64, IsUrlSafe (digit n) := by decide

theorem InAlphabet.isUrlSafe {c : CodePoint} (inside : InAlphabet c) : IsUrlSafe c := by
  obtain ⟨n, small, rfl⟩ := inside
  exact digit_urlSafe n small

theorem encode_clear_pad (bytes : Bytes) : CodePoint.ofChar '=' ∉ encode bytes :=
  fun member => (encode_alphabet bytes _ member).ne_pad rfl

/-- The text of bytes needs neither escapes nor padding, is four thirds of them long, rounded up,
and is read as these bytes with any padding behind it. So no other bytes have it. -/
theorem encode_invertible :
    (∀ bytes : Bytes, (∀ c ∈ encode bytes, IsUrlSafe c) ∧ CodePoint.ofChar '=' ∉ encode bytes ∧
      CodePoint.ofChar '.' ∉ encode bytes ∧
      (encode bytes).length = (4 * bytes.length + 2) / 3 ∧
      ∀ k, decode (encode bytes ++ List.replicate k (CodePoint.ofChar '=')) = .ok bytes) ∧
    Function.Injective encode := by
  constructor
  · intro bytes
    exact ⟨fun c member => (encode_alphabet bytes c member).isUrlSafe, encode_clear_pad bytes,
      encode_clear bytes, length_encode bytes, decode_encode_pads bytes⟩
  · exact encode_injective

/-- Both marks are in use, and more padding than a group has room for is no hindrance. -/
theorem encode_invertible_marks : encode [0xFB, 0xF0] = Text.ofString "-_A" ∧
    IsUrlSafe (CodePoint.ofChar '_') ∧ decode "-_A======" = .ok [0xFB, 0xF0] := by
  have text : encode [0xFB, 0xF0] = Text.ofString "-_A" := by decide
  obtain ⟨written, _⟩ := encode_invertible
  obtain ⟨safe, _, _, _, read⟩ := written [0xFB, 0xF0]
  rw [text] at safe read
  exact ⟨text, safe _ (by decide), read 6⟩

end LinkedProof.Base64
