import LinkedProof.Text.Utf8

/-! UTF-8 there and back: a text without surrogate halves has bytes, and they are read as the text
again, so two texts with the same bytes are one. -/
namespace LinkedProof

theorem CodePoint.isSurrogate_of_isAscii {c : CodePoint} (ascii : c.isAscii = true) :
    c.isSurrogate = false := by
  simp only [isAscii, decide_eq_true_eq] at ascii
  simp only [isSurrogate, Bool.and_eq_false_imp, decide_eq_true_eq, decide_eq_false_iff_not]
  omega

namespace Utf8

theorem encodeFrom_clear (position : Nat) (t : Text) (clear : ∀ c ∈ t, c.isSurrogate = false) :
    encodeFrom position t = .ok (t.flatMap encodePoint) := by
  induction t generalizing position with
  | nil => rfl
  | cons c rest ih =>
    have first := clear c List.mem_cons_self
    have tail := ih (position + 1) (fun d member => clear d (List.mem_cons_of_mem _ member))
    simp [encodeFrom, first, tail, bind, Except.bind, pure, Except.pure]

theorem encodeFrom_surrogate (position : Nat) (t : Text) (found : ∃ c ∈ t, c.isSurrogate = true) :
    ∃ fault, encodeFrom position t = .error fault := by
  induction t generalizing position with
  | nil => simp at found
  | cons c rest ih =>
    by_cases first : c.isSurrogate = true
    · exact ⟨_, by rw [encodeFrom, if_pos first]⟩
    · have later : ∃ d ∈ rest, d.isSurrogate = true := by
        obtain ⟨d, member, half⟩ := found
        rcases List.mem_cons.mp member with rfl | inside
        · exact absurd half first
        · exact ⟨d, inside, half⟩
      obtain ⟨fault, stopped⟩ := ih (position + 1) later
      exact ⟨fault, by simp [encodeFrom, first, stopped, bind, Except.bind]⟩

/-- A text has bytes exactly when it holds no surrogate half. -/
theorem encode_ok {t : Text} {bytes : Bytes} :
    encode t = .ok bytes ↔ (∀ c ∈ t, c.isSurrogate = false) ∧ t.flatMap encodePoint = bytes := by
  by_cases clear : ∀ c ∈ t, c.isSurrogate = false
  · rw [encode, encodeFrom_clear 0 t clear, Except.ok.injEq]
    exact ⟨fun same => ⟨clear, same⟩, fun both => both.2⟩
  · have found : ∃ c ∈ t, c.isSurrogate = true := by simpa using clear
    obtain ⟨fault, stopped⟩ := encodeFrom_surrogate 0 t found
    simp [encode, stopped, clear]

theorem toNat_byte {n : Nat} (small : n < 256) : (UInt8.ofNat n).toNat = n := by
  simp [Nat.mod_eq_of_lt small]

private theorem isContinuation_byte (n : Nat) :
    isContinuation (UInt8.ofNat (0x80 + n % 0x40)) = true := by
  have value := toNat_byte (show 0x80 + n % 0x40 < 256 by omega)
  simp only [isContinuation, Bool.and_eq_true, decide_eq_true_eq, UInt8.le_iff_toNat_le,
    UInt8.lt_iff_toNat_lt, value]
  constructor
  · simp
  · simp
    omega

private theorem ofNat_val (c : CodePoint) {n : Nat} (same : n = c.val) : CodePoint.ofNat n = c := by
  subst same
  simp [CodePoint.ofNat, c.isLt]

section Steps

variable {b c d e : UInt8} (rest : Bytes)

private theorem step_one (least : b.toNat < 0x80) :
    step b rest = .ok (CodePoint.ofNat b.toNat, 1) := by
  have small : b < 0x80 := UInt8.lt_iff_toNat_lt.mpr least
  rw [step.eq_def, if_pos small]

private theorem step_two (lead : 0xC2 ≤ b.toNat ∧ b.toNat < 0xE0) (second : isContinuation c) :
    step b (c :: rest) =
      .ok (CodePoint.ofNat ((b.toNat - 0xC0) * 0x40 + (c.toNat - 0x80)), 2) := by
  simp only [step, UInt8.lt_iff_toNat_lt]
  rw [if_neg (by simp; omega), if_neg (by simp; omega), if_pos (by simp; omega), if_pos second]

/-- The lead byte alone does not tell overlong forms and surrogate halves; the second one does. -/
private theorem step_three (lead : 0xE0 ≤ b.toNat ∧ b.toNat < 0xF0) (second : isContinuation c)
    (third : isContinuation d) (long : b.toNat = 0xE0 → 0xA0 ≤ c.toNat)
    (whole : b.toNat = 0xED → c.toNat < 0xA0) :
    step b (c :: d :: rest) = .ok (CodePoint.ofNat
      ((b.toNat - 0xE0) * 0x1000 + (c.toNat - 0x80) * 0x40 + (d.toNat - 0x80)), 3) := by
  have notOverlong : (b == 0xE0 && decide (c.toNat < 0xA0)) = false := by
    rw [Bool.and_eq_false_imp, beq_iff_eq, decide_eq_false_iff_not, Nat.not_lt]
    exact fun same => long (by rw [same]; rfl)
  have notHalf : (b == 0xED && decide (0xA0 ≤ c.toNat)) = false := by
    rw [Bool.and_eq_false_imp, beq_iff_eq, decide_eq_false_iff_not, Nat.not_le]
    exact fun same => whole (by rw [same]; rfl)
  simp only [step, UInt8.lt_iff_toNat_lt, UInt8.le_iff_toNat_le]
  rw [if_neg (by simp; omega), if_neg (by simp; omega), if_neg (by simp; omega),
    if_pos (by simp; omega)]
  simp [second, third, notOverlong, notHalf]

private theorem step_four (lead : 0xF0 ≤ b.toNat ∧ b.toNat < 0xF5) (second : isContinuation c)
    (third : isContinuation d) (fourth : isContinuation e)
    (long : b.toNat = 0xF0 → 0x90 ≤ c.toNat) (inside : b.toNat = 0xF4 → c.toNat < 0x90) :
    step b (c :: d :: e :: rest) = .ok (CodePoint.ofNat ((b.toNat - 0xF0) * 0x40000 +
      (c.toNat - 0x80) * 0x1000 + (d.toNat - 0x80) * 0x40 + (e.toNat - 0x80)), 4) := by
  have notOverlong : (b == 0xF0 && decide (c.toNat < 0x90)) = false := by
    rw [Bool.and_eq_false_imp, beq_iff_eq, decide_eq_false_iff_not, Nat.not_lt]
    exact fun same => long (by rw [same]; rfl)
  have notBeyond : (b == 0xF4 && decide (0x90 ≤ c.toNat)) = false := by
    rw [Bool.and_eq_false_imp, beq_iff_eq, decide_eq_false_iff_not, Nat.not_le]
    exact fun same => inside (by rw [same]; rfl)
  simp only [step, UInt8.lt_iff_toNat_lt, UInt8.le_iff_toNat_le]
  rw [if_neg (by simp; omega), if_neg (by simp; omega), if_neg (by simp; omega),
    if_neg (by simp; omega), if_pos (by simp; omega)]
  simp [second, third, fourth, notOverlong, notBeyond]

end Steps

/-- The reader's step undoes the writing of one code point, whatever follows it. -/
theorem step_encodePoint (c : CodePoint) (clear : c.isSurrogate = false) (rest : Bytes) :
    ∃ b tail, encodePoint c = b :: tail ∧ step b (tail ++ rest) = .ok (c, tail.length + 1) := by
  have bound := c.isLt
  have apart : ¬(0xD800 ≤ c.val ∧ c.val ≤ 0xDFFF) := by simpa [CodePoint.isSurrogate] using clear
  have low (n : Nat) : (UInt8.ofNat (0x80 + n % 0x40)).toNat = 0x80 + n % 0x40 :=
    toNat_byte (by omega)
  unfold encodePoint
  dsimp only
  split
  · rename_i one
    have lead := toNat_byte (show c.val < 256 by omega)
    refine ⟨_, [], rfl, ?_⟩
    rw [step_one _ (by omega), lead, ofNat_val c rfl]
    rfl
  split
  · rename_i one two
    have lead := toNat_byte (show 0xC0 + c.val / 0x40 < 256 by omega)
    refine ⟨_, [_], rfl, ?_⟩
    rw [List.cons_append, List.nil_append, step_two _ (by omega) (isContinuation_byte _), lead,
      low, ofNat_val c (by omega)]
    rfl
  split
  · rename_i one two three
    have lead := toNat_byte (show 0xE0 + c.val / 0x1000 < 256 by omega)
    refine ⟨_, [_, _], rfl, ?_⟩
    rw [List.cons_append, List.cons_append, List.nil_append, step_three _ (by omega)
      (isContinuation_byte _) (isContinuation_byte _) (by rw [lead, low]; omega)
      (by rw [lead, low]; omega), lead, low, low, ofNat_val c (by omega)]
    rfl
  · rename_i one two three
    have lead := toNat_byte (show 0xF0 + c.val / 0x40000 < 256 by omega)
    refine ⟨_, [_, _, _], rfl, ?_⟩
    rw [List.cons_append, List.cons_append, List.cons_append, List.nil_append,
      step_four _ (by omega) (isContinuation_byte _) (isContinuation_byte _)
      (isContinuation_byte _) (by rw [lead, low]; omega) (by rw [lead, low]; omega), lead, low,
      low, low, ofNat_val c (by omega)]
    rfl

private theorem decodeFrom_skip (surrogates : Bool) (position : Nat) (tail rest : Bytes) :
    decodeFrom surrogates position tail.length (tail ++ rest) =
      decodeFrom surrogates (position + tail.length) 0 rest := by
  induction tail generalizing position with
  | nil => rfl
  | cons b tail ih =>
    rw [List.length_cons, List.cons_append, decodeFrom, ih]
    congr 1
    omega

theorem decodeFrom_encode (surrogates : Bool) (position : Nat) (t : Text)
    (clear : ∀ c ∈ t, c.isSurrogate = false) :
    decodeFrom surrogates position 0 (t.flatMap encodePoint) = .ok t := by
  induction t generalizing position with
  | nil => rfl
  | cons c rest ih =>
    have later (position : Nat) := ih position fun d member =>
      clear d (List.mem_cons_of_mem _ member)
    obtain ⟨b, tail, written, read⟩ :=
      step_encodePoint c (clear c List.mem_cons_self) (rest.flatMap encodePoint)
    rw [List.flatMap_cons, written, List.cons_append, decodeFrom, read]
    simp only [Nat.add_sub_cancel]
    rw [decodeFrom_skip, later]
    rfl

theorem encode_inj {s t : Text} {bytes : Bytes} (first : encode s = .ok bytes)
    (second : encode t = .ok bytes) : s = t := by
  obtain ⟨clear, rfl⟩ := encode_ok.mp first
  obtain ⟨clear', same⟩ := encode_ok.mp second
  have read := decodeFrom_encode false 0 s clear
  rw [← same, decodeFrom_encode false 0 t clear'] at read
  exact (Except.ok.inj read).symm

end Utf8

end LinkedProof
