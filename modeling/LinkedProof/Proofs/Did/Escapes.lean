import LinkedProof.Did.Web
import LinkedProof.Proofs.Utf8

/-! Path segments with their escapes. A segment is read back as the text that it was made of, and it
holds no mark that ends a segment or a path. -/
namespace LinkedProof.Did.Web

def unescape : Text → Option Bytes
  | [] => some []
  | c :: rest =>
    if c = '%' then
      match rest with
      | high :: low :: rest =>
        match high.hexValue?, low.hexValue? with
        | some high, some low => (unescape rest).map (UInt8.ofNat (high * 16 + low) :: ·)
        | _, _ => none
      | _ => none
    else if c.isAscii then (unescape rest).map (UInt8.ofNat c.val :: ·)
    else none

def segmentText? (part : Text) : Option Text :=
  unescape part >>= fun bytes => (Utf8.decode bytes).toOption

def IsDots (part : Text) : Prop := part = "." ∨ part = ".."

section Bytes

theorem hexValue?_hexDigitUpper : ∀ n < 16, (CodePoint.hexDigitUpper n).hexValue? = some n := by
  decide

theorem isUnreserved_hexDigitUpper : ∀ n < 16, isUnreserved (CodePoint.hexDigitUpper n) = true := by
  decide

theorem isUnreserved_iff {c : CodePoint} : isUnreserved c = true ↔
    (0x30 ≤ c.val ∧ c.val ≤ 0x39) ∨ (0x41 ≤ c.val ∧ c.val ≤ 0x5A) ∨
      (0x61 ≤ c.val ∧ c.val ≤ 0x7A) ∨ c.val = 0x2D ∨ c.val = 0x2E ∨ c.val = 0x5F ∨
      c.val = 0x7E := by
  simp only [isUnreserved, CodePoint.isDigit, Bool.or_eq_true, Bool.and_eq_true,
    decide_eq_true_eq, or_assoc]

theorem isAscii_of_isUnreserved {c : CodePoint} (plain : isUnreserved c = true) :
    c.isAscii = true := by
  have range := isUnreserved_iff.mp plain
  rw [CodePoint.isAscii, decide_eq_true_eq]
  omega

theorem ne_percent_of_isUnreserved {c : CodePoint} (plain : isUnreserved c = true) : c ≠ '%' := by
  rintro rfl
  exact absurd plain (by decide)

private theorem unescape_plain {c : CodePoint} (plain : isUnreserved c = true) (rest : Text) :
    unescape (c :: rest) = (unescape rest).map (UInt8.ofNat c.val :: ·) := by
  rw [unescape.eq_def]
  simp only [ne_percent_of_isUnreserved plain, isAscii_of_isUnreserved plain, if_false, if_true]

/-- A byte is read back from its escape. -/
theorem unescape_escapeByte (b : UInt8) (rest : Text) :
    unescape (escapeByte b ++ rest) = (unescape rest).map (b :: ·) := by
  have bound := b.toNat_lt
  have value : (CodePoint.ofNat b.toNat).val = b.toNat := by
    rw [CodePoint.ofNat, dif_pos (by omega)]
  rw [escapeByte]
  by_cases plain : isUnreserved (CodePoint.ofNat b.toNat) = true
  · rw [if_pos plain, List.singleton_append, unescape_plain plain, value, UInt8.ofNat_toNat]
  · have high := hexValue?_hexDigitUpper (b.toNat / 16) (by omega)
    have low := hexValue?_hexDigitUpper (b.toNat % 16) (by omega)
    have whole : b.toNat / 16 * 16 + b.toNat % 16 = b.toNat := by omega
    rw [if_neg plain]
    simp only [List.cons_append, List.nil_append, unescape, if_true, high, low, whole,
      UInt8.ofNat_toNat]

theorem unescape_escapes (bytes : Bytes) : unescape (bytes.flatMap escapeByte) = some bytes := by
  induction bytes with
  | nil => rfl
  | cons b rest ih => rw [List.flatMap_cons, unescape_escapeByte, ih, Option.map_some]

theorem escapeByte_clear {b : UInt8} {c : CodePoint} (member : c ∈ escapeByte b) :
    isUnreserved c = true ∨ c = '%' := by
  rw [escapeByte] at member
  split at member
  · rename_i plain
    obtain rfl := List.mem_singleton.mp member
    exact .inl plain
  · have bound := b.toNat_lt
    simp only [List.mem_cons, List.not_mem_nil, or_false] at member
    rcases member with rfl | rfl | rfl
    · exact .inr rfl
    · exact .inl (isUnreserved_hexDigitUpper _ (by omega))
    · exact .inl (isUnreserved_hexDigitUpper _ (by omega))

end Bytes

section Segments

variable {segment part : Text}

/-- A segment can be written unless it holds one half of a surrogate pair. -/
theorem escapeSegment_ok : escapeSegment segment = .ok part ↔
    (∀ c ∈ segment, c.isSurrogate = false) ∧
      part = (segment.flatMap Utf8.encodePoint).flatMap escapeByte := by
  rw [escapeSegment]
  cases encoded : Utf8.encode segment with
  | ok bytes =>
    obtain ⟨clear, rfl⟩ := Utf8.encode_ok.mp encoded
    rw [Except.ok.injEq, eq_comm]
    exact (and_iff_right clear).symm
  | error fault =>
    refine iff_of_false nofun ?_
    rintro ⟨clear, _⟩
    cases encoded.symm.trans (Utf8.encode_ok.mpr ⟨clear, rfl⟩)

theorem escapeSegment_error {failure : Failure} : escapeSegment segment = .error failure ↔
    ∃ fault, Utf8.encode segment = .error fault ∧ failure = .unfit (.encoding fault) := by
  rw [escapeSegment]
  cases Utf8.encode segment with
  | ok bytes => exact iff_of_false nofun nofun
  | error fault => simp [eq_comm]

/-- What was escaped is read back, and no other text would give the same segment. -/
theorem segmentText?_of_escapeSegment (escaped : escapeSegment segment = .ok part) :
    segmentText? part = some segment := by
  obtain ⟨clear, rfl⟩ := escapeSegment_ok.mp escaped
  rw [segmentText?, unescape_escapes, Option.bind_eq_bind, Option.bind_some, Utf8.decode,
    Utf8.decodeFrom_encode false 0 segment clear]
  rfl

theorem escapeSegment_clear (escaped : escapeSegment segment = .ok part) {c : CodePoint}
    (member : c ∈ part) : isUnreserved c = true ∨ c = '%' := by
  obtain ⟨_, rfl⟩ := escapeSegment_ok.mp escaped
  obtain ⟨b, _, inside⟩ := List.mem_flatMap.mp member
  exact escapeByte_clear inside

theorem isDots_of_escapeSegment (escaped : escapeSegment segment = .ok part) :
    IsDots part ↔ IsDots segment := by
  have one : escapeSegment "." = .ok "." := rfl
  have two : escapeSegment ".." = .ok ".." := rfl
  have whole {dots : Text} (fixed : escapeSegment dots = .ok dots) :
      part = dots ↔ segment = dots := by
    constructor
    · rintro rfl
      have read := segmentText?_of_escapeSegment escaped
      rw [segmentText?_of_escapeSegment fixed] at read
      exact (Option.some.inj read).symm
    · rintro rfl
      exact Except.ok.inj (escaped.symm.trans fixed)
  exact or_congr (whole one) (whole two)

end Segments

end LinkedProof.Did.Web
