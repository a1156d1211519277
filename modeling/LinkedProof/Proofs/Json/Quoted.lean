import LinkedProof.Json.Reader
import LinkedProof.Json.Writer

/-! Strings in JSON text there and back. Written as they are, they are read as they are; written in
ASCII, a high surrogate half that a low one follows is read as the one code point of the pair. -/
namespace LinkedProof.Json

open Encoding (joinSurrogates)

private theorem hexValue?_digit : ∀ n < 16, (CodePoint.hexDigit n).hexValue? = some n := by decide

private theorem ofNat_self (c : CodePoint) : CodePoint.ofNat c.val = c := by
  simp [CodePoint.ofNat, c.isLt]

private theorem ofNat_small {n : Nat} (small : n < 0x10000) : (CodePoint.ofNat n).val = n := by
  rw [CodePoint.ofNat, dif_pos (by omega)]

theorem hexQuad?_ofHex {n : Nat} (small : n < 0x10000) (next : CodePoint) (tail : Text) :
    hexQuad? (Text.ofHex 4 n ++ next :: tail) = some (n, next :: tail) := by
  have value (k : Nat) := hexValue?_digit (k % 16) (Nat.mod_lt _ (by decide))
  simp [Text.ofHex, hexQuad?, value]
  omega

private theorem escapeUnit_eq (n : Nat) :
    escapeUnit n = CodePoint.ofChar '\\' :: CodePoint.ofChar 'u' :: Text.ofHex 4 n := rfl

private theorem length_ofHex (n : Nat) : (Text.ofHex 4 n).length = 4 := rfl

private theorem isHigh_ofNat {n : Nat} (small : n < 0x10000) :
    (CodePoint.ofNat n).isHighSurrogate = (decide (0xD800 ≤ n) && decide (n ≤ 0xDBFF)) := by
  rw [CodePoint.isHighSurrogate, ofNat_small small]

section Steps

variable {n : Nat} (done : Text) (next : CodePoint) (tail : Text)

private theorem readString_skip (k : Nat) (skipped : Text) (size : skipped.length = k) :
    readString k done (skipped ++ tail) = readString 0 done tail := by
  induction skipped generalizing k with
  | nil =>
    subst size
    rfl
  | cons c skipped ih =>
    subst size
    rw [List.length_cons, List.cons_append, readString]
    exact ih _ rfl

private theorem readString_escape {d : CodePoint} {after tail : Text} {point : CodePoint}
    {size : Nat} (read : readEscape d after = .ok (point, size)) (skipped : Text)
    (split : d :: after = skipped ++ tail) (length : skipped.length = size) :
    readString 0 done (CodePoint.ofChar '\\' :: d :: after) =
      readString 0 (point :: done) tail := by
  have other : CodePoint.ofChar '\\' ≠ CodePoint.ofChar '"' := by decide
  rw [readString, if_neg other, if_pos rfl, read]
  dsimp only
  rw [split]
  exact readString_skip _ tail _ _ length

/-- An escape of four digits that no low half has to be looked for behind. -/
theorem readString_unit (small : n < 0x10000)
    (alone : (CodePoint.ofNat n).isHighSurrogate = true → lowEscape (next :: tail) = .ok none) :
    readString 0 done (escapeUnit n ++ next :: tail) =
      readString 0 (CodePoint.ofNat n :: done) (next :: tail) := by
  have quad := hexQuad?_ofHex small next tail
  have read : readEscape (CodePoint.ofChar 'u') (Text.ofHex 4 n ++ next :: tail) =
      .ok (CodePoint.ofNat n, 5) := by
    rw [readEscape, if_pos rfl, quad]
    dsimp only
    cases high : (CodePoint.ofNat n).isHighSurrogate with
    | true => simp [alone high]
    | false => simp
  exact readString_escape done read (CodePoint.ofChar 'u' :: Text.ofHex 4 n) rfl rfl

theorem lowEscape_unit (small : n < 0x10000) : lowEscape (escapeUnit n ++ next :: tail) =
    .ok (if (CodePoint.ofNat n).isLowSurrogate then some (CodePoint.ofNat n) else none) := by
  have quad := hexQuad?_ofHex small next tail
  have long : 5 ≤ (Text.ofHex 4 n ++ next :: tail).length := by
    rw [List.length_append, length_ofHex, List.length_cons]
    omega
  rw [escapeUnit_eq, List.cons_append, List.cons_append, lowEscape, if_pos (by simpa using long),
    quad]

/-- Two escapes that are the halves of one code point. -/
theorem readString_pair {high low : Nat} (isHigh : 0xD800 ≤ high ∧ high ≤ 0xDBFF)
    (isLow : 0xDC00 ≤ low ∧ low ≤ 0xDFFF) :
    readString 0 done (escapeUnit high ++ (escapeUnit low ++ next :: tail)) =
      readString 0 (CodePoint.ofSurrogates (CodePoint.ofNat high) (CodePoint.ofNat low) :: done)
        (next :: tail) := by
  have quad := hexQuad?_ofHex (n := high) (by omega) (CodePoint.ofChar '\\')
    (CodePoint.ofChar 'u' :: Text.ofHex 4 low ++ next :: tail)
  have lowUnit := lowEscape_unit (n := low) next tail (by omega)
  have second : (CodePoint.ofNat low).isLowSurrogate = true := by
    rw [CodePoint.isLowSurrogate, ofNat_small (by omega)]
    simp [isLow]
  have first : (CodePoint.ofNat high).isHighSurrogate = true := by
    rw [isHigh_ofNat (by omega)]
    simp [isHigh]
  rw [second, if_pos rfl] at lowUnit
  have read : readEscape (CodePoint.ofChar 'u')
      (Text.ofHex 4 high ++ (escapeUnit low ++ next :: tail)) =
      .ok (CodePoint.ofSurrogates (CodePoint.ofNat high) (CodePoint.ofNat low), 11) := by
    rw [escapeUnit_eq] at lowUnit ⊢
    rw [readEscape, if_pos rfl, List.cons_append, quad]
    dsimp only
    rw [if_pos first, ← List.cons_append, lowUnit]
  refine readString_escape done read
    (CodePoint.ofChar 'u' :: Text.ofHex 4 high ++ escapeUnit low) ?_ rfl
  simp
  rfl

end Steps

/-- The four ways in which a code point is written. -/
theorem escape_cases (asciiOnly : Bool) (c : CodePoint) :
    (∃ d, escape asciiOnly c = [CodePoint.ofChar '\\', d] ∧ d ≠ CodePoint.ofChar 'u' ∧
      shortEscape? d = some c) ∨
    (escape asciiOnly c = escapeUnit c.val ∧ c.val < 0x10000 ∧ (asciiOnly = false → c.val < 0x20)) ∨
    (asciiOnly = true ∧ 0x10000 ≤ c.val ∧ escape asciiOnly c =
      escapeUnit (0xD800 + (c.val - 0x10000) / 0x400) ++
        escapeUnit (0xDC00 + (c.val - 0x10000) % 0x400)) ∨
    (escape asciiOnly c = [c] ∧ c ≠ CodePoint.ofChar '"' ∧ c ≠ CodePoint.ofChar '\\' ∧
      0x20 ≤ c.val ∧ (asciiOnly = true → c.val < 0x7F)) := by
  have same {n : Nat} (value : c.val = n) : CodePoint.ofNat n = c := by
    rw [← value]
    exact ofNat_self c
  by_cases quote : c = CodePoint.ofChar '"'
  · subst quote
    exact .inl ⟨CodePoint.ofChar '"', rfl, by decide, by decide⟩
  by_cases backslash : c = CodePoint.ofChar '\\'
  · subst backslash
    exact .inl ⟨CodePoint.ofChar '\\', rfl, by decide, by decide⟩
  unfold escape
  rw [if_neg quote, if_neg backslash]
  split
  · rename_i value
    exact .inl ⟨CodePoint.ofChar 'n', rfl, by decide, by rw [← same value]; decide⟩
  split
  · rename_i value
    exact .inl ⟨CodePoint.ofChar 'r', rfl, by decide, by rw [← same value]; decide⟩
  split
  · rename_i value
    exact .inl ⟨CodePoint.ofChar 't', rfl, by decide, by rw [← same value]; decide⟩
  split
  · rename_i value
    exact .inl ⟨CodePoint.ofChar 'f', rfl, by decide, by rw [← same value]; decide⟩
  split
  · rename_i value
    exact .inl ⟨CodePoint.ofChar 'b', rfl, by decide, by rw [← same value]; decide⟩
  split
  · rename_i control
    exact .inr (.inl ⟨rfl, by omega, fun _ => control⟩)
  rename_i printable
  cases asciiOnly with
  | false => exact .inr (.inr (.inr ⟨rfl, quote, backslash, by omega, nofun⟩))
  | true =>
    by_cases ascii : c.val < 0x7F
    · have within : ¬(0x7F ≤ c.val) := by omega
      exact .inr (.inr (.inr ⟨by simp [within], quote, backslash, by omega, fun _ => ascii⟩))
    · have beyond : 0x7F ≤ c.val := by omega
      by_cases small : c.val < 0x10000
      · exact .inr (.inl ⟨by simp [beyond, small], small, nofun⟩)
      · exact .inr (.inr (.inl ⟨rfl, by omega, by simp [beyond, small]⟩))

section Points

variable (done : Text) (next : CodePoint) (tail : Text)

private theorem ofSurrogates_halves (c : CodePoint) (large : 0x10000 ≤ c.val) :
    CodePoint.ofSurrogates (CodePoint.ofNat (0xD800 + (c.val - 0x10000) / 0x400))
      (CodePoint.ofNat (0xDC00 + (c.val - 0x10000) % 0x400)) = c := by
  have bound := c.isLt
  have value : 0x10000 + (0xD800 + (c.val - 0x10000) / 0x400 - 0xD800) * 0x400 +
      (0xDC00 + (c.val - 0x10000) % 0x400 - 0xDC00) = c.val := by omega
  rw [CodePoint.ofSurrogates, ofNat_small (by omega), ofNat_small (by omega), value, ofNat_self]

/-- A code point is read back, unless it is half of a pair that goes on. -/
theorem readString_point (asciiOnly : Bool) (c : CodePoint)
    (alone : asciiOnly = true → c.isHighSurrogate = true → lowEscape (next :: tail) = .ok none) :
    readString 0 done (escape asciiOnly c ++ next :: tail) =
      readString 0 (c :: done) (next :: tail) := by
  rcases escape_cases asciiOnly c with ⟨d, shape, other, short⟩ | ⟨shape, small, control⟩ |
    ⟨rfl, large, shape⟩ | ⟨shape, quote, backslash, printable, _⟩
  · have read : readEscape d (next :: tail) = .ok (c, 1) := by
      rw [readEscape, if_neg other, short]
    rw [shape]
    exact readString_escape done read [d] rfl rfl
  · rw [shape, readString_unit done next tail small, ofNat_self]
    rw [ofNat_self]
    intro high
    cases asciiOnly with
    | true => exact alone rfl high
    | false =>
      have := control rfl
      simp only [CodePoint.isHighSurrogate, Bool.and_eq_true, decide_eq_true_eq] at high
      omega
  · have bound := c.isLt
    rw [shape, List.append_assoc, readString_pair done next tail (by omega) (by omega),
      ofSurrogates_halves c large]
  · rw [shape, List.singleton_append, readString, if_neg quote, if_neg backslash,
      if_neg (by omega)]

theorem lowEscape_point (c : CodePoint) (whole : c.isLowSurrogate = false) :
    lowEscape (escape true c ++ next :: tail) = .ok none := by
  rcases escape_cases true c with ⟨d, shape, other, short⟩ | ⟨shape, small, _⟩ |
    ⟨_, large, shape⟩ | ⟨shape, _, backslash, _, _⟩
  · rw [shape, List.cons_append, List.cons_append, lowEscape, if_neg (by simp [other])]
  · rw [shape, lowEscape_unit next tail small, ofNat_self, whole]
    rfl
  · have bound := c.isLt
    have high : (CodePoint.ofNat (0xD800 + (c.val - 0x10000) / 0x400)).isLowSurrogate = false := by
      rw [CodePoint.isLowSurrogate, ofNat_small (by omega)]
      simp only [Bool.and_eq_false_imp, decide_eq_true_eq, decide_eq_false_iff_not]
      omega
    rw [shape, List.append_assoc, escapeUnit_eq (0xDC00 + (c.val - 0x10000) % 0x400),
      List.cons_append, lowEscape_unit _ _ (by omega), high]
    rfl
  · rw [shape, List.singleton_append, lowEscape, if_neg (by simp [backslash])]

end Points

def asRead (asciiOnly : Bool) (t : Text) : Text := if asciiOnly then joinSurrogates t else t

private theorem filled_tail (t rest : Text) :
    ∃ next tail, t ++ CodePoint.ofChar '"' :: rest = next :: tail := by
  cases t with
  | nil => exact ⟨_, _, rfl⟩
  | cons c t => exact ⟨_, _, rfl⟩

private theorem readString_quote (done rest : Text) :
    readString 0 done (CodePoint.ofChar '"' :: rest) = .ok (done.reverse, rest) := by
  cases rest <;> rw [readString, if_pos rfl]

private theorem readString_literal (done t rest : Text) :
    readString 0 done (t.flatMap (escape false) ++ CodePoint.ofChar '"' :: rest) =
      .ok (done.reverse ++ t, rest) := by
  induction t generalizing done with
  | nil => rw [List.flatMap_nil, List.nil_append, readString_quote, List.append_nil]
  | cons c t ih =>
    obtain ⟨next, tail, shape⟩ := filled_tail (t.flatMap (escape false)) rest
    have read := ih (c :: done)
    rw [shape] at read
    rw [List.flatMap_cons, List.append_assoc, shape, readString_point done next tail false c nofun,
      read]
    simp

private theorem escape_half (c : CodePoint) (half : c.isSurrogate = true) :
    escape true c = escapeUnit c.val := by
  simp only [CodePoint.isSurrogate, Bool.and_eq_true, decide_eq_true_eq] at half
  have quote : c ≠ CodePoint.ofChar '"' := by
    rintro rfl
    exact absurd half.1 (by decide)
  have backslash : c ≠ CodePoint.ofChar '\\' := by
    rintro rfl
    exact absurd half.1 (by decide)
  have beyond : 0x7F ≤ c.val := by omega
  have small : c.val < 0x10000 := by omega
  rw [escape, if_neg quote, if_neg backslash, if_neg (by omega), if_neg (by omega),
    if_neg (by omega), if_neg (by omega), if_neg (by omega), if_neg (by omega),
    if_pos (by simp [beyond]), if_pos small]

private theorem lowEscape_quote (rest : Text) :
    lowEscape (CodePoint.ofChar '"' :: rest) = .ok none := by
  have other : CodePoint.ofChar '"' ≠ CodePoint.ofChar '\\' := by decide
  cases rest <;> simp [lowEscape, other]

private theorem joinSurrogates_paired {high low : CodePoint}
    (pair : (high.isHighSurrogate && low.isLowSurrogate) = true) (t : Text) :
    joinSurrogates (high :: low :: t) = CodePoint.ofSurrogates high low :: joinSurrogates t := by
  rw [joinSurrogates, if_pos pair]

private theorem joinSurrogates_unpaired {high low : CodePoint}
    (single : ¬(high.isHighSurrogate && low.isLowSurrogate) = true) (t : Text) :
    joinSurrogates (high :: low :: t) = high :: joinSurrogates (low :: t) := by
  rw [joinSurrogates, if_neg single]

section Pairs

variable (rest : Text)

private theorem readString_joined {high low : CodePoint}
    (pair : (high.isHighSurrogate && low.isLowSurrogate) = true) (done t : Text) :
    readString 0 done ((high :: low :: t).flatMap (escape true) ++ CodePoint.ofChar '"' :: rest) =
      readString 0 (CodePoint.ofSurrogates high low :: done)
        (t.flatMap (escape true) ++ CodePoint.ofChar '"' :: rest) := by
  obtain ⟨next, tail, shape⟩ := filled_tail (t.flatMap (escape true)) rest
  simp only [CodePoint.isHighSurrogate, CodePoint.isLowSurrogate, Bool.and_eq_true,
    decide_eq_true_eq] at pair
  have highHalf : high.isSurrogate = true := by
    simp only [CodePoint.isSurrogate, Bool.and_eq_true, decide_eq_true_eq]
    omega
  have lowHalf : low.isSurrogate = true := by
    simp only [CodePoint.isSurrogate, Bool.and_eq_true, decide_eq_true_eq]
    omega
  rw [List.flatMap_cons, List.flatMap_cons, List.append_assoc, List.append_assoc, shape,
    escape_half high highHalf, escape_half low lowHalf,
    readString_pair done next tail pair.1 pair.2, ofNat_self, ofNat_self]

/-- A half that begins no pair is read alone, since no low half's escape follows it. -/
private theorem readString_alone {high low : CodePoint}
    (single : ¬(high.isHighSurrogate && low.isLowSurrogate) = true) (done t : Text) :
    readString 0 done ((high :: low :: t).flatMap (escape true) ++ CodePoint.ofChar '"' :: rest) =
      readString 0 (high :: done)
        ((low :: t).flatMap (escape true) ++ CodePoint.ofChar '"' :: rest) := by
  obtain ⟨next, tail, shape⟩ := filled_tail (t.flatMap (escape true)) rest
  obtain ⟨next', tail', shape'⟩ := filled_tail ((low :: t).flatMap (escape true)) rest
  have alone (isHigh : high.isHighSurrogate = true) : lowEscape (next' :: tail') = .ok none := by
    have whole : low.isLowSurrogate = false := by simpa [isHigh] using single
    rw [← shape', List.flatMap_cons, List.append_assoc, shape]
    exact lowEscape_point next tail low whole
  rw [List.flatMap_cons, List.append_assoc, shape',
    readString_point done next' tail' true high (fun _ => alone)]

private theorem readString_last (done : Text) (c : CodePoint) :
    readString 0 done ([c].flatMap (escape true) ++ CodePoint.ofChar '"' :: rest) =
      .ok (done.reverse ++ [c], rest) := by
  rw [List.flatMap_cons, List.flatMap_nil, List.append_nil,
    readString_point done _ rest true c (fun _ _ => lowEscape_quote rest), readString_quote]
  simp

private theorem readString_ascii (done t : Text) :
    readString 0 done (t.flatMap (escape true) ++ CodePoint.ofChar '"' :: rest) =
      .ok (done.reverse ++ joinSurrogates t, rest) := by
  -- A pair takes two code points at once, so the induction carries the text with one more in front.
  have both : ∀ t : Text, (∀ done, readString 0 done (t.flatMap (escape true) ++
      CodePoint.ofChar '"' :: rest) = .ok (done.reverse ++ joinSurrogates t, rest)) ∧
      ∀ c done, readString 0 done ((c :: t).flatMap (escape true) ++
        CodePoint.ofChar '"' :: rest) = .ok (done.reverse ++ joinSurrogates (c :: t), rest) := by
    intro t
    induction t with
    | nil =>
      refine ⟨fun done => ?_, fun c done => readString_last rest done c⟩
      rw [List.flatMap_nil, List.nil_append, readString_quote]
      exact congrArg (fun read => Except.ok (read, rest)) (List.append_nil _).symm
    | cons low t ih =>
      refine ⟨ih.2 low, fun high done => ?_⟩
      by_cases pair : (high.isHighSurrogate && low.isLowSurrogate) = true
      · rw [readString_joined rest pair, ih.1, joinSurrogates_paired pair]
        simp
      · rw [readString_alone rest pair, ih.2, joinSurrogates_unpaired pair]
        simp
  exact (both t).1 done

end Pairs

theorem string_quoted (asciiOnly : Bool) (t rest : Text) :
    string (t.flatMap (escape asciiOnly) ++ CodePoint.ofChar '"' :: rest) =
      .ok (asRead asciiOnly t, rest) := by
  cases asciiOnly with
  | false =>
    rw [string, readString_literal]
    rfl
  | true =>
    rw [string, readString_ascii rest]
    rfl

theorem quoted_eq (asciiOnly : Bool) (t : Text) : quoted asciiOnly t =
    CodePoint.ofChar '"' :: (t.flatMap (escape asciiOnly) ++ [CodePoint.ofChar '"']) := rfl

section Ascii

private theorem ascii_hexDigit : ∀ n < 16, (CodePoint.hexDigit n).isAscii = true := by decide

theorem ofHex_ascii (width n : Nat) : ∀ c ∈ Text.ofHex width n, c.isAscii = true := by
  induction width generalizing n with
  | zero => exact fun c member => nomatch member
  | succ width ih =>
    intro c member
    rcases List.mem_append.mp member with high | low
    · exact ih _ c high
    · rw [List.mem_singleton.mp low]
      exact ascii_hexDigit _ (Nat.mod_lt _ (by decide))

theorem shortEscape?_ascii {c d : CodePoint} (short : shortEscape? d = some c) :
    c.isAscii = true ∧ d.isAscii = true := by
  unfold shortEscape? at short
  split at short
  · rename_i itself
    obtain rfl := Option.some.inj short
    simp only [Bool.or_eq_true, decide_eq_true_eq] at itself
    rcases itself with (rfl | rfl) | rfl <;> decide
  repeat' split at short
  all_goals cases short
  all_goals rename_i letter
  all_goals subst letter
  all_goals decide

theorem quoted_ascii (t : Text) : ∀ c ∈ quoted true t, c.isAscii = true := by
  have lead : ∀ c ∈ Text.ofString "\\u", c.isAscii = true := by decide
  have unit (n : Nat) : ∀ c ∈ escapeUnit n, c.isAscii = true := by
    intro c member
    rcases List.mem_append.mp member with first | digits
    · exact lead c first
    · exact ofHex_ascii 4 n c digits
  have point (c : CodePoint) : ∀ d ∈ escape true c, d.isAscii = true := by
    rcases escape_cases true c with ⟨d, shape, _, short⟩ | ⟨shape, _, _⟩ | ⟨_, _, shape⟩ |
      ⟨shape, _, _, _, small⟩
    · have backslash : (CodePoint.ofChar '\\').isAscii = true := by decide
      simp [shape, backslash, (shortEscape?_ascii short).2]
    · rw [shape]
      exact unit c.val
    · intro d member
      rw [shape] at member
      rcases List.mem_append.mp member with first | second
      · exact unit _ d first
      · exact unit _ d second
    · have ascii : c.isAscii = true := by
        have bound := small rfl
        simp only [CodePoint.isAscii, decide_eq_true_eq]
        omega
      simp [shape, ascii]
  have quote : (CodePoint.ofChar '"').isAscii = true := by decide
  intro c member
  rw [quoted_eq, List.mem_cons, List.mem_append, List.mem_singleton, List.mem_flatMap] at member
  rcases member with rfl | ⟨d, _, inside⟩ | rfl
  · exact quote
  · exact point d c inside
  · exact quote

end Ascii

end LinkedProof.Json
