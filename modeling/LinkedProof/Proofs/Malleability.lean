import Mathlib.Data.List.DropRight
import LinkedProof.Proofs.TokenGrammar

/-! The texts of a signature. The lenient reader takes in texts that nobody writes: with characters
between the data, with those of the other alphabet, with text behind the padding and with bits
behind the last byte. What it reads them as follows from where it stands at the end of each part of
a text; and from that, which texts are the base64 text of their bytes. A suite looks at nothing but
these bytes. -/
namespace LinkedProof

namespace Base64

section Reading

variable {xs : List Nat} {t p q rest : Text} {c : CodePoint} {v : Nat} {b : Bytes}

def sextets (t : Text) : List Nat := t.filterMap value?

def ofSextets : List Nat → Bytes
  | a :: b :: c :: d :: rest => UInt8.ofNat (a * 4 + b / 16) :: UInt8.ofNat (b % 16 * 16 + c / 4)
      :: UInt8.ofNat (c % 4 * 64 + d) :: ofSextets rest
  | [a, b, c] => [UInt8.ofNat (a * 4 + b / 16), UInt8.ofNat (b % 16 * 16 + c / 4)]
  | [a, b] => [UInt8.ofNat (a * 4 + b / 16)]
  | [_] => []
  | [] => []

def leftover : List Nat → Nat
  | _ :: _ :: _ :: _ :: rest => leftover rest
  | [_, _, c] => c % 4
  | [_, b] => b % 16
  | [a] => a
  | [] => 0

def pads (t : Text) : Nat :=
  (t.reverse.takeWhile fun c => (value? c).isNone).count (CodePoint.ofChar '=')

/-- Padding that fills up the last group of two or three characters ends the data. -/
def Closed (t : Text) : Prop :=
  2 ≤ (sextets t).length % 4 ∧ 4 ≤ (sextets t).length % 4 + pads t

instance (t : Text) : Decidable (Closed t) := inferInstanceAs (Decidable (_ ∧ _))

def Reader.behind (t : Text) : Reader where
  group := (sextets t).length % 4
  pads := if 2 ≤ (sextets t).length % 4 then Base64.pads t else 0
  bits := leftover (sextets t)
  done := (ofSextets (sextets t)).reverse

private theorem behind_group (t : Text) :
    (Reader.behind t).group = (sextets t).length % 4 := rfl

private theorem push_sextet (xs : List Nat) (k v : Nat) (done : Bytes) :
    (Reader.mk (xs.length % 4) k (leftover xs) ((ofSextets xs).reverse ++ done)).push v =
      ⟨(xs ++ [v]).length % 4, 0, leftover (xs ++ [v]),
        (ofSextets (xs ++ [v])).reverse ++ done⟩ := by
  fun_induction ofSextets xs generalizing done with
  | case1 a b c d rest ih =>
    have next := ih (UInt8.ofNat (c % 4 * 64 + d) :: UInt8.ofNat (b % 16 * 16 + c / 4) ::
      UInt8.ofNat (a * 4 + b / 16) :: done)
    have length : (rest.length + 1 + 1 + 1 + 1) % 4 = rest.length % 4 := by omega
    have length' : (rest.length + 1 + 1 + 1 + 1 + 1) % 4 = (rest.length + 1) % 4 := by omega
    simpa [ofSextets, leftover, length, length'] using next
  | case2 a b c => simp [Reader.push, ofSextets, leftover]
  | case3 a b => simp [Reader.push, ofSextets, leftover]
  | case4 a => simp [Reader.push, ofSextets, leftover]
  | case5 => simp [Reader.push, ofSextets, leftover]

private theorem value?_pad : value? (CodePoint.ofChar '=') = none := by decide

private theorem sextets_none (t : Text) (skipped : value? c = none) :
    sextets (t ++ [c]) = sextets t := by
  simp [sextets, skipped]

private theorem sextets_some (t : Text) (data : value? c = some v) :
    sextets (t ++ [c]) = sextets t ++ [v] := by
  simp [sextets, data]

private theorem pads_none (t : Text) (skipped : value? c = none) :
    pads (t ++ [c]) = pads t + if c = CodePoint.ofChar '=' then 1 else 0 := by
  simp [pads, skipped, List.count_cons]

private theorem pads_some (t : Text) (data : value? c = some v) : pads (t ++ [c]) = 0 := by
  simp [pads, data]

private theorem run_behind_data (rest : Text) (data : value? c = some v) :
    ¬Closed (t ++ [c]) ∧
      (Reader.behind t).run (c :: rest) = (Reader.behind (t ++ [c])).run rest := by
  have notPad : c ≠ CodePoint.ofChar '=' := by
    rintro rfl
    exact nomatch value?_pad.symm.trans data
  have pushed := push_sextet (sextets t) (Reader.behind t).pads v []
  rw [List.append_nil, List.append_nil] at pushed
  have next : Reader.behind (t ++ [c]) = (Reader.behind t).push v := by
    refine Eq.trans ?_ pushed.symm
    simp [Reader.behind, sextets_some t data, pads_some t data]
  constructor
  · rw [Closed, pads_some t data]
    omega
  · rw [Reader.run, if_neg notPad, data, next]

private theorem run_behind_other (rest : Text) (unclosed : ¬Closed t) (skipped : value? c = none)
    (notPad : c ≠ CodePoint.ofChar '=') : ¬Closed (t ++ [c]) ∧
      (Reader.behind t).run (c :: rest) = (Reader.behind (t ++ [c])).run rest := by
  have same := sextets_none t skipped
  have count := pads_none t skipped
  rw [if_neg notPad, Nat.add_zero] at count
  constructor
  · rwa [Closed, same, count]
  · rw [Reader.run, if_neg notPad, skipped]
    simp only [Reader.behind, same, count]

/-- Padding counts once there are two characters of a group. -/
private theorem run_behind_pad (t rest : Text) :
    (Reader.behind t).run (CodePoint.ofChar '=' :: rest) =
      if Closed (t ++ [CodePoint.ofChar '=']) then .ok (ofSextets (sextets t))
      else (Reader.behind (t ++ [CodePoint.ofChar '='])).run rest := by
  have same := sextets_none t value?_pad
  have count := pads_none t value?_pad
  rw [if_pos rfl] at count
  have closed : Closed (t ++ [CodePoint.ofChar '=']) ↔ 2 ≤ (sextets t).length % 4 ∧
      4 ≤ (sextets t).length % 4 + (pads t + 1) := by rw [Closed, same, count]
  rw [Reader.run, if_pos rfl, behind_group]
  by_cases group : 2 ≤ (sextets t).length % 4
  · have counted : (Reader.behind t).pads = pads t := if_pos group
    have next : Reader.behind (t ++ [CodePoint.ofChar '=']) =
        { Reader.behind t with pads := pads t + 1 } := by
      simp only [Reader.behind, same, count, if_pos group]
    have handed : (Reader.behind t).bytes = ofSextets (sextets t) := List.reverse_reverse _
    rw [if_pos group, counted, next, handed]
    simp only [closed, group, true_and, behind_group]
  · have next : Reader.behind (t ++ [CodePoint.ofChar '=']) = Reader.behind t := by
      simp only [Reader.behind, same, if_neg group]
    rw [if_neg group, if_neg fun ends => group (closed.mp ends).1, next]

/-- A reader in front of a character: it hands out the bytes if the data end with it, and goes on
behind it otherwise. -/
private theorem run_behind_cons (c : CodePoint) (rest : Text) (unclosed : ¬Closed t) :
    (Reader.behind t).run (c :: rest) = if Closed (t ++ [c]) then
      .ok (ofSextets (sextets (t ++ [c]))) else (Reader.behind (t ++ [c])).run rest := by
  cases data : value? c with
  | some v =>
    obtain ⟨goesOn, next⟩ := run_behind_data rest data
    rw [if_neg goesOn, next]
  | none =>
    by_cases pad : c = CodePoint.ofChar '='
    · subst pad
      rw [run_behind_pad, sextets_none t data]
    · obtain ⟨goesOn, next⟩ := run_behind_other rest unclosed data pad
      rw [if_neg goesOn, next]

/-- What a text with its padding is read as: all its characters if they make whole groups, or those
in front of the padding that first closes the data. -/
inductive Reads (t : Text) : Bytes → Prop
  | whole (unclosed : ∀ p, p <+: t → ¬Closed p) (groups : (sextets t).length % 4 = 0) :
    Reads t (ofSextets (sextets t))
  | front {p : Text} (front : p <+: t) (closed : Closed p)
    (first : ∀ q, q <+: p → q ≠ p → ¬Closed q) : Reads t (ofSextets (sextets p))

private theorem finish_behind : (Reader.behind t).finish = .ok b ↔
    (sextets t).length % 4 = 0 ∧ ofSextets (sextets t) = b := by
  have handed : (Reader.behind t).bytes = ofSextets (sextets t) := List.reverse_reverse _
  have small := Nat.mod_lt (sextets t).length (show 0 < 4 by decide)
  rw [Reader.finish, handed, behind_group]
  generalize (sextets t).length % 4 = group
  rcases group with _ | _ | n <;> simp

/-- By induction on what is left of the text; no part that was read so far is closed. -/
private theorem run_behind (unclosed : ∀ p, p <+: t → ¬Closed p) :
    (Reader.behind t).run rest = .ok b ↔ Reads (t ++ rest) b := by
  induction rest generalizing t with
  | nil =>
    rw [Reader.run, finish_behind, List.append_nil]
    constructor
    · rintro ⟨groups, rfl⟩
      exact .whole unclosed groups
    · rintro (⟨_, groups⟩ | ⟨front, closed, _⟩)
      · exact ⟨groups, rfl⟩
      · exact absurd closed (unclosed _ front)
  | cons c rest ih =>
    have shape : t ++ c :: rest = t ++ [c] ++ rest := by simp
    have before (q : Text) (front : q <+: t ++ [c]) (differ : q ≠ t ++ [c]) : ¬Closed q :=
      unclosed q ((List.prefix_concat_iff.mp front).resolve_left differ)
    rw [run_behind_cons c rest (unclosed t List.prefix_rfl), shape]
    by_cases closed : Closed (t ++ [c])
    · rw [if_pos closed, Except.ok.injEq]
      have here : t ++ [c] <+: t ++ [c] ++ rest := List.prefix_append _ _
      constructor
      · rintro rfl
        exact .front here closed before
      · rintro (⟨never, _⟩ | ⟨front, closed', first⟩)
        · exact absurd closed (never _ here)
        · rename_i p
          -- Of two parts of a text one is a part of the other one.
          rcases List.prefix_or_prefix_of_prefix front here with earlier | later
          · by_cases same : p = t ++ [c]
            · rw [same]
            · exact absurd closed' (before p earlier same)
          · by_cases same : t ++ [c] = p
            · rw [same]
            · exact absurd closed (first _ later same)
    · rw [if_neg closed]
      refine ih fun p front => ?_
      by_cases same : p = t ++ [c]
      · rwa [same]
      · exact before p front same

def padded (t : Text) : Text :=
  t ++ List.replicate (missingPadding t.length) (CodePoint.ofChar '=')

theorem decode_ok : decode t = .ok b ↔ t.all CodePoint.isAscii = true ∧ Reads (padded t) b := by
  have start : Reader.start = Reader.behind [] := rfl
  have unclosed (p : Text) (front : p <+: []) : ¬Closed p := by
    obtain rfl := List.prefix_nil.mp front
    decide
  rw [decode]
  split
  · rename_i ascii
    rw [start, run_behind unclosed, List.nil_append, padded]
    exact (and_iff_right ascii).symm
  · rename_i other
    constructor
    · intro failed
      cases failed
    · exact fun both => absurd both.1 other

end Reading

section Canonical

variable {xs : List Nat} {t s : Text} {b : Bytes}

def unpadded (t : Text) : Text := t.rdropWhile (· = CodePoint.ofChar '=')

/-- Characters of the URL alphabet in front of the padding, and no bits behind the last byte. -/
structure Canonical (t : Text) : Prop where
  alphabet : ∀ c ∈ unpadded t, InAlphabet c
  bits : leftover (sextets t) = 0

private theorem unpadded_append (t : Text) :
    ∃ k, t = unpadded t ++ List.replicate k (CodePoint.ofChar '=') := by
  refine ⟨(t.rtakeWhile (· = CodePoint.ofChar '=')).length, ?_⟩
  have pads := List.eq_replicate_of_mem (a := CodePoint.ofChar '=')
    (l := t.rtakeWhile (· = CodePoint.ofChar '=')) fun c member => by
      simpa using List.mem_rtakeWhile_imp member
  rw [← pads]
  exact List.rdropWhile_append_rtakeWhile.symm

private theorem sextets_pads (t : Text) (k : Nat) :
    sextets (t ++ List.replicate k (CodePoint.ofChar '=')) = sextets t := by
  simp [sextets, value?_pad]

private theorem sextets_unpadded (t : Text) : sextets (unpadded t) = sextets t := by
  obtain ⟨k, shape⟩ := unpadded_append t
  exact (sextets_pads (unpadded t) k).symm.trans (congrArg sextets shape.symm)

private theorem sextets_digit {n : Nat} (small : n < 64) :
    sextets (digit n :: s) = n :: sextets s := List.filterMap_cons_some (value?_digit n small)

/-- The numbers of a text in the URL alphabet stand for its characters. -/
private theorem sextets_alphabet (inside : ∀ c ∈ s, InAlphabet c) :
    (sextets s).map digit = s ∧ ∀ n ∈ sextets s, n < 64 := by
  induction s with
  | nil => exact ⟨rfl, nofun⟩
  | cons c rest ih =>
    obtain ⟨⟨n, small, rfl⟩, others⟩ := List.forall_mem_cons.mp inside
    obtain ⟨written, bounded⟩ := ih others
    rw [sextets_digit small]
    exact ⟨congrArg (digit n :: ·) written, List.forall_mem_cons.mpr ⟨small, bounded⟩⟩

private theorem leftover_encode (b : Bytes) : leftover (sextets (encode b)) = 0 := by
  fun_induction encode b with
  | case1 => rfl
  | case2 a =>
    have bound := a.toNat_lt
    rw [sextets_digit (by omega), sextets_digit (by omega)]
    simp only [sextets, List.filterMap_nil, leftover]
    omega
  | case3 a b =>
    have bound := a.toNat_lt
    have bound' := b.toNat_lt
    rw [sextets_digit (by omega), sextets_digit (by omega), sextets_digit (by omega)]
    simp only [sextets, List.filterMap_nil, leftover]
    omega
  | case4 a b c rest ih =>
    have bound := a.toNat_lt
    have bound' := b.toNat_lt
    have bound'' := c.toNat_lt
    rw [sextets_digit (by omega), sextets_digit (by omega), sextets_digit (by omega),
      sextets_digit (by omega)]
    exact ih

private theorem toNat_ofNat {n : Nat} (small : n < 256) : (UInt8.ofNat n).toNat = n :=
  UInt8.toNat_ofNat_of_lt' small

/-- Whole bytes are written as the numbers that they were made of. -/
private theorem encode_ofSextets (small : ∀ n ∈ xs, n < 64) (groups : xs.length % 4 ≠ 1)
    (bits : leftover xs = 0) : encode (ofSextets xs) = xs.map digit := by
  fun_induction ofSextets xs with
  | case1 a b c d rest ih =>
    simp only [List.forall_mem_cons] at small
    obtain ⟨first, second, third, fourth, others⟩ := small
    simp only [List.length_cons] at groups
    have written := ih others (by omega) bits
    have one : (a * 4 + b / 16) / 4 = a := by omega
    have two : (a * 4 + b / 16) % 4 * 16 + (b % 16 * 16 + c / 4) / 16 = b := by omega
    have three : (b % 16 * 16 + c / 4) % 16 * 4 + (c % 4 * 64 + d) / 64 = c := by omega
    have four : (c % 4 * 64 + d) % 64 = d := by omega
    rw [encode, toNat_ofNat (by omega), toNat_ofNat (by omega), toNat_ofNat (by omega), one, two,
      three, four, written]
    rfl
  | case2 a b c =>
    simp only [List.forall_mem_cons] at small
    obtain ⟨first, second, third, _⟩ := small
    have spare : c % 4 = 0 := bits
    have one : (a * 4 + b / 16) / 4 = a := by omega
    have two : (a * 4 + b / 16) % 4 * 16 + (b % 16 * 16 + c / 4) / 16 = b := by omega
    have three : (b % 16 * 16 + c / 4) % 16 * 4 = c := by omega
    rw [encode, toNat_ofNat (by omega), toNat_ofNat (by omega), one, two, three]
    rfl
  | case3 a b =>
    simp only [List.forall_mem_cons] at small
    obtain ⟨first, second, _⟩ := small
    have spare : b % 16 = 0 := bits
    have one : (a * 4 + b / 16) / 4 = a := by omega
    have two : (a * 4 + b / 16) % 4 * 16 = b := by omega
    rw [encode, toNat_ofNat (by omega), one, two]
    rfl
  | case4 a => exact absurd rfl groups
  | case5 => rfl

private theorem reads_sextets (reads : Reads t b) : ∃ p, p <+: t ∧ (Closed p ∨ p = t) ∧
    (sextets p).length % 4 ≠ 1 ∧ ofSextets (sextets p) = b := by
  rcases reads with ⟨_, groups⟩ | ⟨front, closed, _⟩
  · exact ⟨t, List.prefix_rfl, .inr rfl, by omega, rfl⟩
  · exact ⟨_, front, .inl closed, by have group := closed.1; omega, rfl⟩

private theorem pad_of_closed (closed : Closed t) : CodePoint.ofChar '=' ∈ t := by
  by_contra none
  have counted : pads t = 0 := by
    refine List.count_eq_zero.mpr fun member => none ?_
    exact List.mem_reverse.mp (List.takeWhile_prefix _ |>.subset member)
  have small := Nat.mod_lt (sextets t).length (show 0 < 4 by decide)
  have full := closed.2
  omega

/-- A text that is read is the base64 text of the bytes, but for padding, exactly if it is a
canonical one. -/
theorem canonical_iff (decoded : decode t = .ok b) : unpadded t = encode b ↔ Canonical t := by
  constructor
  · intro same
    refine ⟨same ▸ encode_alphabet b, ?_⟩
    rw [← sextets_unpadded, same, leftover_encode]
  · rintro ⟨inside, bits⟩
    obtain ⟨k, shape⟩ := unpadded_append t
    obtain ⟨written, small⟩ := sextets_alphabet inside
    obtain ⟨p, front, ends, groups, rfl⟩ := reads_sextets (decode_ok.mp decoded).2
    have whole : sextets p = sextets (unpadded t) := by
      have padding : padded t = unpadded t ++
          List.replicate (k + missingPadding t.length) (CodePoint.ofChar '=') := by
        rw [padded, ← List.replicate_append_replicate, ← List.append_assoc, ← shape]
      rw [padding] at front ends
      rcases ends with closed | rfl
      · rcases List.prefix_or_prefix_of_prefix front (List.prefix_append _ _) with inner | outer
        · exact absurd rfl (inside _ (inner.subset (pad_of_closed closed))).ne_pad
        · obtain ⟨rest, rfl⟩ := outer
          obtain ⟨_, repeated⟩ := List.prefix_replicate_iff.mp
            ((List.prefix_append_right_inj _).mp front)
          rw [repeated]
          exact sextets_pads _ _
      · exact sextets_pads _ _
    rw [← sextets_unpadded] at bits
    rw [whole] at groups ⊢
    rw [encode_ofSextets small groups bits, written]

/-- Canonical texts that differ in more than their padding are read as different bytes. -/
theorem canonical_inj {t' : Text} {b' : Bytes} (canonical : Canonical t) (canonical' : Canonical t')
    (decoded : decode t = .ok b) (decoded' : decode t' = .ok b') :
    unpadded t = unpadded t' ↔ b = b' := by
  rw [(canonical_iff decoded).mpr canonical, (canonical_iff decoded').mpr canonical']
  exact encode_injective.eq_iff

private theorem run_skip {c : CodePoint} (notPad : c ≠ CodePoint.ofChar '=')
    (skipped : value? c = none) (r : Reader) (rest : Text) : r.run (c :: rest) = r.run rest := by
  rw [Reader.run, if_neg notPad, skipped]

def foreign : Text := "!!!!"

private theorem decode_foreign (t : Text) : decode (foreign ++ t) = decode t := by
  have shape : foreign = List.replicate 4 (CodePoint.ofChar '!') := by decide
  have ascii : (foreign ++ t).all CodePoint.isAscii = t.all CodePoint.isAscii := by
    rw [List.all_append, shape]
    rfl
  have padding : missingPadding (foreign ++ t).length = missingPadding t.length := by
    rw [List.length_append, shape, List.length_replicate]
    simp only [missingPadding]
    omega
  have skip (rest : Text) : Reader.start.run (foreign ++ rest) = Reader.start.run rest := by
    simp only [shape, List.replicate, List.cons_append, List.nil_append]
    iterate 4 rw [run_skip (by decide) (by decide)]
  rw [decode, decode, ascii, padding, List.append_assoc, skip]

private theorem foreign_not_canonical (t : Text) : ¬Canonical (foreign ++ t) := by
  intro canonical
  obtain ⟨k, shape⟩ := unpadded_append (foreign ++ t)
  have mark : CodePoint.ofChar '!' ∈ foreign ++ t := List.mem_append_left t (by decide)
  rw [shape] at mark
  rcases List.mem_append.mp mark with inside | pad
  · obtain ⟨n, small, same⟩ := canonical.alphabet _ inside
    have outside : value? (CodePoint.ofChar '!') = none := by decide
    rw [same, value?_digit n small] at outside
    cases outside
  · exact absurd (List.eq_of_mem_replicate pad) (by decide)

end Canonical

end Base64

namespace Suite

open Base64 (decode encode unpadded padded Reads Canonical)
open DetachedJws (IsRefusal)

variable {σ : Type} {s : Suite σ} {table : CurveTable} {key : PublicKey} {payload b : Bytes}
  {header t : Text} {r : Representation} {fault : Base64.Fault}

def framed (header : Text) : Representation → Text → Text
  | .proofValue, t => t
  | .jws, t => header ++ Text.ofString ".." ++ t

def Fits (header : Text) (r : Representation) (t : Text) : Prop :=
  r = .jws → CodePoint.ofChar '.' ∉ header ∧ CodePoint.ofChar '.' ∉ t

private theorem decodePart_ok (decoded : decode t = .ok b) :
    DetachedJws.decodePart t = .ok b := by
  rw [DetachedJws.decodePart, decoded]
  rfl

private theorem decodePart_fault (refused : decode t = .error fault) :
    DetachedJws.decodePart t = .error (.proof (.signature (.notEncoded fault.message))) := by
  rw [DetachedJws.decodePart, refused]
  rfl

private theorem split_framed (fits : Fits header .jws t) :
    DetachedJws.split (framed header .jws t) = do
      return (header, ← DetachedJws.decodePart t) := by
  have points : Text.ofString ".." = [CodePoint.ofChar '.', CodePoint.ofChar '.'] := by decide
  have parts : Text.split (CodePoint.ofChar '.') (framed header .jws t) = [header, [], t] :=
    Text.split_eq_outer.mpr ⟨by rw [framed, points]; simp, fits rfl⟩
  rw [DetachedJws.split, parts]

/-- A text that cannot be read is refused before anything else is looked at. -/
private theorem verify_fault (fits : Fits header r t) (refused : decode t = .error fault) :
    s.verify table key payload r (framed header r t) =
      throw (.proof (.signature (.notEncoded fault.message))) := by
  cases r with
  | proofValue =>
    rw [verify, opening, framed, decodePart_fault refused]
    rfl
  | jws =>
    rw [verify, opening, DetachedJws.opening, split_framed fits, decodePart_fault refused]
    rfl

/-- A text counts for nothing but the bytes that it is read as. -/
private theorem verify_bytes (fits : Fits header r t) (decoded : decode t = .ok b) :
    s.verify table key payload r (framed header r t) =
      s.verify table key payload r (framed header r (encode b)) := by
  have again := decodePart_ok (Base64.decode_encode b)
  cases r with
  | proofValue =>
    rw [verify, verify, opening, opening, framed, framed, decodePart_ok decoded, again]
  | jws =>
    have fits' : Fits header .jws (encode b) := fun same => ⟨(fits same).1, Base64.encode_clear b⟩
    rw [verify, verify, opening, opening, DetachedJws.opening, DetachedJws.opening,
      split_framed fits, split_framed fits', decodePart_ok decoded, again]

/-- Which texts are read as a signature. An ASCII text is read by the characters of both alphabets
up to the padding that closes their last group, and it is the base64 text of these bytes, but for
padding, exactly if it is a canonical one; every signature has other texts. A text that cannot be
read is refused, and every other one is taken for the base64 text of its bytes. -/
theorem texts_settled (table : CurveTable) (key : PublicKey) (payload : Bytes) :
    (∀ t b, decode t = .ok b ↔ t.all CodePoint.isAscii = true ∧ Reads (padded t) b) ∧
    (∀ t b, decode t = .ok b → (unpadded t = encode b ↔ Canonical t)) ∧
    (∀ t t' b b', Canonical t → Canonical t' → decode t = .ok b → decode t' = .ok b' →
      (unpadded t = unpadded t' ↔ b = b')) ∧
    (∀ b, ∃ t, decode t = .ok b ∧ ¬Canonical t) ∧
    ∀ header r t, Fits header r t →
      (∀ fault, decode t = .error fault → ∃ failure, IsRefusal failure ∧
        ∀ (σ : Type) (s : Suite σ),
          s.verify table key payload r (framed header r t) = throw failure) ∧
      ∀ b, decode t = .ok b → ∀ (σ : Type) (s : Suite σ),
        s.verify table key payload r (framed header r t) =
          s.verify table key payload r (framed header r (encode b)) := by
  refine ⟨fun _ _ => Base64.decode_ok, fun _ _ => Base64.canonical_iff,
    fun _ _ _ _ => Base64.canonical_inj, fun b => ?_, fun header r t fits => ⟨?_, ?_⟩⟩
  · refine ⟨Base64.foreign ++ encode b, ?_, Base64.foreign_not_canonical _⟩
    rw [Base64.decode_foreign, Base64.decode_encode]
  · exact fun fault refused => ⟨_, ⟨_, rfl, rfl⟩, fun _ _ => verify_fault fits refused⟩
  · exact fun b decoded _ _ => verify_bytes fits decoded

section Spare

def spareText : Text := "AB"

private theorem spare_decode : decode spareText = .ok [0] := by decide

theorem texts_settled_spare : ¬Canonical spareText ∧
    (∀ (σ : Type) (s : Suite σ), s.verify CurveTable.initial looseKey [] .proofValue spareText =
      s.verify CurveTable.initial looseKey [] .proofValue "AA") ∧
    ∃ failure, IsRefusal failure ∧ ∀ (σ : Type) (s : Suite σ),
      s.verify CurveTable.initial looseKey [] .jws "..A" = throw failure := by
  obtain ⟨_, canonical, _, _, verifies⟩ := texts_settled CurveTable.initial looseKey []
  refine ⟨fun exact => ?_, ?_, ?_⟩
  · exact absurd ((canonical _ _ spare_decode).mpr exact) (by decide)
  · exact (verifies [] .proofValue spareText nofun).2 [0] spare_decode
  · exact (verifies [] .jws "A" fun _ => ⟨by decide, by decide⟩).1 (.lonely 1) (by decide)

/-- A text can be read as bytes of which it is not the base64 text, and be accepted with them. -/
theorem texts_not_strict :
    (¬∀ t b, decode t = .ok b → unpadded t = encode b) ∧
    ¬∀ (s : Suite Unit) (table : CurveTable) (key : PublicKey) (payload : Bytes) (t : Text),
      (s.verify table key payload .proofValue t).Ends () (.ok ()) () →
        ∃ b, unpadded t = encode b := by
  constructor
  · intro strict
    exact absurd (strict _ _ spare_decode) (by decide)
  · intro strict
    have taken : (trusting.verify CurveTable.initial looseKey [] .proofValue spareText).Ends ()
        (.ok ()) () := by
      rw [verify, opening, decodePart_ok spare_decode]
      exact Action.ends_pure.mpr ⟨rfl, rfl⟩
    obtain ⟨b, same⟩ := strict _ _ _ _ _ taken
    have whole : unpadded spareText = spareText := by decide
    have read := Base64.decode_encode b
    rw [← same, whole, spare_decode] at read
    obtain rfl := Except.ok.inj read
    exact absurd same (by decide)

end Spare

end Suite

end LinkedProof
