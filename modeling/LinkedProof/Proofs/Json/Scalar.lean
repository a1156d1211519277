import LinkedProof.Json.Writer
import LinkedProof.Proofs.Json.FloatText

/-! Scalars in JSON text: words and numbers, which are told apart from each other and from strings
and containers by how they begin. -/
namespace LinkedProof.Json

def isScalar : Json → Bool
  | text _ | array _ | object _ => false
  | _ => true

def oneNaN : Json → Json
  | float x => float (if x.isNaN then .nan else x)
  | value => value

def scalar? (t : Text) : Option (Json × Text) := (word? t).or (number? t)

private theorem word?_none {t : Text} (apart : ∀ w ∈ words, w.1.isPrefixOf t = false) :
    word? t = none := by
  cases found : word? t with
  | none => rfl
  | some r =>
    obtain ⟨w, first, _⟩ := Option.map_eq_some_iff.mp found
    have begins := List.find?_some first
    have other : _ = false := apart w (List.mem_of_find?_eq_some first)
    cases other.symm.trans begins

private theorem words_lead : ∀ w ∈ words, (w.1.head?.map CodePoint.isDigit) = some false ∧
    w.1.head? ≠ some (CodePoint.ofChar '"') ∧ w.1.head? ≠ some (CodePoint.ofChar '[') ∧
    w.1.head? ≠ some (CodePoint.ofChar '\x7b') ∧ (w.1.head? = some (CodePoint.ofChar '-') →
      w.1.tail.head?.map CodePoint.isDigit = some false) := by
  decide

private theorem apart_of_head {word t : Text} (filled : word ≠ []) (differ : word.head? ≠ t.head?) :
    word.isPrefixOf t = false := by
  cases word with
  | nil => exact absurd rfl filled
  | cons d word =>
    cases t with
    | nil => rfl
    | cons c t =>
      have other : d ≠ c := fun same => differ (by rw [same]; rfl)
      simp [List.isPrefixOf, other]

theorem word?_other {c : CodePoint} (t : Text)
    (other : c.isDigit = true ∨ c = CodePoint.ofChar '"' ∨ c = CodePoint.ofChar '[' ∨
      c = CodePoint.ofChar '\x7b') : word? (c :: t) = none := by
  refine word?_none fun w member => ?_
  obtain ⟨digit, quote, bracket, brace, _⟩ := words_lead w member
  refine apart_of_head (fun empty => by simp [empty] at digit) fun same => ?_
  rw [List.head?_cons] at same
  rcases other with isDigit | rfl | rfl | rfl
  · rw [same] at digit
    simp [isDigit] at digit
  · exact quote same
  · exact bracket same
  · exact brace same

theorem word?_minus {c : CodePoint} (digit : c.isDigit = true) (t : Text) :
    word? (CodePoint.ofChar '-' :: c :: t) = none := by
  refine word?_none fun w member => ?_
  obtain ⟨first, _, _, _, second⟩ := words_lead w member
  cases shape : w.1 with
  | nil => simp [shape] at first
  | cons d word =>
    by_cases minus : d = CodePoint.ofChar '-'
    · have other := second (by rw [shape, minus]; rfl)
      rw [shape, List.tail_cons] at other
      have apart := @apart_of_head word (c :: t)
        (fun empty => by simp [empty] at other) (fun same => by simp [same, digit] at other)
      simp [List.isPrefixOf, apart]
    · exact apart_of_head (List.cons_ne_nil _ _) (by simpa using minus)

theorem scalar?_other {c : CodePoint} (t : Text) (other : c = CodePoint.ofChar '"' ∨
    c = CodePoint.ofChar '[' ∨ c = CodePoint.ofChar '\x7b') : scalar? (c :: t) = none := by
  have noNumber : number? (c :: t) = none := by
    rcases other with rfl | rfl | rfl <;> rfl
  rw [scalar?, word?_other t (.inr other), noNumber]
  rfl

private theorem infinity_eq {x : Binary64} (infinite : x.isInfinite = true) :
    Binary64.infinity x.isNegative = x := by
  have fields := Binary64.ofFields_self x
  simp only [Binary64.isInfinite, Bool.and_eq_true, decide_eq_true_eq] at infinite
  rwa [infinite.1, infinite.2] at fields

private theorem scalar?_float (x : Binary64) {rest : Text} (apart : ApartFromNumber rest) :
    scalar? (FloatLayout.json.text x ++ rest) = some ((float x).oneNaN, rest) := by
  cases number : x.isNaN with
  | true =>
    rw [FloatLayout.text, if_pos number, oneNaN, if_pos number]
    rfl
  | false =>
    rw [oneNaN, if_neg (by simp [number])]
    cases finite : x.isInfinite with
    | true =>
      have value := infinity_eq finite
      rw [FloatLayout.text, if_neg (by simp [number]), ← value]
      cases x.isNegative <;> rfl
    | false =>
      have read := number?_float FloatLayout.json number finite apart
      have noWord : word? (FloatLayout.json.text x ++ rest) = none := by
        obtain ⟨⟨c, tail, shape, digit⟩, _⟩ :=
          FloatLayout.json.magnitude_read number finite apart
        rw [FloatLayout.text, if_neg (by simp [number])]
        simp only [finite, shape, Bool.false_eq_true, if_false]
        split
        · exact word?_minus digit _
        · exact word?_other _ (.inl digit)
      rw [scalar?, noWord, read]
      rfl

/-- A scalar is read back, all that are not numbers as one. -/
theorem scalar?_write (layout : JsonLayout) (depth : Nat) {v : Json} (scalar : v.isScalar = true)
    {rest : Text} (apart : ApartFromNumber rest) :
    scalar? (v.write layout depth ++ rest) = some (v.oneNaN, rest) := by
  cases v with
  | null => rfl
  | bool b => cases b <;> rfl
  | int i =>
    have read := number?_int i apart
    have noWord : word? (Text.ofInt i ++ rest) = none := by
      obtain ⟨c, tail, shape, _⟩ := (Text.ofNat_isDecimal i.natAbs).lead
      have digit := (Text.ofNat_isDecimal i.natAbs).digits
      rw [shape] at digit
      have isDigit := digit c List.mem_cons_self
      unfold Text.ofInt
      split
      · rw [shape]
        exact word?_minus isDigit _
      · rw [shape]
        exact word?_other _ (.inl isDigit)
    rw [write, scalar?, noWord, read]
    rfl
  | float x => exact scalar?_float x apart
  | text t => cases scalar
  | array items => cases scalar
  | object ms => cases scalar

end LinkedProof.Json
