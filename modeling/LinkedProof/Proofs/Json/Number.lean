import LinkedProof.Json.Reader
import LinkedProof.Proofs.Number.Decimal

/-! Numbers in JSON text: a numeral is read as the digits that stand in it, up to the first code
point that cannot belong to it. -/
namespace LinkedProof.Json

def continuesNumber (c : CodePoint) : Bool :=
  c.isDigit || c = ('.' : CodePoint) || c = ('e' : CodePoint) || c = ('E' : CodePoint)

def ApartFromNumber (rest : Text) : Prop := ∀ c ∈ rest.head?, continuesNumber c = false

structure IsWhole (run : Text) : Prop where
  digits : ∀ c ∈ run, c.isDigit = true
  lead : ∃ c rest, run = c :: rest ∧ (c = CodePoint.ofChar '0' → rest = [])

theorem IsWhole.ofDecimal {run : Text} {n : Nat} (decimal : Text.IsDecimal run n) :
    IsWhole run := by
  obtain ⟨c, rest, shape, zero⟩ := decimal.lead
  exact ⟨decimal.digits, c, rest, shape, fun same => (zero same).1⟩

section Parts

variable {run rest : Text}

private theorem ApartFromNumber.cases (apart : ApartFromNumber rest) :
    rest = [] ∨ ∃ c tail, rest = c :: tail ∧ c.isDigit = false ∧ c ≠ CodePoint.ofChar '.' ∧
      c ≠ CodePoint.ofChar 'e' ∧ c ≠ CodePoint.ofChar 'E' := by
  cases rest with
  | nil => exact .inl rfl
  | cons c tail =>
    have stops := apart c rfl
    simp only [continuesNumber, Bool.or_eq_false_iff, decide_eq_false_iff_not] at stops
    obtain ⟨⟨⟨digit, point⟩, small⟩, large⟩ := stops
    exact .inr ⟨c, tail, rfl, digit, point, small, large⟩

theorem digits_run (digits : ∀ c ∈ run, c.isDigit = true)
    (stops : ∀ c ∈ rest.head?, c.isDigit = false) :
    (run ++ rest).takeWhile CodePoint.isDigit = run ∧
      (run ++ rest).dropWhile CodePoint.isDigit = rest := by
  rw [List.takeWhile_append_of_pos digits, List.dropWhile_append_of_pos digits]
  cases rest with
  | nil => simp
  | cons c tail => simp [stops c rfl]

theorem ApartFromNumber.digits (apart : ApartFromNumber rest) :
    ∀ c ∈ rest.head?, c.isDigit = false := by
  intro c member
  have stops := apart c member
  simp only [continuesNumber, Bool.or_eq_false_iff] at stops
  exact stops.1.1.1

theorem wholePart?_run (whole : IsWhole run) (stops : ∀ c ∈ rest.head?, c.isDigit = false) :
    wholePart? (run ++ rest) = some (run, rest) := by
  obtain ⟨c, tail, rfl, zero⟩ := whole.lead
  have digit := whole.digits c List.mem_cons_self
  obtain ⟨taken, dropped⟩ := @digits_run tail rest
    (fun d member => whole.digits d (List.mem_cons_of_mem _ member)) stops
  rw [List.cons_append, wholePart?]
  by_cases first : c = CodePoint.ofChar '0'
  · rw [if_pos first, zero first, List.nil_append]
  · rw [if_neg first, if_pos digit, taken, dropped]

theorem fraction?_run {d : CodePoint} (digits : ∀ c ∈ d :: run, c.isDigit = true)
    (stops : ∀ c ∈ rest.head?, c.isDigit = false) :
    fraction? (CodePoint.ofChar '.' :: d :: run ++ rest) = some (d :: run, rest) := by
  obtain ⟨taken, dropped⟩ := @digits_run run rest
    (fun c member => digits c (List.mem_cons_of_mem _ member)) stops
  have digit := digits d List.mem_cons_self
  simp [fraction?, digit, taken, dropped]

theorem fraction?_none (apart : ∀ c ∈ rest.head?, c ≠ CodePoint.ofChar '.') :
    fraction? rest = none := by
  unfold fraction?
  split
  · rename_i point d tail
    rw [if_neg]
    simp [apart point rfl]
  · rfl

theorem exponent?_none (apart : ApartFromNumber rest) : exponent? rest = none := by
  rcases apart.cases with rfl | ⟨c, tail, rfl, _, _, small, large⟩
  · rfl
  · simp [exponent?, small, large]

theorem exponent?_run (negative : Bool) (digits : ∀ c ∈ run, c.isDigit = true) (filled : run ≠ [])
    (stops : ∀ c ∈ rest.head?, c.isDigit = false) :
    exponent? ((if negative then Text.ofString "e-" else Text.ofString "e+") ++ run ++ rest) =
      some (if negative then -(Text.digitsValue run : Int) else Text.digitsValue run, rest) := by
  obtain ⟨taken, dropped⟩ := digits_run digits stops
  have nonempty : run.isEmpty = false := by simpa using filled
  cases negative with
  | true =>
    have shape : Text.ofString "e-" = [CodePoint.ofChar 'e', CodePoint.ofChar '-'] := by decide
    simp [shape, exponent?, taken, dropped, nonempty]
  | false =>
    have shape : Text.ofString "e+" = [CodePoint.ofChar 'e', CodePoint.ofChar '+'] := by decide
    have other : CodePoint.ofChar '+' ≠ CodePoint.ofChar '-' := by decide
    simp [shape, exponent?, taken, dropped, nonempty, other]

end Parts

section Unsigned

variable {whole decimals power rest : Text}

theorem unsignedNumber?_int (negative : Bool) (leads : IsWhole whole)
    (apart : ApartFromNumber rest) : unsignedNumber? negative (whole ++ rest) =
      some (.int (if negative then -(Text.digitsValue whole : Int) else Text.digitsValue whole),
        rest) := by
  have taken := wholePart?_run leads apart.digits
  have noFraction : fraction? rest = none := fraction?_none fun c member => by
    have stops := apart c member
    simp only [continuesNumber, Bool.or_eq_false_iff, decide_eq_false_iff_not] at stops
    exact stops.1.1.2
  simp [unsignedNumber?, taken, noFraction, exponent?_none apart]

/-- A fraction is read digit by digit, with the point counted from behind. -/
theorem unsignedNumber?_fraction (negative : Bool) (leads : IsWhole whole)
    (digits : ∀ c ∈ decimals, c.isDigit = true) (filled : decimals ≠ [])
    (apart : ApartFromNumber rest) :
    unsignedNumber? negative (whole ++ CodePoint.ofChar '.' :: decimals ++ rest) =
      some (.float (.ofDecimal negative (Text.digitsValue (whole ++ decimals))
        (-(decimals.length : Int))), rest) := by
  obtain ⟨d, run, rfl⟩ := List.exists_cons_of_ne_nil filled
  have point : (CodePoint.ofChar '.').isDigit = false := by decide
  have taken := @wholePart?_run _ (CodePoint.ofChar '.' :: d :: run ++ rest) leads (by
    simp [point])
  have fraction := fraction?_run digits apart.digits
  simp only [unsignedNumber?, List.append_assoc, List.cons_append] at taken fraction ⊢
  simp [taken, fraction, exponent?_none apart]

private theorem mark_stops (negative : Bool) (tail : Text) :
    ∀ c ∈ ((if negative then Text.ofString "e-" else Text.ofString "e+") ++ tail).head?,
      c.isDigit = false ∧ c ≠ CodePoint.ofChar '.' := by
  have minus : Text.ofString "e-" = [CodePoint.ofChar 'e', CodePoint.ofChar '-'] := by decide
  have plus : Text.ofString "e+" = [CodePoint.ofChar 'e', CodePoint.ofChar '+'] := by decide
  have letter : (CodePoint.ofChar 'e').isDigit = false ∧
      CodePoint.ofChar 'e' ≠ CodePoint.ofChar '.' := by decide
  cases negative <;> simpa [minus, plus] using letter

/-- An exponent moves the point of the fraction that stands in front of it, if one does. -/
theorem unsignedNumber?_exponent (negative below : Bool) (leads : IsWhole whole)
    (digits : ∀ c ∈ decimals, c.isDigit = true)
    (powers : ∀ c ∈ power, c.isDigit = true) (filled : power ≠ []) (apart : ApartFromNumber rest) :
    unsignedNumber? negative (whole ++
        (if decimals = [] then [] else CodePoint.ofChar '.' :: decimals) ++
        (if below then Text.ofString "e-" else Text.ofString "e+") ++ power ++ rest) =
      some (.float (.ofDecimal negative (Text.digitsValue (whole ++ decimals))
        ((if below then -(Text.digitsValue power : Int) else Text.digitsValue power) -
          decimals.length)), rest) := by
  have exponent := exponent?_run below powers filled apart.digits
  have stops := mark_stops below (power ++ rest)
  rw [List.append_assoc] at exponent
  simp only [unsignedNumber?, List.append_assoc]
  generalize (if below then Text.ofString "e-" else Text.ofString "e+") ++ (power ++ rest) = tail
    at exponent stops ⊢
  cases decimals with
  | nil =>
    have taken := wholePart?_run leads (fun c member => (stops c member).1)
    have noFraction := fraction?_none (fun c member => (stops c member).2)
    simp [taken, noFraction, exponent]
  | cons d run =>
    have point : (CodePoint.ofChar '.').isDigit = false := by decide
    have taken := @wholePart?_run _ (CodePoint.ofChar '.' :: d :: run ++ tail) leads (by
      simp [point])
    have fraction := fraction?_run digits (fun c member => (stops c member).1)
    simp only [List.cons_append] at taken fraction
    simp [taken, fraction, exponent]

end Unsigned

end LinkedProof.Json
