import Mathlib.Data.List.Forall2
import LinkedProof.Proofs.Calendar
import LinkedProof.Proofs.Number.Decimal
import LinkedProof.TimeFormat

/-! What the text of a timestamp stands for. A text is made for each timestamp whose universal time
lies in the calendar; it has one of two forms, it is read as the time it was made for, and it tells
just those instants apart that its format distinguishes. -/
namespace LinkedProof

-- Powers are the core library's, whatever else is in scope.
attribute [local instance (high)] instPowNat

/-- Whether a text has a digit where the form has a zero, and elsewhere what the form has. -/
def Text.HasForm (form t : Text) : Prop :=
  List.Forall₂ (fun mark c => if mark = CodePoint.ofChar '0' then c.isDigit = true else c = mark)
    form t

instance (form t : Text) : Decidable (Text.HasForm form t) :=
  inferInstanceAs (Decidable (List.Forall₂ _ form t))

namespace CivilTime

open Text (HasForm)

def wholeForm : Text := "0000-00-00T00:00:00Z"

def fractionForm : Text := "0000-00-00T00:00:00.000000Z"

def form (t : CivilTime) : Text := if t.micro = 0 then wholeForm else fractionForm

def ofText? (t : Text) : Option CivilTime :=
  let number (start width : Nat) : Nat := Text.digitsValue ((t.drop start).take width)
  if HasForm wholeForm t ∨ HasForm fractionForm t then
    ofFields? (number 0 4) (number 5 2) (number 8 2) (number 11 2) (number 14 2) (number 17 2)
      (number 20 6)
  else none

private theorem hasForm_append {form form' t t' : Text} (first : HasForm form t)
    (second : HasForm form' t') : HasForm (form ++ form') (t ++ t') := List.rel_append first second

private theorem hasForm_digits {t : Text} (digits : ∀ c ∈ t, c.isDigit = true) :
    HasForm (List.replicate t.length (CodePoint.ofChar '0')) t := by
  induction t with
  | nil => exact .nil
  | cons c t ih =>
    obtain ⟨first, others⟩ := List.forall_mem_cons.mp digits
    exact .cons (by simpa using first) (ih others)

private theorem hasForm_padded {width n : Nat} (positive : 0 < width) (small : n < 10 ^ width) :
    HasForm (List.replicate width (CodePoint.ofChar '0')) (Text.ofNatPadded width n) := by
  have form := hasForm_digits (Text.ofNatPadded_digits width n)
  rwa [Text.length_ofNatPadded positive small] at form

/-- The numbers of a time fit into the places of its text. -/
private theorem fits (t : CivilTime) : t.year < 10000 ∧ t.month < 100 ∧ t.day < 100 ∧
    t.hour < 100 ∧ t.minute < 100 ∧ t.second < 100 ∧ t.micro < 1000000 := by
  obtain ⟨_, ⟨first, last⟩, _⟩ := t.valid
  have named := Calendar.monthLength_pos (Nat.le_trans first last)
  have bound := Calendar.monthLength_le (Nat.le_trans first last)
  refine ⟨?_, ?_, ?_, ?_, ?_, ?_, ?_⟩ <;> omega

private theorem widths (t : CivilTime) : (Text.ofNatPadded 4 t.year).length = 4 ∧
    (Text.ofNatPadded 2 t.month).length = 2 ∧ (Text.ofNatPadded 2 t.day).length = 2 ∧
    (Text.ofNatPadded 2 t.hour).length = 2 ∧ (Text.ofNatPadded 2 t.minute).length = 2 ∧
    (Text.ofNatPadded 2 t.second).length = 2 ∧ (Text.ofNatPadded 6 t.micro).length = 6 := by
  obtain ⟨year, month, day, hour, minute, second, micro⟩ := fits t
  have two {n : Nat} (small : n < 100) := Text.length_ofNatPadded (by decide : 0 < 2) small
  exact ⟨Text.length_ofNatPadded (by decide) year, two month, two day, two hour, two minute,
    two second, Text.length_ofNatPadded (by decide) micro⟩

/-- The text of a time with the mark of universal time. -/
private theorem text_mark (t : CivilTime) : t.text ++ Text.ofString "Z" =
    Text.ofNatPadded 4 t.year ++ (Text.ofString "-" ++ (Text.ofNatPadded 2 t.month ++
      (Text.ofString "-" ++ (Text.ofNatPadded 2 t.day ++ (Text.ofString "T" ++
        (Text.ofNatPadded 2 t.hour ++ (Text.ofString ":" ++ (Text.ofNatPadded 2 t.minute ++
          (Text.ofString ":" ++ (Text.ofNatPadded 2 t.second ++
            ((if t.micro = 0 then [] else Text.ofString "." ++ Text.ofNatPadded 6 t.micro) ++
              Text.ofString "Z"))))))))))) := by
  simp only [text, Text.concat, List.flatten_cons, List.flatten_nil, List.append_nil,
    List.append_assoc]

theorem hasForm_text (t : CivilTime) : HasForm t.form (t.text ++ Text.ofString "Z") := by
  obtain ⟨year, month, day, hour, minute, second, micro⟩ := fits t
  have two {n : Nat} (small : n < 100) := hasForm_padded (by decide : 0 < 2) small
  have front {rest rest' : Text} (behind : HasForm rest rest') := hasForm_append
    (hasForm_padded (by decide : 0 < 4) year) <| hasForm_append (by decide : HasForm "-" "-") <|
    hasForm_append (two month) <| hasForm_append (by decide : HasForm "-" "-") <|
    hasForm_append (two day) <| hasForm_append (by decide : HasForm "T" "T") <|
    hasForm_append (two hour) <| hasForm_append (by decide : HasForm ":" ":") <|
    hasForm_append (two minute) <| hasForm_append (by decide : HasForm ":" ":") <|
    hasForm_append (two second) behind
  rw [text_mark, form]
  by_cases none : t.micro = 0
  · rw [if_pos none, if_pos none]
    exact front (by decide : HasForm "Z" "Z")
  · rw [if_neg none, if_neg none, List.append_assoc]
    exact front <| hasForm_append (by decide : HasForm "." ".") <|
      hasForm_append (hasForm_padded (by decide : 0 < 6) micro) (by decide : HasForm "Z" "Z")

theorem ofText?_text (t : CivilTime) : ofText? (t.text ++ Text.ofString "Z") = some t := by
  have formed : HasForm wholeForm (t.text ++ Text.ofString "Z") ∨
      HasForm fractionForm (t.text ++ Text.ofString "Z") := by
    have form := hasForm_text t
    rw [CivilTime.form] at form
    split at form
    · exact .inl form
    · exact .inr form
  have widths := widths t
  have marks : (Text.ofString "-").length = 1 ∧ (Text.ofString "T").length = 1 ∧
    (Text.ofString ":").length = 1 ∧ (Text.ofString ".").length = 1 ∧
    (Text.ofString "Z").tail = [] := by decide
  rw [ofText?, if_pos formed, text_mark]
  refine ofFields?_eq_some.mpr (fields_eq.mpr ⟨?_, ?_, ?_, ?_, ?_, ?_, ?_⟩)
  case refine_7 =>
    -- Without a fraction the text ends before the place of the microseconds.
    by_cases none : t.micro = 0
    · simp [none, List.drop_append, marks, widths, List.drop_of_length_le, Text.digitsValue]
    · simp [none, List.drop_append, marks, widths, List.drop_of_length_le,
        Text.digitsValue_ofNatPadded]
  all_goals
    simp [List.drop_append, marks, widths, List.drop_of_length_le, Text.digitsValue_ofNatPadded]

/-- Different times have different texts. -/
theorem text_inj {t u : CivilTime} : t.text ++ Text.ofString "Z" = u.text ++ Text.ofString "Z" ↔
    t = u := by
  refine ⟨fun same => ?_, fun same => by rw [same]⟩
  have read := congrArg ofText? same
  rw [ofText?_text, ofText?_text] at read
  exact Option.some.inj read

def instant (t : CivilTime) : Nat := t.seconds * 1000000 + t.micro

theorem instant_inj {t u : CivilTime} : t.instant = u.instant ↔ t = u := by
  refine ⟨fun same => ?_, congrArg instant⟩
  obtain ⟨_, _, _, _, _, micro⟩ := t.valid
  obtain ⟨_, _, _, _, _, micro'⟩ := u.valid
  rw [instant, instant] at same
  exact eq_of_seconds (by omega) (by omega)

end CivilTime

def Timestamp.instant (t : Timestamp) : Int := t.seconds * 1000000 + t.clock.micro

namespace TimeFormat

open CivilTime (ofText? wholeForm fractionForm)

variable {f : TimeFormat} {t t' : Timestamp} {u : CivilTime} {s s' : Text}

def kept : TimeFormat → CivilTime → CivilTime
  | exact, u => u
  | wholeSeconds, u => u.wholeSecond

def step : TimeFormat → Int
  | exact => 1
  | wholeSeconds => 1000000

theorem kept_instant (shown : t.Universal u) :
    ((f.kept u).instant : Int) = t.instant / f.step * f.step := by
  obtain ⟨seconds, micro⟩ := Timestamp.universal_iff.mp shown
  have small := t.clock.valid.2.2.2.2.2
  have same : u.wholeSecond.seconds = u.seconds := rfl
  cases f with
  | exact => simp only [kept, step, CivilTime.instant, Timestamp.instant]; omega
  | wholeSeconds =>
    simp only [kept, step, CivilTime.instant, Timestamp.instant, same]
    have zero : u.wholeSecond.micro = 0 := rfl
    omega

theorem format_ok (f : TimeFormat) (shown : t.Universal u) :
    f.format t = .ok ((f.kept u).text ++ Text.ofString "Z") := by
  rw [format, Timestamp.universal?_eq_some.mpr shown]
  cases f <;> rfl

theorem format_overflow : f.format t = .error (.overflow "date value out of range") ↔
    ¬∃ u, t.Universal u := by
  rw [format]
  constructor
  · rintro failed ⟨u, shown⟩
    rw [Timestamp.universal?_eq_some.mpr shown] at failed
    exact nomatch failed
  · intro none
    split
    · rfl
    · exact absurd ⟨_, Timestamp.universal?_eq_some.mp ‹_›⟩ none

/-- Two texts of a format are the same if they are of instants between which it does not
distinguish. -/
theorem format_same (made : f.format t = .ok s) (made' : f.format t' = .ok s') :
    s = s' ↔ t.instant / f.step = t'.instant / f.step := by
  have shows {t s} (made : f.format t = .ok s) : ∃ u, t.Universal u := by
    by_contra none
    exact nomatch made.symm.trans (format_overflow.mpr none)
  obtain ⟨u, shown⟩ := shows made
  obtain ⟨u', shown'⟩ := shows made'
  have positive : f.step ≠ 0 := by cases f <;> decide
  rw [← Except.ok.inj ((format_ok f shown).symm.trans made),
    ← Except.ok.inj ((format_ok f shown').symm.trans made'), CivilTime.text_inj,
    ← CivilTime.instant_inj, ← Int.natCast_inj, kept_instant shown, kept_instant shown',
    Int.mul_eq_mul_right_iff positive]

/-- There is a text for the timestamps whose universal time has a year of one to four digits. It
has one of two forms and names the universal time, or the whole second in which that lies, and two
timestamps have the same text if they are of one instant, or of one second. -/
theorem format_denotes (t : Timestamp) :
    (∀ f : TimeFormat,
      f.format t = .error (.overflow "date value out of range") ↔ ¬∃ u, t.Universal u) ∧
    (∀ u, t.Universal u →
      (∃ s, exact.format t = .ok s ∧
        Text.HasForm (if u.micro = 0 then wholeForm else fractionForm) s ∧
        ofText? s = some u ∧ u.instant = t.instant) ∧
      ∃ s v, wholeSeconds.format t = .ok s ∧ Text.HasForm wholeForm s ∧
        ofText? s = some v ∧ v.instant = t.instant / 1000000 * 1000000) ∧
    ∀ t' s s',
      (exact.format t = .ok s → exact.format t' = .ok s' → (s = s' ↔ t.instant = t'.instant)) ∧
      (wholeSeconds.format t = .ok s → wholeSeconds.format t' = .ok s' →
        (s = s' ↔ t.instant / 1000000 = t'.instant / 1000000)) := by
  refine ⟨fun f => format_overflow, fun u shown => ⟨?_, ?_⟩, fun t' s s' => ⟨?_, ?_⟩⟩
  · have same := @kept_instant exact t u shown
    rw [step, Int.ediv_one, Int.mul_one] at same
    exact ⟨_, format_ok exact shown, u.hasForm_text, u.ofText?_text, same⟩
  · exact ⟨_, _, format_ok wholeSeconds shown, u.wholeSecond.hasForm_text,
      u.wholeSecond.ofText?_text, kept_instant (f := wholeSeconds) shown⟩
  · intro made made'
    have same := format_same made made'
    rwa [step, Int.ediv_one, Int.ediv_one] at same
  · exact format_same

def leapEvening : Timestamp := ⟨⟨2000, 2, 29, 23, 30, 0, 500000, by decide⟩, some (-3600)⟩

def marchMorning : CivilTime := ⟨2000, 3, 1, 0, 30, 0, 750000, by decide⟩

theorem leapEvening_denotes : ∃ u, leapEvening.Universal u ∧
    (∃ s, exact.format leapEvening = .ok s ∧ ofText? s = some u) ∧
    leapEvening.instant ≠ (⟨marchMorning, none⟩ : Timestamp).instant ∧
    leapEvening.instant / 1000000 = (⟨marchMorning, none⟩ : Timestamp).instant / 1000000 := by
  have shown : leapEvening.Universal ⟨2000, 3, 1, 0, 30, 0, 500000, by decide⟩ :=
    Timestamp.universal?_eq_some.mp (by decide +kernel)
  have shown' : (⟨marchMorning, none⟩ : Timestamp).Universal marchMorning := .east rfl .now
  obtain ⟨_, named, same⟩ := format_denotes leapEvening
  obtain ⟨⟨s, made, _, read, _⟩, _⟩ := named _ shown
  refine ⟨_, shown, ⟨s, made, read⟩, fun equal => ?_, ?_⟩
  · have texts := ((same _ _ _).1 (format_ok exact shown) (format_ok exact shown')).mpr equal
    exact absurd (CivilTime.text_inj.mp texts) (by decide)
  · exact ((same _ _ _).2 (format_ok wholeSeconds shown) (format_ok wholeSeconds shown')).mp rfl

example : exact.format ⟨⟨1, 1, 1, 0, 0, 59, 0, by decide⟩, some 60⟩ =
    .error (.overflow "date value out of range") := by rfl

end TimeFormat

end LinkedProof
