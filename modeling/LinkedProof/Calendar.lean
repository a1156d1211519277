import LinkedProof.Text.CodePoint

/-! Dates and times of the Gregorian calendar in the years 1 to 9999, extended backwards over the
time before its introduction, and their distance from the first midnight of year 1. -/
namespace LinkedProof

namespace Calendar

-- The zero of a sum is the core library's, whatever else is in scope.
attribute [local instance (high)] Zero.ofOfNat0

def isLeapYear (year : Nat) : Bool := year % 4 = 0 && (year % 100 ≠ 0 || year % 400 = 0)

def monthLengths (year : Nat) : List Nat :=
  [31, if isLeapYear year then 29 else 28, 31, 30, 31, 30, 31, 31, 30, 31, 30, 31]

def monthLength (year month : Nat) : Nat :=
  if month = 0 then 0 else (monthLengths year)[month - 1]?.getD 0

def daysBeforeYear (year : Nat) : Nat :=
  let past := year - 1
  past * 365 + past / 4 - past / 100 + past / 400

def daysBeforeMonth (year month : Nat) : Nat := ((monthLengths year).take (month - 1)).sum

/-- The year of a day and the number of the day in its year, both days counted from zero. Four
centuries repeat, the last century of them is a day longer, its four-year spans but the last have
a leap day, and the last year of such a span has it. -/
def yearOfDay (day : Nat) : Nat × Nat :=
  let inEra := day % 146097
  let century := min (inEra / 36524) 3
  let inCentury := inEra - century * 36524
  let span := inCentury / 1461
  let inSpan := inCentury % 1461
  let year := min (inSpan / 365) 3
  (day / 146097 * 400 + century * 100 + span * 4 + year + 1, inSpan - year * 365)

def monthOfDay : List Nat → Nat → Nat × Nat
  | [], day => (0, day)
  | length :: rest, day =>
    if day < length then (0, day)
    else
      let (months, day) := monthOfDay rest (day - length)
      (months + 1, day)

end Calendar

structure CivilTime where
  year : Nat
  month : Nat
  day : Nat
  hour : Nat
  minute : Nat
  second : Nat
  micro : Nat
  valid : (1 ≤ year ∧ year ≤ 9999) ∧ (1 ≤ day ∧ day ≤ Calendar.monthLength year month)
    ∧ hour < 24 ∧ minute < 60 ∧ second < 60 ∧ micro < 1000000
  deriving DecidableEq

namespace CivilTime

open Calendar

def ofFields? (year month day hour minute second micro : Nat) : Option CivilTime :=
  if valid : (1 ≤ year ∧ year ≤ 9999) ∧ (1 ≤ day ∧ day ≤ monthLength year month)
      ∧ hour < 24 ∧ minute < 60 ∧ second < 60 ∧ micro < 1000000 then
    some ⟨year, month, day, hour, minute, second, micro, valid⟩
  else none

def seconds (t : CivilTime) : Nat :=
  (daysBeforeYear t.year + daysBeforeMonth t.year t.month + (t.day - 1)) * 86400
    + t.hour * 3600 + t.minute * 60 + t.second

def ofSeconds? (seconds micro : Nat) : Option CivilTime :=
  let (year, dayOfYear) := yearOfDay (seconds / 86400)
  let (months, day) := monthOfDay (monthLengths year) dayOfYear
  let clock := seconds % 86400
  ofFields? year (months + 1) (day + 1) (clock / 3600) (clock / 60 % 60) (clock % 60) micro

def text (t : CivilTime) : Text :=
  let two := Text.ofNatPadded 2
  Text.concat [Text.ofNatPadded 4 t.year, "-", two t.month, "-", two t.day, "T", two t.hour, ":",
    two t.minute, ":", two t.second,
    if t.micro = 0 then [] else "." ++ Text.ofNatPadded 6 t.micro]

def wholeSecond (t : CivilTime) : CivilTime := { t with
  micro := 0
  valid := ⟨t.valid.1, t.valid.2.1, t.valid.2.2.1, t.valid.2.2.2.1, t.valid.2.2.2.2.1, by decide⟩ }

end CivilTime

/-- A time with its distance east of universal time in seconds; without one it is universal time. -/
structure Timestamp where
  clock : CivilTime
  offset : Option Int
  deriving DecidableEq

namespace Timestamp

def seconds (t : Timestamp) : Int := t.clock.seconds - t.offset.getD 0

def universal? (t : Timestamp) : Option CivilTime :=
  if t.seconds < 0 then none else CivilTime.ofSeconds? t.seconds.toNat t.clock.micro

end Timestamp

end LinkedProof
