import LinkedProof.Calendar

/-! The calendar counted out. Second by second a time is carried over into the next minute, hour,
day, month and year; the number of a time counts these seconds from the first midnight of year 1,
and a time is found again by its number. -/
namespace LinkedProof

namespace Calendar

-- The zero of a sum is the core library's, whatever else is in scope.
attribute [local instance (high)] Zero.ofOfNat0

def yearLength (year : Nat) : Nat := if isLeapYear year then 366 else 365

theorem isLeapYear_iff {year : Nat} :
    isLeapYear year = true ↔ year % 4 = 0 ∧ (year % 100 ≠ 0 ∨ year % 400 = 0) := by
  simp [isLeapYear]

section Years

variable {year later : Nat}

private theorem days_behind (past : Nat) :
    daysBeforeYear (past + 1) = past * 365 + past / 4 - past / 100 + past / 400 := rfl

/-- Each of the three counts goes up exactly where the rule for leap years asks for it. -/
private theorem length_behind (past : Nat) :
    yearLength (past + 1) + past / 4 + (past + 1) / 100 + past / 400 =
      365 + (past + 1) / 4 + past / 100 + (past + 1) / 400 := by
  rw [yearLength]
  split
  · rename_i leap
    rw [isLeapYear_iff] at leap
    omega
  · rename_i common
    rw [isLeapYear_iff] at common
    omega

theorem daysBeforeYear_succ (positive : 0 < year) :
    daysBeforeYear (year + 1) = daysBeforeYear year + yearLength year := by
  obtain ⟨past, rfl⟩ : ∃ past, year = past + 1 := ⟨year - 1, by omega⟩
  have length := length_behind past
  generalize yearLength (past + 1) = l at length ⊢
  rw [days_behind, days_behind]
  omega

/-- A later year begins behind the last day of an earlier one. -/
theorem daysBeforeYear_lt (positive : 0 < year) (order : year < later) :
    daysBeforeYear year + yearLength year ≤ daysBeforeYear later := by
  induction later with
  | zero => omega
  | succ later ih =>
    rcases Nat.lt_succ_iff_lt_or_eq.mp order with before | rfl
    · have := ih before
      rw [daysBeforeYear_succ (by omega)]
      omega
    · exact Nat.le_of_eq (daysBeforeYear_succ positive).symm

/-- The year of a day begins with it or before it, and has not ended. -/
theorem yearOfDay_spec (day : Nat) : 0 < (yearOfDay day).1 ∧
    daysBeforeYear (yearOfDay day).1 + (yearOfDay day).2 = day ∧
      (yearOfDay day).2 < yearLength (yearOfDay day).1 := by
  obtain ⟨era, inEra, eras, days⟩ : ∃ era inEra, day = era * 146097 + inEra ∧ inEra < 146097 :=
    ⟨day / 146097, day % 146097, by omega, by omega⟩
  obtain ⟨c, inCentury, centuries, century⟩ : ∃ c inCentury, inEra = c * 36524 + inCentury ∧
      c = min (inEra / 36524) 3 := ⟨_, inEra - min (inEra / 36524) 3 * 36524, by omega, rfl⟩
  obtain ⟨s, inSpan, spans, span⟩ : ∃ s inSpan, inCentury = s * 1461 + inSpan ∧ inSpan < 1461 :=
    ⟨inCentury / 1461, inCentury % 1461, by omega, by omega⟩
  obtain ⟨y, rest, years, year⟩ : ∃ y rest, inSpan = y * 365 + rest ∧ y = min (inSpan / 365) 3 :=
    ⟨_, inSpan - min (inSpan / 365) 3 * 365, by omega, rfl⟩
  have found : yearOfDay day = (era * 400 + c * 100 + s * 4 + y + 1, rest) := by
    rw [yearOfDay, show day % 146097 = inEra by omega, show day / 146097 = era by omega]
    rw [← century, show inEra - c * 36524 = inCentury by omega,
      show inCentury % 1461 = inSpan by omega, show inCentury / 1461 = s by omega, ← year,
      show inSpan - y * 365 = rest by omega]
  have fourths : (era * 400 + c * 100 + s * 4 + y) / 4 = era * 100 + c * 25 + s := by omega
  have hundredths : (era * 400 + c * 100 + s * 4 + y) / 100 = era * 4 + c := by omega
  have cycles : (era * 400 + c * 100 + s * 4 + y) / 400 = era := by omega
  rw [found]
  dsimp only
  rw [days_behind, fourths, hundredths, cycles, yearLength]
  refine ⟨Nat.succ_pos _, by omega, ?_⟩
  split
  · omega
  · rename_i common
    rw [isLeapYear_iff] at common
    omega

/-- A day has one place in the years. -/
theorem yearOfDay_eq {day : Nat} (positive : 0 < year) (inside : day < yearLength year) :
    yearOfDay (daysBeforeYear year + day) = (year, day) := by
  obtain ⟨positive', found, inside'⟩ := yearOfDay_spec (daysBeforeYear year + day)
  generalize yearOfDay (daysBeforeYear year + day) = place at positive' found inside'
  obtain ⟨other, rest⟩ := place
  dsimp only at positive' found inside'
  rcases Nat.lt_trichotomy year other with before | rfl | behind
  · have := daysBeforeYear_lt positive before
    omega
  · rw [show rest = day by omega]
  · have := daysBeforeYear_lt positive' behind
    omega

end Years

section Months

variable {lengths : List Nat} {k day length year month : Nat}

theorem monthOfDay_spec (inside : day < lengths.sum) :
    ((lengths.take (monthOfDay lengths day).1).sum + (monthOfDay lengths day).2 = day) ∧
      ∃ length, lengths[(monthOfDay lengths day).1]? = some length ∧
        (monthOfDay lengths day).2 < length := by
  induction lengths generalizing day with
  | nil => simp at inside
  | cons first rest ih =>
    rw [monthOfDay]
    split
    · rename_i early
      exact ⟨by simp, first, rfl, early⟩
    · rename_i late
      rw [List.sum_cons] at inside
      obtain ⟨total, length, found, early⟩ := @ih (day - first) (by omega)
      refine ⟨?_, length, found, early⟩
      simp only [List.take_succ_cons, List.sum_cons]
      omega

/-- A day of a year has one place in the months. -/
theorem monthOfDay_eq (found : lengths[k]? = some length) (inside : day < length) :
    monthOfDay lengths ((lengths.take k).sum + day) = (k, day) := by
  induction lengths generalizing k with
  | nil => cases found
  | cons first rest ih =>
    cases k with
    | zero =>
      obtain rfl : first = length := Option.some.inj found
      simp [monthOfDay, inside]
    | succ k =>
      have late : ¬first + (rest.take k).sum + day < first := by omega
      have rest' : first + (rest.take k).sum + day - first = (rest.take k).sum + day := by omega
      rw [List.take_succ_cons, List.sum_cons, monthOfDay, if_neg late, rest',
        ih (by simpa using found)]

private theorem sum_take_le (lengths : List Nat) (k : Nat) :
    (lengths.take k).sum ≤ lengths.sum := by
  conv => rhs; rw [← List.take_append_drop k lengths, List.sum_append]
  exact Nat.le_add_right _ _

theorem sum_monthLengths (year : Nat) : (monthLengths year).sum = yearLength year := by
  unfold monthLengths yearLength
  cases isLeapYear year <;> rfl

/-- A month with days is one of the twelve, and its length stands in the list. -/
theorem monthLength_pos (day : 1 ≤ monthLength year month) : 1 ≤ month ∧ month ≤ 12 ∧
    (monthLengths year)[month - 1]? = some (monthLength year month) := by
  rw [monthLength] at day ⊢
  split at day
  · omega
  · rename_i named
    rw [if_neg named]
    cases found : (monthLengths year)[month - 1]? with
    | none =>
      rw [found] at day
      cases day
    | some length =>
      have bound : month - 1 < 12 := (List.getElem?_eq_some_iff.mp found).1
      exact ⟨by omega, by omega, rfl⟩

theorem monthLength_le (day : 1 ≤ monthLength year month) : monthLength year month ≤ 31 := by
  have each : ∀ (leap : Bool), ∀ length ∈
      [31, if leap then 29 else 28, 31, 30, 31, 30, 31, 31, 30, 31, 30, 31], length ≤ 31 := by
    decide
  obtain ⟨_, _, found⟩ := monthLength_pos day
  exact each (isLeapYear year) _ (List.mem_of_getElem? found)

theorem monthLength_named (early : 1 ≤ month) (late : month ≤ 12) :
    1 ≤ monthLength year month := by
  have each : ∀ (leap : Bool), ∀ k < 12, 1 ≤
      ([31, if leap then 29 else 28, 31, 30, 31, 30, 31, 31, 30, 31, 30, 31][k]?).getD 0 := by
    decide
  rw [monthLength, if_neg (by omega)]
  exact each (isLeapYear year) (month - 1) (by omega)

theorem daysBeforeMonth_succ (day : 1 ≤ monthLength year month) :
    daysBeforeMonth year (month + 1) = daysBeforeMonth year month + monthLength year month := by
  obtain ⟨positive, _, found⟩ := monthLength_pos day
  obtain ⟨k, rfl⟩ : ∃ k, month = k + 1 := ⟨month - 1, by omega⟩
  simp only [daysBeforeMonth, Nat.add_sub_cancel, List.take_add_one] at found ⊢
  rw [found]
  simp

/-- The days of a month lie in its year. -/
theorem daysBeforeMonth_le (day : 1 ≤ monthLength year month) :
    daysBeforeMonth year month + monthLength year month ≤ yearLength year := by
  rw [← daysBeforeMonth_succ day, ← sum_monthLengths, daysBeforeMonth]
  exact sum_take_le _ _

theorem daysBeforeMonth_december (year : Nat) :
    daysBeforeMonth year 12 + 31 = yearLength year := by
  unfold daysBeforeMonth monthLengths yearLength
  cases isLeapYear year <;> rfl

end Months

end Calendar

namespace CivilTime

open Calendar

variable {a b c t : CivilTime} {n micro : Nat}

def fields (t : CivilTime) : Nat × Nat × Nat × Nat × Nat × Nat × Nat :=
  (t.year, t.month, t.day, t.hour, t.minute, t.second, t.micro)

theorem fields_eq {year month day hour minute second : Nat} :
    t.fields = (year, month, day, hour, minute, second, micro) ↔ t.year = year ∧ t.month = month ∧
      t.day = day ∧ t.hour = hour ∧ t.minute = minute ∧ t.second = second ∧ t.micro = micro := by
  simp only [fields, Prod.mk.injEq]

inductive Follows (a b : CivilTime) : Prop
  | second (shows : b.fields = (a.year, a.month, a.day, a.hour, a.minute, a.second + 1, a.micro))
  | minute (full : a.second = 59)
    (shows : b.fields = (a.year, a.month, a.day, a.hour, a.minute + 1, 0, a.micro))
  | hour (full : a.minute = 59 ∧ a.second = 59)
    (shows : b.fields = (a.year, a.month, a.day, a.hour + 1, 0, 0, a.micro))
  | day (full : a.hour = 23 ∧ a.minute = 59 ∧ a.second = 59)
    (shows : b.fields = (a.year, a.month, a.day + 1, 0, 0, 0, a.micro))
  | month (full : a.day = monthLength a.year a.month ∧ a.hour = 23 ∧ a.minute = 59 ∧ a.second = 59)
    (shows : b.fields = (a.year, a.month + 1, 1, 0, 0, 0, a.micro))
  | year (full : a.month = 12 ∧ a.day = 31 ∧ a.hour = 23 ∧ a.minute = 59 ∧ a.second = 59)
    (shows : b.fields = (a.year + 1, 1, 1, 0, 0, 0, a.micro))

theorem Follows.counted (follows : Follows a b) :
    b.seconds = a.seconds + 1 ∧ b.micro = a.micro := by
  obtain ⟨⟨positive, _⟩, ⟨first, last⟩, hours, minutes, _⟩ := a.valid
  have january (year : Nat) : daysBeforeMonth year 1 = 0 := rfl
  cases follows with
  | second shows =>
    obtain ⟨year, month, day, hour, minute, second, micro⟩ := fields_eq.mp shows
    refine ⟨?_, micro⟩
    rw [seconds, seconds, year, month, day, hour, minute, second]
    omega
  | minute full shows =>
    obtain ⟨year, month, day, hour, minute, second, micro⟩ := fields_eq.mp shows
    refine ⟨?_, micro⟩
    rw [seconds, seconds, year, month, day, hour, minute, second, full]
    omega
  | hour full shows =>
    obtain ⟨year, month, day, hour, minute, second, micro⟩ := fields_eq.mp shows
    refine ⟨?_, micro⟩
    rw [seconds, seconds, year, month, day, hour, minute, second, full.1, full.2]
    omega
  | day full shows =>
    obtain ⟨year, month, day, hour, minute, second, micro⟩ := fields_eq.mp shows
    refine ⟨?_, micro⟩
    rw [seconds, seconds, year, month, day, hour, minute, second, full.1, full.2.1, full.2.2]
    omega
  | month full shows =>
    obtain ⟨year, month, day, hour, minute, second, micro⟩ := fields_eq.mp shows
    refine ⟨?_, micro⟩
    have carried := daysBeforeMonth_succ (show 1 ≤ monthLength a.year a.month by omega)
    rw [seconds, seconds, year, month, day, hour, minute, second, full.2.1, full.2.2.1, full.2.2.2,
      carried]
    omega
  | year full shows =>
    obtain ⟨year, month, day, hour, minute, second, micro⟩ := fields_eq.mp shows
    refine ⟨?_, micro⟩
    have december := daysBeforeMonth_december a.year
    rw [seconds, seconds, year, month, day, hour, minute, second, full.1, full.2.1, full.2.2.1,
      full.2.2.2.1, full.2.2.2.2, january, daysBeforeYear_succ positive]
    omega

/-- Every time but the last second of the calendar is followed by another one. -/
theorem exists_follows (t : CivilTime) :
    (∃ b, Follows t b) ∨ t.fields = (9999, 12, 31, 23, 59, 59, t.micro) := by
  obtain ⟨⟨early, late⟩, ⟨first, last⟩, hours, minutes, seconds, micros⟩ := t.valid
  by_cases second : t.second < 59
  · exact .inl ⟨⟨t.year, t.month, t.day, t.hour, t.minute, t.second + 1, t.micro,
      ⟨early, late⟩, ⟨first, last⟩, hours, minutes, by omega, micros⟩, .second rfl⟩
  obtain second : t.second = 59 := by omega
  by_cases minute : t.minute < 59
  · exact .inl ⟨⟨t.year, t.month, t.day, t.hour, t.minute + 1, 0, t.micro,
      ⟨early, late⟩, ⟨first, last⟩, hours, by omega, by decide, micros⟩, .minute second rfl⟩
  obtain minute : t.minute = 59 := by omega
  by_cases hour : t.hour < 23
  · exact .inl ⟨⟨t.year, t.month, t.day, t.hour + 1, 0, 0, t.micro,
      ⟨early, late⟩, ⟨first, last⟩, by omega, by decide, by decide, micros⟩,
      .hour ⟨minute, second⟩ rfl⟩
  obtain hour : t.hour = 23 := by omega
  by_cases day : t.day < monthLength t.year t.month
  · exact .inl ⟨⟨t.year, t.month, t.day + 1, 0, 0, 0, t.micro,
      ⟨early, late⟩, ⟨by omega, day⟩, by decide, by decide, by decide, micros⟩,
      .day ⟨hour, minute, second⟩ rfl⟩
  obtain day : t.day = monthLength t.year t.month := by omega
  obtain ⟨_, twelve, _⟩ := monthLength_pos (Nat.le_trans first last)
  by_cases month : t.month < 12
  · exact .inl ⟨⟨t.year, t.month + 1, 1, 0, 0, 0, t.micro,
      ⟨early, late⟩, ⟨Nat.le_refl 1, monthLength_named (by omega) (by omega)⟩, by decide, by decide,
      by decide, micros⟩, .month ⟨day, hour, minute, second⟩ rfl⟩
  obtain month : t.month = 12 := by omega
  obtain day : t.day = 31 := by rw [day, month]; rfl
  by_cases year : t.year < 9999
  · exact .inl ⟨⟨t.year + 1, 1, 1, 0, 0, 0, t.micro, ⟨by omega, year⟩,
      ⟨Nat.le_refl 1, monthLength_named (by decide) (by decide)⟩, by decide, by decide, by decide,
      micros⟩, .year ⟨month, day, hour, minute, second⟩ rfl⟩
  · refine .inr (fields_eq.mpr ⟨by omega, month, day, hour, minute, second, rfl⟩)

/-- The day of a time in its year. -/
private theorem day_lt (t : CivilTime) :
    daysBeforeMonth t.year t.month + (t.day - 1) < yearLength t.year := by
  obtain ⟨_, ⟨first, last⟩, _⟩ := t.valid
  have := daysBeforeMonth_le (Nat.le_trans first last)
  omega

def calendarSeconds : Nat := 315537897600

theorem seconds_lt (t : CivilTime) : t.seconds < calendarSeconds := by
  obtain ⟨⟨early, late⟩, _, hours, minutes, seconds, _⟩ := t.valid
  have day := day_lt t
  have years := daysBeforeYear_lt (show 0 < t.year by omega) (show t.year < 10000 by omega)
  have ends : daysBeforeYear 10000 = 3652059 := rfl
  rw [CivilTime.seconds, calendarSeconds]
  omega

theorem seconds_last (last : t.fields = (9999, 12, 31, 23, 59, 59, micro)) :
    t.seconds + 1 = calendarSeconds := by
  obtain ⟨year, month, day, hour, minute, second, _⟩ := fields_eq.mp last
  rw [seconds, year, month, day, hour, minute, second]
  rfl

theorem ofFields?_eq_some {year month day hour minute second : Nat} :
    ofFields? year month day hour minute second micro = some t ↔
      t.fields = (year, month, day, hour, minute, second, micro) := by
  rw [ofFields?]
  constructor
  · intro made
    split at made
    · obtain rfl := Option.some.inj made
      rfl
    · cases made
  · rintro ⟨⟩
    rw [dif_pos t.valid]

private theorem ofSeconds?_counted (found : ofSeconds? n micro = some t) :
    t.seconds = n ∧ t.micro = micro := by
  rw [ofSeconds?] at found
  obtain ⟨_, years, inYear⟩ := yearOfDay_spec (n / 86400)
  generalize yearOfDay (n / 86400) = place at found years inYear
  obtain ⟨year, dayOfYear⟩ := place
  rw [← sum_monthLengths] at inYear
  obtain ⟨months, _⟩ := monthOfDay_spec inYear
  dsimp only at found years months
  generalize monthOfDay (monthLengths year) dayOfYear = place at found months
  obtain ⟨k, rest⟩ := place
  obtain ⟨named, month, day, hour, minute, second, micro⟩ :=
    fields_eq.mp (ofFields?_eq_some.mp found)
  refine ⟨?_, micro⟩
  rw [seconds, named, month, day, hour, minute, second, daysBeforeMonth, Nat.add_sub_cancel,
    Nat.add_sub_cancel]
  dsimp only at months ⊢
  omega

private theorem ofSeconds?_seconds (t : CivilTime) : ofSeconds? t.seconds t.micro = some t := by
  obtain ⟨⟨early, _⟩, ⟨first, last⟩, hours, minutes, seconds, _⟩ := t.valid
  obtain ⟨named, _, month⟩ := monthLength_pos (Nat.le_trans first last)
  have day : t.seconds / 86400 =
      daysBeforeYear t.year + (daysBeforeMonth t.year t.month + (t.day - 1)) := by
    rw [CivilTime.seconds]
    omega
  have clock : t.seconds % 86400 = t.hour * 3600 + t.minute * 60 + t.second := by
    rw [CivilTime.seconds]
    omega
  rw [ofSeconds?, day, yearOfDay_eq (by omega) (day_lt t), daysBeforeMonth]
  dsimp only
  rw [monthOfDay_eq month (by omega), clock]
  refine ofFields?_eq_some.mpr (fields_eq.mpr ⟨rfl, ?_, ?_, ?_, ?_, ?_, rfl⟩) <;> omega

/-- A time is found by its number and its microseconds. -/
theorem ofSeconds?_eq_some :
    ofSeconds? n micro = some t ↔ t.seconds = n ∧ t.micro = micro := by
  refine ⟨ofSeconds?_counted, ?_⟩
  rintro ⟨rfl, rfl⟩
  exact ofSeconds?_seconds t

/-- Two times with one number are the same. -/
theorem eq_of_seconds (seconds : a.seconds = b.seconds) (micro : a.micro = b.micro) : a = b :=
  Option.some.inj ((ofSeconds?_eq_some.mpr ⟨seconds, micro⟩).symm.trans
    (ofSeconds?_eq_some.mpr ⟨rfl, rfl⟩))

inductive Later (a : CivilTime) : Nat → CivilTime → Prop
  | now : Later a 0 a
  | tick {n : Nat} {b c : CivilTime} (later : Later a n b) (follows : Follows b c) :
    Later a (n + 1) c

theorem Later.counted (later : Later a n b) : b.seconds = a.seconds + n ∧ b.micro = a.micro := by
  induction later with
  | now => exact ⟨(Nat.add_zero _).symm, rfl⟩
  | tick _ follows ih =>
    obtain ⟨seconds, micro⟩ := follows.counted
    exact ⟨by omega, micro.trans ih.2⟩

/-- The calendar goes on as long as there is a time with a larger number. -/
private theorem exists_later (room : a.seconds + n < calendarSeconds) : ∃ b, Later a n b := by
  induction n with
  | zero => exact ⟨a, .now⟩
  | succ n ih =>
    obtain ⟨b, later⟩ := ih (by omega)
    rcases exists_follows b with ⟨c, follows⟩ | last
    · exact ⟨c, .tick later follows⟩
    · have counted := later.counted.1
      have full := seconds_last last
      omega

/-- Numbers of times differ by the seconds in between. -/
theorem later_iff : Later a n b ↔ b.seconds = a.seconds + n ∧ b.micro = a.micro := by
  refine ⟨Later.counted, fun ⟨seconds, micro⟩ => ?_⟩
  obtain ⟨c, later⟩ := @exists_later a n (seconds ▸ seconds_lt b)
  obtain ⟨seconds', micro'⟩ := later.counted
  rwa [eq_of_seconds (seconds'.trans seconds.symm) (micro'.trans micro.symm)] at later

end CivilTime

namespace Timestamp

variable {t : Timestamp} {u : CivilTime}

/-- The time that a clock of universal time shows: it is behind clocks in the east by their
distance, and before those in the west. -/
inductive Universal (t : Timestamp) (u : CivilTime) : Prop
  | east {n : Nat} (offset : t.offset.getD 0 = n) (later : u.Later n t.clock)
  | west {n : Nat} (offset : t.offset.getD 0 = -n) (later : t.clock.Later n u)

theorem universal_iff :
    t.Universal u ↔ (u.seconds : Int) = t.seconds ∧ u.micro = t.clock.micro := by
  rw [seconds]
  constructor
  · rintro (⟨offset, later⟩ | ⟨offset, later⟩)
    · obtain ⟨seconds, micro⟩ := later.counted
      exact ⟨by omega, micro.symm⟩
    · obtain ⟨seconds, micro⟩ := later.counted
      exact ⟨by omega, micro⟩
  · rintro ⟨seconds, micro⟩
    rcases Int.eq_nat_or_neg (t.offset.getD 0) with ⟨n, offset | offset⟩
    · exact .east offset (CivilTime.later_iff.mpr ⟨by omega, micro.symm⟩)
    · exact .west offset (CivilTime.later_iff.mpr ⟨by omega, micro⟩)

theorem universal?_eq_some : t.universal? = some u ↔ t.Universal u := by
  rw [universal_iff, universal?]
  split
  · exact iff_of_false nofun (by omega)
  · rw [CivilTime.ofSeconds?_eq_some]
    omega

end Timestamp

end LinkedProof
