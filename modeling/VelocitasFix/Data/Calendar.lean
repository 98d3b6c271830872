import Mathlib.Tactic.IntervalCases

/-!
This module contains the proleptic Gregorian calendar: valid dates, the number of a day by counting
years and months from the first of January of the year 0, and the closed form of this number in years
that start in March. The number grows with the date.
-/

namespace Calendar

def IsLeap (year : Nat) : Prop := year % 4 = 0 ∧ (year % 100 ≠ 0 ∨ year % 400 = 0)

instance : DecidablePred IsLeap := fun _ => inferInstanceAs (Decidable (_ ∧ _))

def daysInYear (year : Nat) : Nat := if IsLeap year then 366 else 365

def daysInMonth (year : Nat) : Nat → Nat
  | 2 => if IsLeap year then 29 else 28
  | 4 => 30
  | 6 => 30
  | 9 => 30
  | 11 => 30
  | _ => 31

-- The days before the first of January.
def daysBeforeYear : Nat → Nat
  | 0 => 0
  | year + 1 => daysBeforeYear year + daysInYear year

-- The days of the year before the first of the month; January is month 1.
def daysBeforeMonth (year : Nat) : Nat → Nat
  | 0 => 0
  | 1 => 0
  | month + 2 => daysBeforeMonth year (month + 1) + daysInMonth year (month + 1)

@[ext]
structure Date where
  year : Nat
  month : Nat
  day : Nat
  month_pos : 1 ≤ month
  month_le : month ≤ 12
  day_pos : 1 ≤ day
  day_le : day ≤ daysInMonth year month

def dayNumber (year month day : Nat) : Nat :=
  daysBeforeYear year + daysBeforeMonth year month + (day - 1)

def Date.number (date : Date) : Nat := dayNumber date.year date.month date.day

-- Every fourth year is a leap year, every hundredth is not, and every four hundredth is.
theorem leap_eq (year : Nat)
    : (if IsLeap year then 1 else 0) + (if year % 100 = 0 then 1 else 0)
        = (if year % 4 = 0 then 1 else 0) + (if year % 400 = 0 then 1 else 0) := by
  by_cases h4 : year % 4 = 0
  . by_cases h100 : year % 100 = 0
    . by_cases h400 : year % 400 = 0
      all_goals simp [IsLeap, h4, h100, h400]
    . have h400 : year % 400 ≠ 0 := by omega
      simp [IsLeap, h4, h100, h400]
  . have h100 : year % 100 ≠ 0 := by omega
    have h400 : year % 400 ≠ 0 := by omega
    simp [IsLeap, h4, h100, h400]

theorem daysInYear_eq (year : Nat) : daysInYear year = 365 + if IsLeap year then 1 else 0 := by
  unfold daysInYear
  split
  all_goals rfl

theorem daysBeforeYear_eq (year : Nat)
    : daysBeforeYear year + year / 100 + (if IsLeap year then 1 else 0)
        = 365 * year + year / 4 + year / 400 + 1 := by
  induction year with
  | zero => rfl
  | succ year ih =>
    have hleap := leap_eq (year + 1)
    rw [daysBeforeYear, daysInYear_eq, Nat.succ_div, Nat.succ_div, Nat.succ_div]
    simp only [Nat.dvd_iff_mod_eq_zero]
    omega

-- From March on, the months before a month have the same days in every year.
theorem daysBeforeMonth_march (year : Nat) {mp : Nat} (h : mp ≤ 9)
    : daysBeforeMonth year (mp + 3)
        = (if IsLeap year then 60 else 59) + (153 * mp + 2) / 5 := by
  interval_cases mp
  all_goals
    simp only [daysBeforeMonth, daysInMonth]
    split
    all_goals rfl

theorem dayNumber_march (year day : Nat) {mp : Nat} (h : mp ≤ 9)
    : dayNumber year (mp + 3) day + year / 100
        = 365 * year + year / 4 + year / 400 + 60 + (153 * mp + 2) / 5 + (day - 1) := by
  have hyear := daysBeforeYear_eq year
  have hmarch : (if IsLeap year then 60 else 59) = 59 + if IsLeap year then 1 else 0 := by
    split
    all_goals rfl
  rw [dayNumber, daysBeforeMonth_march year h, hmarch]
  omega

theorem daysBeforeMonth_january (year : Nat) {mp : Nat} (h : 10 ≤ mp) (hle : mp ≤ 11)
    : daysBeforeMonth year (mp - 9) + 306 = (153 * mp + 2) / 5 := by
  interval_cases mp
  all_goals rfl

-- January and February belong to the year that started in March.
theorem dayNumber_january (year day : Nat) {mp : Nat} (h : 10 ≤ mp) (hle : mp ≤ 11)
    : dayNumber (year + 1) (mp - 9) day + year / 100
        = 365 * year + year / 4 + year / 400 + 60 + (153 * mp + 2) / 5 + (day - 1) := by
  have hyear := daysBeforeYear_eq year
  have hmonth := daysBeforeMonth_january (year + 1) h hle
  rw [dayNumber, daysBeforeYear, daysInYear_eq]
  omega

theorem daysInMonth_le (year month : Nat) : daysInMonth year month ≤ 31 := by
  unfold daysInMonth
  split
  . split
    all_goals omega
  all_goals omega

theorem daysBeforeYear_le {year year' : Nat} (h : year ≤ year')
    : daysBeforeYear year ≤ daysBeforeYear year' := by
  induction h with
  | refl => apply Nat.le_refl
  | step _ ih =>
    apply Nat.le_trans ih
    apply Nat.le_add_right

theorem daysBeforeMonth_le (year : Nat) {month month' : Nat} (h : month ≤ month')
    : daysBeforeMonth year month ≤ daysBeforeMonth year month' := by
  induction h with
  | refl => apply Nat.le_refl
  | @step month' _ ih =>
    apply Nat.le_trans ih
    cases month' with
    | zero => apply Nat.le_refl
    | succ month' => apply Nat.le_add_right

theorem daysBeforeMonth_succ (year : Nat) {month : Nat} (h : 1 ≤ month)
    : daysBeforeMonth year (month + 1) = daysBeforeMonth year month + daysInMonth year month := by
  cases month with
  | zero => omega
  | succ month => rfl

theorem daysBeforeMonth_december (year : Nat) : daysBeforeMonth year 13 = daysInYear year := by
  simp only [daysBeforeMonth, daysInMonth, daysInYear]
  split
  all_goals rfl

namespace Date

def Before (date date' : Date) : Prop :=
  date.year < date'.year
    ∨ (date.year = date'.year
      ∧ (date.month < date'.month ∨ (date.month = date'.month ∧ date.day < date'.day)))

theorem number_lt_month (date : Date)
    : date.number < daysBeforeYear date.year + daysBeforeMonth date.year (date.month + 1) := by
  have := date.day_pos
  have := date.day_le
  rw [daysBeforeMonth_succ date.year date.month_pos, number, dayNumber]
  omega

theorem number_lt_year (date : Date) : date.number < daysBeforeYear (date.year + 1) := by
  have hlt := date.number_lt_month
  have hmonth := date.month_le
  have hle := @daysBeforeMonth_le date.year (date.month + 1) 13 (by omega)
  rw [daysBeforeMonth_december] at hle
  rw [daysBeforeYear]
  omega

theorem number_lt_of_before {date date' : Date} (h : date.Before date')
    : date.number < date'.number := by
  have hle : daysBeforeYear date'.year + daysBeforeMonth date'.year date'.month ≤ date'.number :=
    Nat.le_add_right _ _
  rcases h with hyear | ⟨hyear, hmonth | ⟨hmonth, hday⟩⟩
  . have := date.number_lt_year
    have := @daysBeforeYear_le (date.year + 1) _ hyear
    omega
  . have hlt := date.number_lt_month
    have := @daysBeforeMonth_le date.year (date.month + 1) _ hmonth
    rw [hyear] at hlt this
    omega
  . have := date.day_pos
    rw [number, number, dayNumber, dayNumber, hyear, hmonth]
    omega

theorem before_of_number_lt {date date' : Date} (h : date.number < date'.number)
    : date.Before date' := by
  by_contra hbefore
  have hother : date'.Before date ∨ date' = date := by
    rw [Date.ext_iff]
    unfold Before at hbefore ⊢
    omega
  rcases hother with hother | rfl
  . have := number_lt_of_before hother
    omega
  . omega

theorem eq_of_number_eq {date date' : Date} (h : date.number = date'.number) : date = date' := by
  by_contra hne
  have hbefore : date.Before date' ∨ date'.Before date := by
    rw [Date.ext_iff] at hne
    unfold Before
    omega
  rcases hbefore with hbefore | hbefore
  . have := number_lt_of_before hbefore
    omega
  . have := number_lt_of_before hbefore
    omega

end Date

-- A time of a day, without leap seconds.
structure Instant where
  date : Date
  hour : Nat
  minute : Nat
  second : Nat
  nanos : Nat
  hour_lt : hour < 24
  minute_lt : minute < 60
  second_lt : second < 60
  nanos_lt : nanos < 1000000000

-- In nanoseconds since the start of the year 0.
def Instant.count (i : Instant) : Nat :=
  (((i.date.number * 24 + i.hour) * 60 + i.minute) * 60 + i.second) * 1000000000 + i.nanos

def Instant.epoch : Instant where
  date := ⟨1970, 1, 1, by decide, by decide, by decide, by decide⟩
  hour := 0
  minute := 0
  second := 0
  nanos := 0
  hour_lt := by decide
  minute_lt := by decide
  second_lt := by decide
  nanos_lt := by decide

theorem Instant.number_epoch : Instant.epoch.date.number = 719528 := by decide +kernel

-- A leap day of a century.
example : dayNumber 2000 2 29 + 1 = dayNumber 2000 3 1 := by decide +kernel

end Calendar
