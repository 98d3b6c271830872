import VelocitasFix.Data.Calendar

/-!
This module contains the proleptic Gregorian calendar for all years, those before the year 0 included:
the number of a day by counting years in both directions, the date that comes next, and the period of
four hundred years that carries the results for later years over to the earlier ones.
-/

namespace Proleptic

def IsLeap (year : Int) : Prop := year % 4 = 0 ∧ (year % 100 ≠ 0 ∨ year % 400 = 0)

instance : DecidablePred IsLeap := fun _ => inferInstanceAs (Decidable (_ ∧ _))

def daysInYear (year : Int) : Nat := if IsLeap year then 366 else 365

def monthLength (february : Nat) : Nat → Nat
  | 2 => february
  | 4 => 30
  | 6 => 30
  | 9 => 30
  | 11 => 30
  | _ => 31

def daysInMonth (year : Int) (month : Nat) : Nat :=
  monthLength (if IsLeap year then 29 else 28) month

-- The days from the first of January of the year 0 on, and back to the one of an earlier year.
def daysBeforeYear : Int → Int
  | .ofNat year => Calendar.daysBeforeYear year
  | .negSucc years => -(daysBack years)
where
  daysBack : Nat → Nat
    | 0 => daysInYear (-1)
    | years + 1 => daysBack years + daysInYear (.negSucc (years + 1))

def daysBeforeMonth (year : Int) : Nat → Nat
  | 0 => 0
  | 1 => 0
  | month + 2 => daysBeforeMonth year (month + 1) + daysInMonth year (month + 1)

@[ext]
structure Date where
  year : Int
  month : Nat
  day : Nat
  month_pos : 1 ≤ month
  month_le : month ≤ 12
  day_pos : 1 ≤ day
  day_le : day ≤ daysInMonth year month

def Date.number (date : Date) : Int :=
  daysBeforeYear date.year + daysBeforeMonth date.year date.month + (date.day - 1)

theorem daysInMonth_pos (year : Int) (month : Nat) : 1 ≤ daysInMonth year month := by
  unfold daysInMonth monthLength
  split
  . split
    all_goals omega
  all_goals omega

-- The first month of a year and the first day of a month.
theorem one_le_first : 1 ≤ 1 := Nat.le_refl 1

def Date.next (date : Date) : Date :=
  if hday : date.day < daysInMonth date.year date.month then
    { date with
      day := date.day + 1
      day_pos := by omega
      day_le := hday }
  else if hmonth : date.month < 12 then
    { date with
      month := date.month + 1
      day := 1
      month_pos := by omega
      month_le := hmonth
      day_pos := one_le_first
      day_le := daysInMonth_pos _ _ }
  else
    { year := date.year + 1
      month := 1
      day := 1
      month_pos := one_le_first
      month_le := by omega
      day_pos := one_le_first
      day_le := daysInMonth_pos _ _ }

section Cast

theorem isLeap_natCast (year : Nat) : IsLeap year ↔ Calendar.IsLeap year := by
  unfold IsLeap Calendar.IsLeap
  omega

theorem daysInYear_natCast (year : Nat) : daysInYear year = Calendar.daysInYear year := by
  simp only [daysInYear, Calendar.daysInYear, isLeap_natCast]

theorem daysInMonth_natCast (year month : Nat)
    : daysInMonth year month = Calendar.daysInMonth year month := by
  have hlength : Calendar.daysInMonth year month
      = monthLength (if Calendar.IsLeap year then 29 else 28) month := rfl
  simp only [hlength, daysInMonth, isLeap_natCast]

theorem daysBeforeMonth_natCast (year month : Nat)
    : daysBeforeMonth year month = Calendar.daysBeforeMonth year month := by
  induction month with
  | zero => rfl
  | succ month ih =>
    cases month with
    | zero => rfl
    | succ month => rw [daysBeforeMonth, ih, daysInMonth_natCast, Calendar.daysBeforeMonth]

end Cast

-- The dates from the year 0 on.
def Date.ofCalendar (date : Calendar.Date) : Date where
  year := date.year
  month := date.month
  day := date.day
  month_pos := date.month_pos
  month_le := date.month_le
  day_pos := date.day_pos
  day_le := by
    rw [daysInMonth_natCast]
    exact date.day_le

def Date.epoch : Date := .ofCalendar Calendar.Instant.epoch.date

def Date.daysSinceEpoch (date : Date) : Int := date.number - epoch.number

theorem daysBeforeYear_succ (year : Int)
    : daysBeforeYear (year + 1) = daysBeforeYear year + daysInYear year := by
  cases year with
  | ofNat year =>
    have hyear := daysInYear_natCast year
    change ((Calendar.daysBeforeYear (year + 1) : Nat) : Int)
      = (Calendar.daysBeforeYear year : Nat) + (daysInYear (year : Int) : Nat)
    rw [hyear, Calendar.daysBeforeYear]
    omega
  | negSucc years =>
    cases years with
    | zero => rfl
    | succ years =>
      have hnext : Int.negSucc (years + 1) + 1 = Int.negSucc years := by omega
      rw [hnext, daysBeforeYear, daysBeforeYear, daysBeforeYear.daysBack]
      omega

-- In closed form, with divisions that round down: the leap years before the year are counted.
theorem daysBeforeYear_eq (year : Int)
    : daysBeforeYear year
        = 365 * year + (year + 3) / 4 - (year + 99) / 100 + (year + 399) / 400 := by
  have hstep (year : Int)
      : (daysInYear year : Int)
        = 365 + ((year + 4) / 4 - (year + 3) / 4) - ((year + 100) / 100 - (year + 99) / 100)
          + ((year + 400) / 400 - (year + 399) / 400) := by
    unfold daysInYear
    split
    . next hleap =>
      unfold IsLeap at hleap
      omega
    . next hleap =>
      unfold IsLeap at hleap
      omega
  induction year using Int.induction_on with
  | zero => rfl
  | succ year ih =>
    rw [daysBeforeYear_succ, ih, hstep]
    omega
  | pred year ih =>
    have hsucc := daysBeforeYear_succ (-(year : Int) - 1)
    rw [sub_add_cancel, ih, hstep] at hsucc
    omega

section Period

variable (year k : Int)

theorem isLeap_period : IsLeap (year + 400 * k) ↔ IsLeap year := by
  unfold IsLeap
  omega

theorem daysInMonth_period (month : Nat)
    : daysInMonth (year + 400 * k) month = daysInMonth year month := by
  simp only [daysInMonth, isLeap_period]

theorem daysBeforeMonth_period (month : Nat)
    : daysBeforeMonth (year + 400 * k) month = daysBeforeMonth year month := by
  induction month with
  | zero => rfl
  | succ month ih =>
    cases month with
    | zero => rfl
    | succ month => rw [daysBeforeMonth, ih, daysInMonth_period, daysBeforeMonth]

theorem daysBeforeYear_period
    : daysBeforeYear (year + 400 * k) = daysBeforeYear year + 146097 * k := by
  rw [daysBeforeYear_eq, daysBeforeYear_eq]
  omega

end Period

namespace Date

def shift (date : Date) (k : Int) : Date where
  year := date.year + 400 * k
  month := date.month
  day := date.day
  month_pos := date.month_pos
  month_le := date.month_le
  day_pos := date.day_pos
  day_le := by
    rw [daysInMonth_period]
    exact date.day_le

theorem number_shift (date : Date) (k : Int)
    : (date.shift k).number = date.number + 146097 * k := by
  simp only [number, shift, daysBeforeYear_period, daysBeforeMonth_period]
  omega

theorem number_ofCalendar (date : Calendar.Date) : (ofCalendar date).number = date.number := by
  have hday := date.day_pos
  simp only [number, ofCalendar, daysBeforeMonth_natCast, Calendar.Date.number, Calendar.dayNumber]
  change ((Calendar.daysBeforeYear date.year : Nat) : Int) + _ + _ = _
  omega

theorem exists_ofCalendar {date : Date} (h : 0 ≤ date.year)
    : ∃ date' : Calendar.Date, ofCalendar date' = date := by
  obtain ⟨year, month, day, hmonth, hmonth', hday, hday'⟩ := date
  obtain ⟨year, rfl⟩ := Int.eq_ofNat_of_zero_le h
  rw [daysInMonth_natCast] at hday'
  exact ⟨⟨year, month, day, hmonth, hmonth', hday, hday'⟩, rfl⟩

-- Both dates are moved by whole periods to years for which the number is known to grow.
theorem eq_of_number_eq {date date' : Date} (h : date.number = date'.number) : date = date' := by
  have hlater (date : Date) {k : Int} (hk : date.year.natAbs ≤ k) : 0 ≤ (date.shift k).year := by
    simp only [shift]
    omega
  generalize hk : ((date.year.natAbs + date'.year.natAbs : Nat) : Int) = k
  obtain ⟨c, hc⟩ := exists_ofCalendar (hlater date (k := k) (by omega))
  obtain ⟨c', hc'⟩ := exists_ofCalendar (hlater date' (k := k) (by omega))
  have hnumber : c.number = c'.number := by
    have heq : (date.shift k).number = (date'.shift k).number := by
      rw [number_shift, number_shift, h]
    rw [← hc, ← hc', number_ofCalendar, number_ofCalendar] at heq
    exact_mod_cast heq
  rw [Calendar.Date.eq_of_number_eq hnumber, hc', Date.ext_iff] at hc
  simp only [shift] at hc
  ext1
  . omega
  . exact hc.2.1.symm
  . exact hc.2.2.symm

theorem number_epoch : epoch.number = 719528 := by
  rw [epoch, number_ofCalendar, Calendar.Instant.number_epoch]
  rfl

theorem number_next (date : Date) : date.next.number = date.number + 1 := by
  have hday := date.day_le
  have hmonths : daysBeforeMonth date.year 13 = daysInYear date.year := by
    simp only [daysBeforeMonth, daysInMonth, monthLength, daysInYear]
    split
    all_goals rfl
  have hmonth : daysBeforeMonth date.year (date.month + 1)
      = daysBeforeMonth date.year date.month + daysInMonth date.year date.month := by
    obtain ⟨month, hmonth⟩ := Nat.exists_eq_succ_of_ne_zero (Nat.ne_of_gt date.month_pos)
    rw [hmonth]
    rfl
  unfold next
  split
  . simp only [number]
    omega
  . split
    . simp only [number, hmonth]
      omega
    -- The last day of a year.
    . have hlast : date.month = 12 := by
        have := date.month_le
        omega
      have hjanuary : daysBeforeMonth (date.year + 1) 1 = 0 := rfl
      have hyear : daysInYear date.year
          = daysBeforeMonth date.year date.month + daysInMonth date.year date.month := by
        rw [← hmonth, ← hmonths, hlast]
      simp only [number, daysBeforeYear_succ, hjanuary, hyear]
      omega

end Date

end Proleptic
