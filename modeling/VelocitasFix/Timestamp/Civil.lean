import VelocitasFix.Data.Calendar
import VelocitasFix.Timestamp.Lemmas

/-!
This module contains the correctness of the conversion from days to dates: `civilFromDays` is the
inverse of the number of a day in the calendar.
-/

namespace Velocitas

open Calendar

namespace HrTimestamp

-- The days of an era are numbered from 0000-03-01; its years start in March.
theorem dayOfYear_spec {doe yoe : Nat} (hdoe : doe < 146097)
    (hyoe : yoe = (doe - doe / 1460 + doe / 36524 - doe / 146096) / 365)
    : 365 * yoe + yoe / 4 - yoe / 100 ≤ doe
        ∧ (doe = 365 * yoe + yoe / 4 - yoe / 100 + 365 → IsLeap (yoe + 1)) := by
  by_cases hlast : doe = 146096
  . subst hlast
    rw [hyoe]
    decide
  . have hera : doe / 146096 = 0 := by omega
    rw [hera, Nat.sub_zero] at hyoe
    have hcentury : doe / 36524 < 4 := by omega
    have hquad : yoe / 4 ≤ doe / 1460 := by omega
    generalize he : doe / 36524 = century at *
    have hyear : yoe / 100 = century := by
      interval_cases century
      all_goals omega
    refine ⟨by omega, ?_⟩
    intro hlong
    -- The year is the last of four, and the last of a century only if the era ends with it.
    have hnext : yoe / 4 + 1 ≤ doe / 1460 := by omega
    have hmod : (yoe + 1) % 4 = 0 := by
      have hlow : 1460 * (yoe / 4) + 1460 ≤ doe := by omega
      have hquarters : yoe / 4 ≤ 99 := by omega
      by_contra hmod
      have hthree : yoe ≤ 4 * (yoe / 4) + 2 := by omega
      clear hyoe hnext hquad hmod hyear
      omega
    have hne : (yoe + 1) % 100 ≠ 0 := by
      interval_cases century
      all_goals omega
    exact ⟨hmod, .inl hne⟩

theorem isLeap_era (year era : Nat) : IsLeap (year + era * 400) ↔ IsLeap year := by
  unfold IsLeap
  omega

section

variable {year doy mp : Nat} (hmp : mp = (5 * doy + 2) / 153)

include hmp

-- A day from March to December of a year that starts in March.
theorem exists_date_march (h : mp ≤ 9)
    : ∃ date : Date, date.year = year ∧ date.month = mp + 3
        ∧ date.day = doy - (153 * mp + 2) / 5 + 1
        ∧ date.number + year / 100 = 365 * year + year / 4 + year / 400 + 60 + doy := by
  have hstart : (153 * mp + 2) / 5 ≤ doy := by omega
  have hday : doy - (153 * mp + 2) / 5 + 1 ≤ daysInMonth year (mp + 3) := by
    interval_cases mp
    all_goals
      simp only [daysInMonth]
      omega
  have hnumber := dayNumber_march year (doy - (153 * mp + 2) / 5 + 1) h
  refine ⟨⟨year, mp + 3, _, by omega, by omega, by omega, hday⟩, rfl, rfl, rfl, ?_⟩
  rw [Date.number, hnumber]
  omega

theorem exists_date_january (h : 10 ≤ mp) (hle : doy ≤ 365) (hleap : doy = 365 → IsLeap (year + 1))
    : ∃ date : Date, date.year = year + 1 ∧ date.month = mp - 9
        ∧ date.day = doy - (153 * mp + 2) / 5 + 1
        ∧ date.number + year / 100 = 365 * year + year / 4 + year / 400 + 60 + doy := by
  have hstart : (153 * mp + 2) / 5 ≤ doy := by omega
  have hlast : mp ≤ 11 := by omega
  have hday : doy - (153 * mp + 2) / 5 + 1 ≤ daysInMonth (year + 1) (mp - 9) := by
    interval_cases mp
    . simp only [daysInMonth]
      omega
    . simp only [daysInMonth]
      split
      . omega
      . next hnot =>
        have : doy ≠ 365 := fun heq => hnot (hleap heq)
        omega
  have hnumber := dayNumber_january year (doy - (153 * mp + 2) / 5 + 1) h hlast
  refine ⟨⟨year + 1, mp - 9, _, by omega, by omega, by omega, hday⟩, rfl, rfl, rfl, ?_⟩
  rw [Date.number, hnumber]
  omega

end

theorem exists_date_civilFromDays (days : Nat)
    : ∃ date : Date, civilFromDays days = ((date.year : Int), date.month, date.day)
        ∧ date.number = days + 719528 := by
  have hpos : ((days : Int) + 719468) ≥ 0 := by omega
  have hera : ((days : Int) + 719468).tdiv 146097 = ((days + 719468) / 146097 : Nat) := by
    rw [Int.tdiv_eq_ediv_of_nonneg hpos]
    rfl
  have hdoe : ((days : Int) + 719468 - ((days + 719468) / 146097 : Nat) * 146097).toNat
      = (days + 719468) % 146097 := by
    omega
  unfold civilFromDays
  dsimp only
  rw [if_pos hpos, hera, hdoe]
  have hlt : (days + 719468) % 146097 < 146097 := Nat.mod_lt _ (by omega)
  have hsplit := Nat.div_add_mod (days + 719468) 146097
  generalize (days + 719468) / 146097 = era at hsplit
  generalize (days + 719468) % 146097 = doe at hlt hsplit
  have hyear := dayOfYear_le hlt rfl
  have hspec := dayOfYear_spec hlt rfl
  generalize (doe - doe / 1460 + doe / 36524 - doe / 146096) / 365 = yoe at hyear hspec
  have hdoy : doe - (365 * yoe + yoe / 4 - yoe / 100) ≤ 365 := by omega
  have hleap : doe - (365 * yoe + yoe / 4 - yoe / 100) = 365 → IsLeap (yoe + era * 400 + 1) := by
    intro heq
    rw [Nat.add_right_comm, isLeap_era]
    apply hspec.2
    omega
  have hnumber (number : Nat)
      (h : number + (yoe + era * 400) / 100 = 365 * (yoe + era * 400) + (yoe + era * 400) / 4
        + (yoe + era * 400) / 400 + 60 + (doe - (365 * yoe + yoe / 4 - yoe / 100)))
      : number = days + 719528 := by
    have hfour : (yoe + era * 400) / 4 = yoe / 4 + era * 100 := by omega
    have hcentury : (yoe + era * 400) / 100 = yoe / 100 + era * 4 := by omega
    have hera : (yoe + era * 400) / 400 = era := by omega
    rw [hfour, hcentury, hera] at h
    omega
  generalize doe - (365 * yoe + yoe / 4 - yoe / 100) = doy at hdoy hleap hnumber
  generalize hmp : (5 * doy + 2) / 153 = mp
  by_cases hmarch : mp < 10
  . obtain ⟨date, hy, hm, hd, hdate⟩ :=
      @exists_date_march (yoe + era * 400) doy mp hmp.symm (by omega)
    have hmonth : ¬ mp + 3 ≤ 2 := by omega
    refine ⟨date, ?_, hnumber _ hdate⟩
    rw [hy, hm, hd, if_pos hmarch, if_neg hmonth]
    rfl
  . obtain ⟨date, hy, hm, hd, hdate⟩ :=
      @exists_date_january (yoe + era * 400) doy mp hmp.symm (by omega) hdoy hleap
    have hmonth : mp - 9 ≤ 2 := by omega
    refine ⟨date, ?_, hnumber _ hdate⟩
    rw [hy, hm, hd, if_neg hmarch, if_pos hmonth]
    rfl

end HrTimestamp

end Velocitas
