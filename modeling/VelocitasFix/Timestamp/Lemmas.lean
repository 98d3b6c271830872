import VelocitasFix.Timestamp.Impl
import VelocitasFix.Data.Ascii
import Mathlib.Tactic.IntervalCases

/-!
This module contains the range of the calendar conversion for the readings of a wall clock: every
part of a timestamp has the number of digits that is written for it.
-/

namespace Velocitas

open Ascii

namespace HrTimestamp

theorem isDigit_asciiDigit {val : Nat} (h : val ≤ 9) : IsDigit (asciiDigit val) := by
  rw [isDigit_iff_toNat, asciiDigit, UInt8.toNat_add, UInt8.toNat_ofNat']
  change 48 ≤ (48 + val % 256) % 256 ∧ (48 + val % 256) % 256 ≤ 57
  omega

theorem allDigits_writeDigits2 {val : Nat} (h : val ≤ 99) : AllDigits (writeDigits2 val) := by
  simp only [writeDigits2, allDigits_cons, allDigits_nil, and_true]
  exact ⟨isDigit_asciiDigit (by omega), isDigit_asciiDigit (by omega)⟩

theorem allDigits_writeDigits3 {val : Nat} (h : val ≤ 999) : AllDigits (writeDigits3 val) := by
  simp only [writeDigits3, allDigits_cons, allDigits_nil, and_true]
  exact ⟨isDigit_asciiDigit (by omega), isDigit_asciiDigit (by omega), isDigit_asciiDigit (by omega)⟩

theorem allDigits_writeDigits4 {val : Nat} (h : val ≤ 9999) : AllDigits (writeDigits4 val) := by
  simp only [writeDigits4, allDigits_cons, allDigits_nil, and_true]
  exact ⟨isDigit_asciiDigit (by omega), isDigit_asciiDigit (by omega),
    isDigit_asciiDigit (by omega), isDigit_asciiDigit (by omega)⟩

-- The day of the era, counted from 0000-03-01, falls into a year of at most 366 days.
theorem dayOfYear_le {doe yoe : Nat} (hdoe : doe < 146097)
    (hyoe : yoe = (doe - doe / 1460 + doe / 36524 - doe / 146096) / 365)
    : doe ≤ 365 * yoe + yoe / 4 - yoe / 100 + 365 ∧ yoe ≤ 399 := by
  have hle : yoe ≤ 399 := by omega
  refine ⟨?_, hle⟩
  by_cases hlast : doe = 146096
  . subst hlast
    rw [hyoe]
  . have hera : doe / 146096 = 0 := by omega
    rw [hera, Nat.sub_zero] at hyoe
    have hcentury : doe / 36524 < 4 := by omega
    have hleap : doe / 1460 ≤ yoe / 4 + 1 := by omega
    have hcenturies : yoe / 100 ≤ doe / 36524 := by omega
    generalize he : doe / 36524 = century at *
    by_cases hquad : doe / 1460 ≤ yoe / 4
    . omega
    . have hmod : yoe % 4 = 3 := by omega
      interval_cases century
      all_goals omega

-- The readings of 64 bits end in the year 2554.
theorem civilFromDays_range {days : Nat} (h : days ≤ 213503)
    : (civilFromDays days).1.toNat ≤ 9999 ∧ (civilFromDays days).2.1 ≤ 99
        ∧ (civilFromDays days).2.2 ≤ 99 := by
  unfold civilFromDays
  dsimp only
  have hpos : ((days : Int) + 719468) ≥ 0 := by omega
  rw [if_pos hpos, Int.tdiv_eq_ediv_of_nonneg (by omega)]
  have hera : ((days : Int) + 719468) / 146097 ≤ 6 := by omega
  have hera' : 0 ≤ ((days : Int) + 719468) / 146097 := by omega
  have hdoe : ((days : Int) + 719468 - (days + 719468) / 146097 * 146097).toNat < 146097 := by omega
  generalize ((days : Int) + 719468) / 146097 = era at hera hera' hdoe
  generalize ((days : Int) + 719468 - era * 146097).toNat = doe at hdoe
  have hyear := dayOfYear_le hdoe rfl
  generalize (doe - doe / 1460 + doe / 36524 - doe / 146096) / 365 = yoe at hyear
  have hdoy : doe - (365 * yoe + yoe / 4 - yoe / 100) ≤ 365 := by omega
  generalize doe - (365 * yoe + yoe / 4 - yoe / 100) = doy at hdoy
  refine ⟨?_, ?_, by omega⟩
  . split
    all_goals omega
  . split
    all_goals omega

theorem sohFree_toFixTimestamp (t : HrTimestamp) : Tags.soh ∉ t.toFixTimestamp := by
  have hdigits {bs : Bytes} (h : AllDigits bs) : Tags.soh ∉ bs := h.not_mem (by decide)
  have hnanos := t.nanos.toNat_lt
  have hrange := @civilFromDays_range (t.nanos.toNat / 1000000000 / 86400) (by omega)
  unfold toFixTimestamp
  dsimp only
  generalize hdate : civilFromDays (t.nanos.toNat / 1000000000 / 86400 : Nat) = date at hrange
  have htime {n : Nat} (h : n ≤ 99) : Tags.soh ∉ writeDigits2 n := hdigits (allDigits_writeDigits2 h)
  have hhour := @htime (t.nanos.toNat / 1000000000 % 86400 / 3600) (by omega)
  have hminute := @htime (t.nanos.toNat / 1000000000 % 86400 % 3600 / 60) (by omega)
  have hsecond := @htime (t.nanos.toNat / 1000000000 % 86400 % 60) (by omega)
  have hmillis := hdigits
    (@allDigits_writeDigits3 (t.nanos.toNat % 1000000000 / 1000000) (by omega))
  have hdash : Tags.soh ∉ [(45 : UInt8)] := by decide
  have hcolon : Tags.soh ∉ [(58 : UInt8)] := by decide
  have hpoint : Tags.soh ∉ [(46 : UInt8)] := by decide
  have hyear := hdigits (allDigits_writeDigits4 hrange.1)
  have hmonth := htime hrange.2.1
  have hday := htime hrange.2.2
  simp only [writeDate, writeTime, List.mem_append, hyear, hmonth, hday, hdash, hhour, hcolon,
    hminute, hsecond, hpoint, hmillis, or_self, not_false_eq_true]

end HrTimestamp

end Velocitas
