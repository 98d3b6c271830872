import VelocitasFix.Data.Fault
import VelocitasFix.Data.Proleptic
import VelocitasFix.Timestamp.Civil

/-!
This module contains the correctness of the conversion from days to dates for the days before the epoch
as well, and the proof that no operation on the way leaves its machine type.
-/

namespace Velocitas

open Fault

namespace Checked

def i64 (build : Build) (x : Int) : Except Fault Int :=
  arith build (-2 ^ 63 ≤ x ∧ x < 2 ^ 63) (x.bmod (2 ^ 64))

def u32 (build : Build) (x : Int) : Except Fault Nat :=
  arith build (0 ≤ x ∧ x < 2 ^ 32) (x % 2 ^ 32).toNat

def asU32 (x : Int) : Nat := (x % 2 ^ 32).toNat

theorem computes_i64 {x : Int} (h : -2 ^ 63 ≤ x) (h' : x < 2 ^ 63)
    : Computes (fun build => i64 build x) True x := by
  have hwrapped : x.bmod (2 ^ 64) = x := by
    rw [Int.bmod_def]
    omega
  unfold i64
  rw [hwrapped]
  exact (Computes.arith x).congr (iff_true_intro ⟨h, h'⟩)

theorem computes_u32 {x : Int} {n : Nat} (h : x = n) (h' : n < 2 ^ 32)
    : Computes (fun build => u32 build x) True n := by
  have hwrapped : (x % 2 ^ 32).toNat = n := by omega
  unfold u32
  rw [hwrapped]
  exact (Computes.arith n).congr (iff_true_intro (by omega))

namespace HrTimestamp

def civilFromDays (build : Build) (days : Int) : Except Fault (Int × Nat × Nat) := do
  let z ← i64 build (days + 719468)
  let start ← (if z ≥ 0 then .ok z else i64 build (z - 146096))
  let era := start.tdiv 146097
  let doe := asU32 (← i64 build (z - (← i64 build (era * 146097))))
  let quads ← u32 build (doe - (doe / 1460 : Nat))
  let centuries ← u32 build (quads + (doe / 36524 : Nat))
  let yoe := (← u32 build (centuries - (doe / 146096 : Nat))) / 365
  let y ← i64 build (yoe + (← i64 build (era * 400)))
  let long ← u32 build ((← u32 build (365 * yoe)) + (yoe / 4 : Nat))
  let doy ← u32 build (doe - (← u32 build (long - (yoe / 100 : Nat))))
  let mp := (← u32 build ((← u32 build (5 * doy)) + 2)) / 153
  let months ← u32 build ((← u32 build (153 * mp)) + 2)
  let d ← u32 build ((← u32 build (doy - (months / 5 : Nat))) + 1)
  let m ← (if mp < 10 then u32 build (mp + 3) else u32 build (mp - 9))
  let y ← (if m ≤ 2 then i64 build (y + 1) else .ok y)
  .ok (y, m, d)

end HrTimestamp

end Checked

namespace HrTimestamp

-- The branch for the days before the first era makes the division round down.
theorem era_eq (z : Int) : (if z ≥ 0 then z else z - 146096).tdiv 146097 = z / 146097 := by
  have hsign : Int.sign 146097 = 1 := rfl
  rw [Int.tdiv_eq_ediv, hsign]
  split
  . split
    all_goals omega
  . split
    all_goals omega

theorem civilFromDays_shift (days k : Int)
    : civilFromDays (days + 146097 * k)
        = ((civilFromDays days).1 + 400 * k, (civilFromDays days).2) := by
  have hz : days + 146097 * k + 719468 = days + 719468 + 146097 * k := by omega
  unfold civilFromDays
  dsimp only
  rw [era_eq, era_eq, hz]
  generalize days + 719468 = z
  have hera : (z + 146097 * k) / 146097 = z / 146097 + k := by omega
  have hdoe : z + 146097 * k - (z / 146097 + k) * 146097 = z - z / 146097 * 146097 := by omega
  rw [hera, hdoe]
  generalize (z - z / 146097 * 146097).toNat = doe
  rw [Prod.mk.injEq]
  refine ⟨?_, rfl⟩
  split
  all_goals omega

theorem exists_date_of_days (days : Int)
    : ∃ date : Proleptic.Date, civilFromDays days = (date.year, date.month, date.day)
        ∧ date.number = days + 719528 := by
  obtain ⟨n, hn⟩ := Int.eq_ofNat_of_zero_le (a := days + 146097 * days.natAbs) (by omega)
  obtain ⟨date, hcivil, hnumber⟩ := exists_date_civilFromDays n
  have hshift := civilFromDays_shift days days.natAbs
  rw [hn] at hshift
  rw [← hn, hn, hcivil] at hshift
  refine ⟨(Proleptic.Date.ofCalendar date).shift (-days.natAbs), ?_, ?_⟩
  . rw [Prod.mk.injEq] at hshift
    apply Prod.ext
    . change _ = (date.year : Int) + 400 * -days.natAbs
      omega
    . exact hshift.2.symm
  . rw [Proleptic.Date.number_shift, Proleptic.Date.number_ofCalendar, hnumber]
    omega

end HrTimestamp

namespace Checked

namespace HrTimestamp

theorem computes_civilFromDays {days : Int} (h : -2 ^ 60 ≤ days) (h' : days ≤ 2 ^ 60)
    : Computes (fun build => civilFromDays build days) True
        (Velocitas.HrTimestamp.civilFromDays days) := by
  unfold civilFromDays Velocitas.HrTimestamp.civilFromDays
  dsimp only
  apply (computes_i64 (by omega) (by omega)).bind_of_true
  apply (Computes.ite (fun _ => .pure _) fun _ =>
    computes_i64 (by omega) (by omega)).bind_of_true
  rw [Velocitas.HrTimestamp.era_eq]
  generalize hz : days + 719468 = z
  apply (computes_i64 (by omega) (by omega)).bind_of_true
  apply (computes_i64 (by omega) (by omega)).bind_of_true
  have hdoe : asU32 (z - z / 146097 * 146097) = (z - z / 146097 * 146097).toNat := by
    unfold asU32
    omega
  have hlt : (z - z / 146097 * 146097).toNat < 146097 := by omega
  have hera : -2 ^ 44 ≤ z / 146097 ∧ z / 146097 ≤ 2 ^ 44 := by omega
  rw [hdoe]
  generalize (z - z / 146097 * 146097).toNat = doe at hlt
  generalize z / 146097 = era at hera
  have hyear := Velocitas.HrTimestamp.dayOfYear_le hlt rfl
  have hspec := (Velocitas.HrTimestamp.dayOfYear_spec hlt rfl).1
  apply (computes_u32 (n := doe - doe / 1460) (by omega) (by omega)).bind_of_true
  apply (computes_u32 (n := doe - doe / 1460 + doe / 36524) (by omega) (by omega)).bind_of_true
  apply (computes_u32 (n := doe - doe / 1460 + doe / 36524 - doe / 146096) (by omega)
    (by omega)).bind_of_true
  generalize (doe - doe / 1460 + doe / 36524 - doe / 146096) / 365 = yoe at hyear hspec
  apply (computes_i64 (by omega) (by omega)).bind_of_true
  apply (computes_i64 (by omega) (by omega)).bind_of_true
  apply (computes_u32 (n := 365 * yoe) (by omega) (by omega)).bind_of_true
  apply (computes_u32 (n := 365 * yoe + yoe / 4) (by omega) (by omega)).bind_of_true
  apply (computes_u32 (n := 365 * yoe + yoe / 4 - yoe / 100) (by omega) (by omega)).bind_of_true
  have hdoy : doe - (365 * yoe + yoe / 4 - yoe / 100) ≤ 365 := by omega
  apply (computes_u32 (n := doe - (365 * yoe + yoe / 4 - yoe / 100)) (by omega)
    (by omega)).bind_of_true
  generalize doe - (365 * yoe + yoe / 4 - yoe / 100) = doy at hdoy
  apply (computes_u32 (n := 5 * doy) (by omega) (by omega)).bind_of_true
  apply (computes_u32 (n := 5 * doy + 2) (by omega) (by omega)).bind_of_true
  generalize hmp : (5 * doy + 2) / 153 = mp
  apply (computes_u32 (n := 153 * mp) (by omega) (by omega)).bind_of_true
  apply (computes_u32 (n := 153 * mp + 2) (by omega) (by omega)).bind_of_true
  apply (computes_u32 (n := doy - (153 * mp + 2) / 5) (by omega) (by omega)).bind_of_true
  apply (computes_u32 (n := doy - (153 * mp + 2) / 5 + 1) (by omega) (by omega)).bind_of_true
  apply (Computes.ite (a := mp + 3) (b := mp - 9)
    (fun _ => computes_u32 (by omega) (by omega))
    fun _ => computes_u32 (by omega) (by omega)).bind_of_true
  generalize (if mp < 10 then mp + 3 else mp - 9) = m
  apply (Computes.ite (fun _ => computes_i64 (by omega) (by omega)) fun _ =>
    .pure _).bind_of_true
  exact .pure _

theorem civilFromDays_eq {days : Int} (h : -2 ^ 60 ≤ days) (h' : days ≤ 2 ^ 60) (build : Build)
    : civilFromDays build days = .ok (Velocitas.HrTimestamp.civilFromDays days) :=
  (computes_civilFromDays h h').eq_ok build

end HrTimestamp

end Checked

namespace HrTimestamp

theorem civilFromDays_exact (days : Int) (h : |days| ≤ 10 ^ 15)
    : ∃ date : Proleptic.Date,
        (∀ build, Checked.HrTimestamp.civilFromDays build days
            = .ok (date.year, date.month, date.day))
          ∧ civilFromDays days = (date.year, date.month, date.day)
          ∧ date.daysSinceEpoch = days
          ∧ ∀ build, Checked.HrTimestamp.civilFromDays build (days + 1)
            = .ok (date.next.year, date.next.month, date.next.day) := by
  rw [abs_le] at h
  obtain ⟨date, hcivil, hnumber⟩ := exists_date_of_days days
  obtain ⟨date', hcivil', hnumber'⟩ := exists_date_of_days (days + 1)
  have hnext : date' = date.next := by
    apply Proleptic.Date.eq_of_number_eq
    rw [Proleptic.Date.number_next, hnumber, hnumber']
    omega
  refine ⟨date, ?_, hcivil, ?_, ?_⟩
  . intro build
    rw [Checked.HrTimestamp.civilFromDays_eq (by omega) (by omega), hcivil]
  . rw [Proleptic.Date.daysSinceEpoch, hnumber, Proleptic.Date.number_epoch]
    omega
  . intro build
    rw [Checked.HrTimestamp.civilFromDays_eq (by omega) (by omega), hcivil', hnext]

-- The first day of the year 1 is far before the epoch.
theorem civilFromDays_exact_year_one
    : |(-719162 : Int)| ≤ 10 ^ 15 ∧ ∃ date : Proleptic.Date,
        (∀ build, Checked.HrTimestamp.civilFromDays build (-719162)
            = .ok (date.year, date.month, date.day))
          ∧ civilFromDays (-719162) = (date.year, date.month, date.day)
          ∧ date.daysSinceEpoch = -719162
          ∧ ∀ build, Checked.HrTimestamp.civilFromDays build (-719162 + 1)
            = .ok (date.next.year, date.next.month, date.next.day) :=
  ⟨by decide, civilFromDays_exact (-719162) (by decide)⟩

end HrTimestamp

end Velocitas
