import VelocitasFix.Data.Decimal
import VelocitasFix.Timestamp.Civil

/-!
This module contains the exactness of the timestamps: a reading is written as the date and the time it
denotes, later readings have larger texts, and the shorter formats are prefixes of the longest one.
-/

namespace Velocitas

open Ascii Calendar

namespace HrTimestamp

-- YYYYMMDD-HH:MM:SS.nnnnnnnnn
def layout (i : Calendar.Instant) : Bytes :=
  padded 4 i.date.year ++ padded 2 i.date.month ++ padded 2 i.date.day ++ ascii "-"
    ++ padded 2 i.hour ++ ascii ":" ++ padded 2 i.minute ++ ascii ":" ++ padded 2 i.second
    ++ ascii "." ++ padded 9 i.nanos

theorem lex_layout {i i' : Calendar.Instant} (h : i.count < i'.count) (hyear : i'.date.year ≤ 9999)
    : List.Lex (· < ·) (layout i) (layout i') := by
  have hmonth := i'.date.month_le
  have hday : i'.date.day ≤ 31 := Nat.le_trans i'.date.day_le (daysInMonth_le _ _)
  have hhour := i'.hour_lt
  have hminute := i'.minute_lt
  have hsecond := i'.second_lt
  have hnanos := i'.nanos_lt
  have hpad (w n n' : Nat) (hlt : n < n') (hmax : n' < 10 ^ w) (us vs : Bytes)
      : List.Lex (· < ·) (padded w n ++ us) (padded w n' ++ vs) :=
    lex_append_of_length (lex_padded hlt hmax) (by rw [length_padded, length_padded]) us vs
  simp only [layout, List.append_assoc]
  -- The first component that differs decides, in the texts and in the counts.
  have hfirst : i.date.Before i'.date
      ∨ (i.date = i'.date
        ∧ (i.hour < i'.hour
          ∨ (i.hour = i'.hour
            ∧ (i.minute < i'.minute
              ∨ (i.minute = i'.minute
                ∧ (i.second < i'.second
                  ∨ (i.second = i'.second ∧ i.nanos < i'.nanos))))))) := by
    have := i.hour_lt
    have := i.minute_lt
    have := i.second_lt
    have := i.nanos_lt
    unfold Calendar.Instant.count at h
    rcases Nat.lt_trichotomy i.date.number i'.date.number with hlt | heq | hgt
    . exact .inl (Date.before_of_number_lt hlt)
    . have hdate := Date.eq_of_number_eq heq
      refine .inr ⟨hdate, ?_⟩
      rw [heq] at h
      omega
    . omega
  rcases hfirst with (hy | ⟨hy, hm | ⟨hm, hd⟩⟩) | ⟨hdate, hh | ⟨hh, hmi | ⟨hmi, hs | ⟨hs, hn⟩⟩⟩⟩
  . exact hpad 4 _ _ hy (by omega) _ _
  . rw [hy]
    apply List.Lex.append_left
    exact hpad 2 _ _ hm (by omega) _ _
  . rw [hy, hm]
    apply List.Lex.append_left
    apply List.Lex.append_left
    exact hpad 2 _ _ hd (by omega) _ _
  . rw [hdate]
    iterate 4 apply List.Lex.append_left
    exact hpad 2 _ _ hh (by omega) _ _
  . rw [hdate, hh]
    iterate 6 apply List.Lex.append_left
    exact hpad 2 _ _ hmi (by omega) _ _
  . rw [hdate, hh, hmi]
    iterate 8 apply List.Lex.append_left
    exact hpad 2 _ _ hs (by omega) _ _
  . rw [hdate, hh, hmi, hs]
    iterate 10 apply List.Lex.append_left
    exact lex_padded hn (by omega)

theorem asciiDigit_eq (n : Nat) : asciiDigit n = digit n := rfl

theorem writeDigits2_eq {n : Nat} (h : n ≤ 99) : writeDigits2 n = padded 2 n := by
  have hfirst : n / 10 % 10 = n / 10 := by omega
  simp only [writeDigits2, asciiDigit_eq, padded, List.nil_append, List.cons_append, hfirst]

theorem writeDigits3_eq {n : Nat} (h : n ≤ 999) : writeDigits3 n = padded 3 n := by
  have hfirst : n / 100 % 10 = n / 100 := by omega
  simp only [writeDigits3, asciiDigit_eq, padded, Nat.div_div_eq_div_mul, Nat.reduceMul,
    List.nil_append, List.cons_append, hfirst]

theorem writeDigits4_eq {n : Nat} (h : n ≤ 9999) : writeDigits4 n = padded 4 n := by
  have hfirst : n / 1000 % 10 = n / 1000 := by omega
  simp only [writeDigits4, asciiDigit_eq, padded, Nat.div_div_eq_div_mul, Nat.reduceMul,
    List.nil_append, List.cons_append, hfirst]

theorem writeDigits6_eq {n : Nat} (h : n ≤ 999999) : writeDigits6 n = padded 6 n := by
  have hfirst : n / 100000 % 10 = n / 100000 := by omega
  simp only [writeDigits6, asciiDigit_eq, padded, Nat.div_div_eq_div_mul, Nat.reduceMul,
    List.nil_append, List.cons_append, hfirst]

theorem writeDigits9_eq {n : Nat} (h : n ≤ 999999999) : writeDigits9 n = padded 9 n := by
  have hfirst : n / 100000000 % 10 = n / 100000000 := by omega
  simp only [writeDigits9, asciiDigit_eq, padded, Nat.div_div_eq_div_mul, Nat.reduceMul,
    List.nil_append, List.cons_append, hfirst]

-- The components of a reading are those of the point in time it denotes.
theorem exists_instant (t : HrTimestamp)
    : ∃ i : Calendar.Instant,
        t.toUtcComponents
            = ⟨i.date.year, i.date.month, i.date.day, i.hour, i.minute, i.second, i.nanos⟩
          ∧ i.count = Calendar.Instant.epoch.count + t.nanos.toNat ∧ i.date.year ≤ 9999 := by
  have hnanos := t.nanos.toNat_lt
  obtain ⟨date, hcivil, hnumber⟩ := exists_date_civilFromDays (t.nanos.toNat / 1000000000 / 86400)
  have hrange := @civilFromDays_range (t.nanos.toNat / 1000000000 / 86400) (by omega)
  rw [hcivil] at hrange
  refine ⟨⟨date, t.nanos.toNat / 1000000000 % 86400 / 3600,
    t.nanos.toNat / 1000000000 % 86400 % 3600 / 60, t.nanos.toNat / 1000000000 % 86400 % 60,
    t.nanos.toNat % 1000000000, by omega, by omega, by omega, by omega⟩, ?_, ?_, ?_⟩
  . unfold toUtcComponents
    dsimp only
    rw [hcivil]
    rfl
  . have hepoch : Calendar.Instant.epoch.count = 719528 * 86400 * 1000000000 := by
      rw [Calendar.Instant.count, Calendar.Instant.number_epoch]
      rfl
    rw [hepoch, Calendar.Instant.count]
    dsimp only
    rw [hnumber]
    omega
  . simpa using hrange.1

theorem toFixTimestampNs_eq {t : HrTimestamp} {i : Calendar.Instant}
    (h : t.toUtcComponents
      = ⟨i.date.year, i.date.month, i.date.day, i.hour, i.minute, i.second, i.nanos⟩)
    (hyear : i.date.year ≤ 9999)
    : t.toFixTimestampNs = layout i := by
  have hmonth := i.date.month_le
  have hday := Nat.le_trans i.date.day_le (daysInMonth_le _ _)
  have hhour := i.hour_lt
  have hminute := i.minute_lt
  have hsecond := i.second_lt
  have hnanos := i.nanos_lt
  unfold toFixTimestampNs
  rw [h]
  dsimp only [writeDate, writeTime]
  rw [writeDigits4_eq hyear, writeDigits2_eq (by omega), writeDigits2_eq (by omega),
    writeDigits2_eq (by omega), writeDigits2_eq (by omega), writeDigits2_eq (by omega),
    writeDigits9_eq (by omega), layout]
  simp only [List.append_assoc]
  rfl

theorem take_toFixTimestampNs (t : HrTimestamp)
    : t.toFixTimestampNs.take 21 = t.toFixTimestamp
        ∧ t.toFixTimestampNs.take 24 = t.toFixTimestampUs := by
  have hfrac : t.nanos.toNat % 1000000000 ≤ 999999999 := by omega
  have hms : writeDigits3 (t.nanos.toNat % 1000000000 / 1000000)
      = (writeDigits9 (t.nanos.toNat % 1000000000)).take 3 := by
    rw [writeDigits9_eq hfrac, take_padded 3 _ 6, writeDigits3_eq (by omega)]
    rfl
  have hus : writeDigits6 (t.nanos.toNat % 1000000000 / 1000)
      = (writeDigits9 (t.nanos.toNat % 1000000000)).take 6 := by
    rw [writeDigits9_eq hfrac, take_padded 6 _ 3, writeDigits6_eq (by omega)]
    rfl
  constructor
  . unfold toFixTimestamp
    dsimp only
    rw [hms]
    rfl
  . unfold toFixTimestampUs
    dsimp only [toUtcComponents]
    rw [hus]
    rfl

theorem timestamps_exact (t : HrTimestamp)
    : (∃ i : Calendar.Instant, t.toFixTimestampNs = layout i ∧ i.date.year ≤ 9999
          ∧ i.count = Calendar.Instant.epoch.count + t.nanos.toNat)
        ∧ (∀ t' : HrTimestamp, t.nanos < t'.nanos →
          List.Lex (· < ·) t.toFixTimestampNs t'.toFixTimestampNs)
        ∧ t.toFixTimestamp = t.toFixTimestampNs.take 21
        ∧ t.toFixTimestampUs = t.toFixTimestampNs.take 24 := by
  obtain ⟨i, hparts, hcount, hyear⟩ := t.exists_instant
  refine ⟨⟨i, toFixTimestampNs_eq hparts hyear, hyear, hcount⟩, ?_,
    t.take_toFixTimestampNs.1.symm, t.take_toFixTimestampNs.2.symm⟩
  intro t' hlt
  obtain ⟨i', hparts', hcount', hyear'⟩ := t'.exists_instant
  rw [toFixTimestampNs_eq hparts hyear, toFixTimestampNs_eq hparts' hyear']
  apply lex_layout _ hyear'
  rw [UInt64.lt_iff_toNat_lt] at hlt
  omega

end HrTimestamp

end Velocitas
