import VelocitasFix.Checksum.Lemmas
import VelocitasFix.Data.Fault

/-!
This module contains the checksum functions once more, with every index, every range and every machine
operation that can fail at the place where the source has it.
-/

namespace Velocitas

namespace Checked

open Fault

-- `bytes[i] == b`
def byteIs (bytes : Bytes) (i : Nat) (b : UInt8) : Except Fault Bool := do
  let found ← index bytes i
  .ok (decide (found = b))

theorem computes_byteIs {bytes : Bytes} {i : Nat} (h : i < bytes.length) (b : UInt8)
    : Computes (fun _ => byteIs bytes i b) True (bytes[i]? = some b) := by
  have heq : decide (bytes[i] = b) = decide (bytes[i]? = some b) := by
    simp [List.getElem?_eq_getElem h]
  unfold byteIs
  apply (Computes.index h).bind_of_true
  rw [heq]
  exact .pure _

namespace Checksum

def sumChunks (data : Bytes) : Nat → Nat → UInt32 → UInt32 → UInt32 → UInt32
    → Except Fault (Nat × UInt32 × UInt32 × UInt32 × UInt32)
  | 0, i, sum0, sum1, sum2, sum3 => .ok (i, sum0, sum1, sum2, sum3)
  | chunks + 1, i, sum0, sum1, sum2, sum3 => do
    let b0 ← index data i
    let b1 ← index data (i + 1)
    let b2 ← index data (i + 2)
    let b3 ← index data (i + 3)
    sumChunks data chunks (i + 4) (sum0 + b0.toUInt32) (sum1 + b1.toUInt32) (sum2 + b2.toUInt32)
      (sum3 + b3.toUInt32)

def sumRemainder (data : Bytes) : Nat → Nat → UInt32 → Except Fault UInt32
  | 0, _, sum => .ok sum
  | remainder + 1, i, sum => do
    let b ← index data i
    sumRemainder data remainder (i + 1) (sum + b.toUInt32)

def compute (data : Bytes) : Except Fault UInt8 := do
  let len := data.length
  let chunks := len / 4
  let remainder := len % 4
  let (i, sum0, sum1, sum2, sum3) ← sumChunks data chunks 0 0 0 0 0
  let sum0 ← sumRemainder data remainder i sum0
  .ok ((sum0 + sum1 + sum2 + sum3) % 256).toUInt8

def trailerAt (msg : Bytes) (i : Nat) : Except Fault Bool :=
  andThen (byteIs msg i Tags.soh) <| andThen (byteIs msg (i + 1) 49) <|
    andThen (byteIs msg (i + 2) 48) <| byteIs msg (i + 3) Tags.equals

def trailerStart (msg : Bytes) : Nat → Except Fault Nat
  | 0 => .ok 0
  | i + 1 => do
    if ← trailerAt msg i then .ok (i + 1) else trailerStart msg i

def startsWithTrailer (msg : Bytes) : Except Fault Bool :=
  andThen (byteIs msg 0 49) <| andThen (byteIs msg 1 48) <| byteIs msg 2 Tags.equals

def digitOf (build : Build) (b : UInt8) : Except Fault UInt8 :=
  arith build (48 ≤ b.toNat) (b - 48)

def stated (build : Build) (msg : Bytes) (offset : Nat) : Except Fault UInt8 := do
  let d0 ← digitOf build (← index msg offset)
  let hundreds ← arith build (d0.toNat * 100 < 256) (d0 * 100)
  let d1 ← digitOf build (← index msg (offset + 1))
  let tens ← arith build (d1.toNat * 10 < 256) (d1 * 10)
  let sum ← arith build (hundreds.toNat + tens.toNat < 256) (hundreds + tens)
  let d2 ← digitOf build (← index msg (offset + 2))
  arith build (sum.toNat + d2.toNat < 256) (sum + d2)

def trailerFound (msg : Bytes) (checksumStart : Nat) : Except Fault Bool :=
  if checksumStart = 0 then startsWithTrailer msg else .ok true

-- `checksum_start - 1 + 1` wraps around for 0.
def checksumMatches (build : Build) (msg : Bytes) (checksumStart : Nat) : Except Fault Bool := do
  let stop ← arith build (1 ≤ checksumStart) checksumStart
  let computed ← compute (← range msg 0 stop)
  let csOffset := checksumStart + 3
  if csOffset + 3 > msg.length then
    .ok false
  else
    let stated ← stated build msg csOffset
    .ok (decide (computed = stated))

def validate (build : Build) (msg : Bytes) : Except Fault Bool :=
  let len := msg.length
  if len < 7 then
    .ok false
  else do
    let bound ← sub len 4
    let checksumStart ← trailerStart msg bound
    if ← trailerFound msg checksumStart then
      checksumMatches build msg checksumStart
    else
      .ok false

theorem computes_sumChunks (data : Bytes) (chunks i : Nat) (sum0 sum1 sum2 sum3 : UInt32)
    (h : i + 4 * chunks ≤ data.length)
    : ∃ sums, Computes (fun _ => sumChunks data chunks i sum0 sum1 sum2 sum3) True
          (i + 4 * chunks, sums)
        ∧ Velocitas.Checksum.compute.go (data.drop i) sum0 sum1 sum2 sum3
          = Velocitas.Checksum.compute.go (data.drop (i + 4 * chunks)) sums.1 sums.2.1 sums.2.2.1
            sums.2.2.2 := by
  induction chunks generalizing i sum0 sum1 sum2 sum3 with
  | zero => exact ⟨(sum0, sum1, sum2, sum3), .pure _, rfl⟩
  | succ chunks ih =>
    have h0 : i < data.length := by omega
    have h1 : i + 1 < data.length := by omega
    have h2 : i + 2 < data.length := by omega
    have h3 : i + 3 < data.length := by omega
    obtain ⟨sums, hsums, hgo⟩ := ih (i + 4) (sum0 + data[i].toUInt32) (sum1 + data[i + 1].toUInt32)
      (sum2 + data[i + 2].toUInt32) (sum3 + data[i + 3].toUInt32) (by omega)
    have hpos : i + 4 + 4 * chunks = i + 4 * (chunks + 1) := by omega
    rw [hpos] at hsums hgo
    refine ⟨sums, ?_, ?_⟩
    . unfold sumChunks
      apply (Computes.index h0).bind_of_true
      apply (Computes.index h1).bind_of_true
      apply (Computes.index h2).bind_of_true
      apply (Computes.index h3).bind_of_true
      exact hsums
    . rw [← hgo, List.drop_eq_getElem_cons h0, List.drop_eq_getElem_cons h1,
        List.drop_eq_getElem_cons h2, List.drop_eq_getElem_cons h3]
      rfl

theorem computes_sumRemainder (data : Bytes) (remainder i : Nat) (sum : UInt32)
    (h : i + remainder = data.length)
    : Computes (fun _ => sumRemainder data remainder i sum) True
        ((data.drop i).foldl (fun sum b => sum + b.toUInt32) sum) := by
  induction remainder generalizing i sum with
  | zero =>
    rw [List.drop_eq_nil_of_le (by omega)]
    exact .pure sum
  | succ remainder ih =>
    have hi : i < data.length := by omega
    rw [List.drop_eq_getElem_cons hi, List.foldl_cons]
    unfold sumRemainder
    apply (Computes.index hi).bind_of_true
    exact ih (i + 1) _ (by omega)

theorem compute_go_of_lt {data : Bytes} (h : data.length < 4) (sum0 sum1 sum2 sum3 : UInt32)
    : Velocitas.Checksum.compute.go data sum0 sum1 sum2 sum3
        = ((data.foldl (fun sum b => sum + b.toUInt32) sum0 + sum1 + sum2 + sum3) % 256).toUInt8 := by
  match data with
  | [] => rfl
  | [_] => rfl
  | [_, _] => rfl
  | [_, _, _] => rfl
  | _ :: _ :: _ :: _ :: _ =>
    simp only [List.length_cons] at h
    omega

theorem computes_compute (data : Bytes)
    : Computes (fun _ => compute data) True (Velocitas.Checksum.compute data) := by
  obtain ⟨sums, hsums, hgo⟩ := computes_sumChunks data (data.length / 4) 0 0 0 0 0 (by omega)
  have hrest := computes_sumRemainder data (data.length % 4) (0 + 4 * (data.length / 4)) sums.1
    (by omega)
  have hcompute : Velocitas.Checksum.compute data
      = (((data.drop (0 + 4 * (data.length / 4))).foldl (fun sum b => sum + b.toUInt32) sums.1
        + sums.2.1 + sums.2.2.1 + sums.2.2.2) % 256).toUInt8 := by
    rw [← compute_go_of_lt, ← hgo, List.drop_zero]
    . rfl
    . rw [List.length_drop]
      omega
  rw [hcompute]
  unfold compute
  apply hsums.bind_of_true
  apply hrest.bind_of_true
  exact .pure _

section

variable {msg : Bytes} {i : Nat}

theorem computes_trailerAt (h : i + 3 < msg.length)
    : Computes (fun _ => trailerAt msg i) True (Velocitas.Checksum.trailerAt msg i) := by
  have hmodel : Velocitas.Checksum.trailerAt msg i
      = (decide (msg[i]? = some Tags.soh) && (decide (msg[i + 1]? = some 49)
        && (decide (msg[i + 2]? = some 48) && decide (msg[i + 3]? = some Tags.equals)))) := by
    simp only [Velocitas.Checksum.trailerAt, Bool.and_assoc]
  rw [hmodel]
  apply (computes_byteIs (by omega) _).andThen
  intro _
  apply (computes_byteIs (by omega) _).andThen
  intro _
  apply (computes_byteIs (by omega) _).andThen
  intro _
  apply computes_byteIs h

theorem computes_trailerStart {n : Nat} (h : n + 3 ≤ msg.length)
    : Computes (fun _ => trailerStart msg n) True (Velocitas.Checksum.trailerStart msg n) := by
  induction n with
  | zero => exact .pure 0
  | succ n ih =>
    unfold trailerStart Velocitas.Checksum.trailerStart
    apply (computes_trailerAt (by omega)).bind_of_true
    split
    . exact .pure _
    . apply ih
      omega

theorem computes_startsWithTrailer (h : 3 ≤ msg.length)
    : Computes (fun _ => startsWithTrailer msg) True
        (Velocitas.Checksum.startsWithTrailer msg) := by
  have hmodel : Velocitas.Checksum.startsWithTrailer msg
      = (decide (msg[0]? = some 49)
        && (decide (msg[1]? = some 48) && decide (msg[2]? = some Tags.equals))) := by
    simp only [Velocitas.Checksum.startsWithTrailer, Bool.and_assoc]
  rw [hmodel]
  apply (computes_byteIs (by omega) _).andThen
  intro _
  apply (computes_byteIs (by omega) _).andThen
  intro _
  apply computes_byteIs (by omega)

end

theorem computes_digitOf (b : UInt8)
    : Computes (fun build => digitOf build b) (48 ≤ b.toNat) (b - 48) :=
  .arith _

end Checksum

end Checked

-- The decoding of three checksum digits stays in the range of a byte at every step.
def Checksum.DigitsFit (b0 b1 b2 : UInt8) : Prop :=
  48 ≤ b0.toNat ∧ 48 ≤ b1.toNat ∧ 48 ≤ b2.toNat
    ∧ (b0.toNat - 48) * 100 + (b1.toNat - 48) * 10 + (b2.toNat - 48) < 256

-- The two places of the validation where a machine operation can leave its type.
def Checksum.ValidateFits (msg : Bytes) : Prop :=
  7 ≤ msg.length →
    let start := trailerStart msg (msg.length - 4)
    (start = 0 → startsWithTrailer msg = false)
      ∧ (1 ≤ start → start + 6 ≤ msg.length →
        DigitsFit (msg.getD (start + 3) 0) (msg.getD (start + 4) 0) (msg.getD (start + 5) 0))

namespace Checked

open Fault

namespace Checksum

open Velocitas.Checksum (DigitsFit ValidateFits)

theorem toNat_sub_of_le {b : UInt8} (h : 48 ≤ b.toNat) : (b - 48).toNat = b.toNat - 48 := by
  rw [UInt8.toNat_sub_of_le]
  . rfl
  . rw [UInt8.le_iff_toNat_le]
    exact h

theorem toNat_add_of_lt {a b : UInt8} (h : a.toNat + b.toNat < 256)
    : (a + b).toNat = a.toNat + b.toNat := by
  rw [UInt8.toNat_add, Nat.mod_eq_of_lt h]

theorem toNat_mul_of_lt {a b : UInt8} (h : a.toNat * b.toNat < 256)
    : (a * b).toNat = a.toNat * b.toNat := by
  rw [UInt8.toNat_mul, Nat.mod_eq_of_lt h]

-- If the result is in the range, so are the steps that lead to it.
theorem digitsFit_iff (b0 b1 b2 : UInt8)
    : (48 ≤ b0.toNat ∧ (b0 - 48).toNat * 100 < 256 ∧ 48 ≤ b1.toNat ∧ (b1 - 48).toNat * 10 < 256
        ∧ ((b0 - 48) * 100).toNat + ((b1 - 48) * 10).toNat < 256 ∧ 48 ≤ b2.toNat
        ∧ ((b0 - 48) * 100 + (b1 - 48) * 10).toNat + (b2 - 48).toNat < 256)
        ↔
      DigitsFit b0 b1 b2 := by
  by_cases h0 : 48 ≤ b0.toNat
  . by_cases h1 : 48 ≤ b1.toNat
    . by_cases h2 : 48 ≤ b2.toNat
      . have hd0 := toNat_sub_of_le h0
        have hd1 := toNat_sub_of_le h1
        have hd2 := toNat_sub_of_le h2
        have hhundred : (100 : UInt8).toNat = 100 := rfl
        have hten : (10 : UInt8).toNat = 10 := rfl
        unfold DigitsFit
        constructor
        . intro h
          obtain ⟨_, hp0, _, hp1, hsum, _, htotal⟩ := h
          have hm0 := @toNat_mul_of_lt (b0 - 48) 100 hp0
          have hm1 := @toNat_mul_of_lt (b1 - 48) 10 hp1
          rw [hd0, hhundred] at hm0
          rw [hd1, hten] at hm1
          have hadd := toNat_add_of_lt hsum
          omega
        . intro h
          have hp0 : (b0 - 48).toNat * 100 < 256 := by omega
          have hp1 : (b1 - 48).toNat * 10 < 256 := by omega
          have hm0 := @toNat_mul_of_lt (b0 - 48) 100 hp0
          have hm1 := @toNat_mul_of_lt (b1 - 48) 10 hp1
          rw [hd0, hhundred] at hm0
          rw [hd1, hten] at hm1
          have hsum : ((b0 - 48) * 100).toNat + ((b1 - 48) * 10).toNat < 256 := by omega
          have hadd := toNat_add_of_lt hsum
          exact ⟨h0, hp0, h1, hp1, hsum, h2, by omega⟩
      . simp [DigitsFit, h2]
    . simp [DigitsFit, h1]
  . simp [DigitsFit, h0]

theorem computes_stated {msg : Bytes} {offset : Nat} (h : offset + 2 < msg.length)
    : Computes (fun build => stated build msg offset)
        (DigitsFit (msg.getD offset 0) (msg.getD (offset + 1) 0) (msg.getD (offset + 2) 0))
        (Velocitas.Checksum.stated msg offset) := by
  have hget (k : Nat) (hk : k < msg.length) : msg.getD k 0 = msg[k] := by
    rw [List.getD_eq_getElem?_getD, List.getElem?_eq_getElem hk]
    rfl
  have h0 : offset < msg.length := by omega
  have h1 : offset + 1 < msg.length := by omega
  unfold Velocitas.Checksum.stated
  rw [hget _ h0, hget _ h1, hget _ h]
  generalize hb0 : msg[offset] = b0
  generalize hb1 : msg[offset + 1] = b1
  generalize hb2 : msg[offset + 2] = b2
  have hsteps : Computes (fun build => stated build msg offset)
      (48 ≤ b0.toNat ∧ (b0 - 48).toNat * 100 < 256 ∧ 48 ≤ b1.toNat ∧ (b1 - 48).toNat * 10 < 256
        ∧ ((b0 - 48) * 100).toNat + ((b1 - 48) * 10).toNat < 256 ∧ 48 ≤ b2.toNat
        ∧ ((b0 - 48) * 100 + (b1 - 48) * 10).toNat + (b2 - 48).toNat < 256)
      ((b0 - 48) * 100 + (b1 - 48) * 10 + (b2 - 48)) := by
    subst hb0 hb1 hb2
    unfold stated
    apply (Computes.index h0).bind_of_true
    apply (computes_digitOf _).bind
    apply (Computes.arith _).bind
    apply (Computes.index h1).bind_of_true
    apply (computes_digitOf _).bind
    apply (Computes.arith _).bind
    apply (Computes.arith _).bind
    apply (Computes.index h).bind_of_true
    apply (computes_digitOf _).bind
    apply Computes.arith
  exact hsteps.congr (digitsFit_iff b0 b1 b2)

theorem computes_trailerFound {msg : Bytes} (h : 3 ≤ msg.length) (start : Nat)
    : Computes (fun _ => trailerFound msg start) True
        (!(decide (start = 0) && !Velocitas.Checksum.startsWithTrailer msg)) := by
  unfold trailerFound
  split
  . next heq =>
    simp only [heq, decide_true, Bool.true_and, Bool.not_not]
    apply computes_startsWithTrailer h
  . next hne =>
    simp only [hne, decide_false, Bool.false_and, Bool.not_false]
    exact .pure true

theorem computes_checksumMatches {msg : Bytes} {start : Nat} (h : start ≤ msg.length)
    : Computes (fun build => checksumMatches build msg start)
        (1 ≤ start ∧ (start + 6 ≤ msg.length →
          DigitsFit (msg.getD (start + 3) 0) (msg.getD (start + 4) 0) (msg.getD (start + 5) 0)))
        (if start + 3 + 3 > msg.length then
          false
        else
          Velocitas.Checksum.compute (msg.take start) = Velocitas.Checksum.stated msg (start + 3)) := by
  unfold checksumMatches
  apply (Computes.arith _).bind
  apply (Computes.range (Nat.zero_le _) h).bind_of_true
  apply (computes_compute _).bind_of_true
  dsimp only
  split
  . next hlt => exact (Computes.pure false).congr (by simp; omega)
  . next hle =>
    have hstated := @computes_stated msg (start + 3) (by omega)
    apply Computes.congr
    . apply hstated.bind
      exact .pure _
    . simp only [and_true]
      constructor
      . intro hfit _
        exact hfit
      . intro hfit
        exact hfit (by omega)

theorem trailerStart_le (msg : Bytes) (n : Nat) : Velocitas.Checksum.trailerStart msg n ≤ n := by
  induction n with
  | zero => apply Nat.le_refl
  | succ n ih =>
    unfold Velocitas.Checksum.trailerStart
    split
    . apply Nat.le_refl
    . omega

theorem computes_validate (msg : Bytes)
    : Computes (fun build => validate build msg) (ValidateFits msg)
        (Velocitas.Checksum.validate msg) := by
  unfold validate Velocitas.Checksum.validate ValidateFits
  dsimp only
  by_cases hlen : msg.length < 7
  . rw [if_pos hlen]
    simp only [if_pos hlen]
    exact (Computes.pure false).congr (by simp; omega)
  . rw [if_neg hlen]
    simp only [if_neg hlen]
    have hle := trailerStart_le msg (msg.length - 4)
    apply (Computes.sub (by omega)).bind_of_true
    apply (computes_trailerStart (by omega)).bind_of_true
    apply (computes_trailerFound (by omega) _).bind_of_true
    generalize Velocitas.Checksum.trailerStart msg (msg.length - 4) = start at hle
    by_cases hfound : (decide (start = 0) && !Velocitas.Checksum.startsWithTrailer msg) = true
    . rw [if_pos hfound]
      simp only [hfound, Bool.not_true, Bool.false_eq_true, ↓reduceIte]
      apply (Computes.pure false).congr
      simp only [Bool.and_eq_true, decide_eq_true_eq, Bool.not_eq_true'] at hfound
      simp [hfound]
    . rw [if_neg hfound]
      simp only [hfound, Bool.not_false, ↓reduceIte]
      apply (computes_checksumMatches (by omega)).congr
      simp only [Bool.and_eq_true, decide_eq_true_eq, Bool.not_eq_true', not_and] at hfound
      by_cases hzero : start = 0
      . simp [hzero, hfound hzero]
        omega
      . simp only [hzero, false_implies, true_and]
        constructor
        . intro h _ _ hfits
          exact h.2 hfits
        . intro h
          exact ⟨by omega, h (by omega) (by omega)⟩

end Checksum

end Checked

namespace Checksum

-- The loop over four bytes at a time stays inside the slice and is the plain sum.
theorem compute_exact
    : (∀ data, Checked.Checksum.compute data = .ok (compute data)
          ∧ (compute data).toNat = byteSum data % 256)
        ∧ ∀ xs ys, (compute (xs ++ ys)).toNat
            = ((compute xs).toNat + (compute ys).toNat) % 256 := by
  constructor
  . intro data
    exact ⟨(Checked.Checksum.computes_compute data).release, compute_toNat data⟩
  . intro xs ys
    rw [compute_toNat, compute_toNat, compute_toNat, byteSum_append, Nat.add_mod]

end Checksum

end Velocitas
