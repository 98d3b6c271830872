import VelocitasFix.Data.Fault
import VelocitasFix.Message.Integers
import VelocitasFix.Serializer.Lemmas

/-!
This module contains the loop that writes a number two digits at a time once more, with every index
and every machine operation of it checked, and the integers that the reader gets back from what the
writer has written.
-/

namespace Velocitas

open Ascii

namespace Checked

open Fault

namespace FixSerializer

def putPair (buf : Bytes) (i r : Nat) : Except Fault (Bytes × Nat) := do
  let i ← sub i 2
  let buf ← store buf i (← index FixSerializer.digitPairs (r * 2))
  let buf ← store buf (i + 1) (← index FixSerializer.digitPairs (r * 2 + 1))
  .ok (buf, i)

def putDigits (build : Build) (val : Nat) (buf : Bytes) (i : Nat) : Except Fault (Bytes × Nat) :=
  if 100 ≤ val then do
    let (buf, i) ← putPair buf i (val % 100)
    putDigits build (val / 100) buf i
  else if 10 ≤ val then
    putPair buf i val
  else do
    let i ← sub i 1
    let digit ← arith build (48 + val < 256) (48 + UInt8.ofNat val)
    let buf ← store buf i digit
    .ok (buf, i)
termination_by val

-- What `write_u32` and `write_u64` put behind the bytes written so far.
def digits (width : Nat) (build : Build) (val : Nat) : Except Fault Bytes :=
  if val = 0 then
    .ok [48]
  else do
    let (buf, i) ← putDigits build val (List.replicate width 0) width
    range buf i width

theorem index_digitPairs {k : Nat} (h : k < 200)
    : Computes (fun _ => index FixSerializer.digitPairs k) True
        (FixSerializer.digitPairs.getD k 0) := by
  have hlen : FixSerializer.digitPairs.length = 200 := by decide +kernel
  have hlt : k < FixSerializer.digitPairs.length := by omega
  rw [List.getD_eq_getElem?_getD, List.getElem?_eq_getElem hlt, Option.getD_some]
  exact .index hlt

theorem computes_putPair {buf : Bytes} {i r : Nat} {res : Bytes × Nat} (hlen : i ≤ buf.length)
    (hr : r < 100) (h : Velocitas.FixSerializer.putPair buf i r = some res)
    : Computes (fun _ => putPair buf i r) True res ∧ res.1.length = buf.length ∧ res.2 ≤ i := by
  unfold Velocitas.FixSerializer.putPair at h
  split at h
  . contradiction
  . next hi =>
    cases h
    refine ⟨?_, by simp, by omega⟩
    have hnext : i - 2 + 1 = i - 1 := by omega
    unfold putPair
    apply (Computes.sub (by omega)).bind_of_true
    apply (index_digitPairs (by omega)).bind_of_true
    apply (Computes.store (by omega) _).bind_of_true
    apply (index_digitPairs (by omega)).bind_of_true
    rw [hnext]
    apply (Computes.store (by simp; omega) _).bind_of_true
    exact .pure _

-- The position never leaves the scratch buffer, whichever way the last digits are written.
theorem computes_putDigits {val : Nat} {buf : Bytes} {i : Nat} {res : Bytes × Nat}
    (hlen : i ≤ buf.length) (h : Velocitas.FixSerializer.putDigits val buf i = some res)
    : Computes (fun build => putDigits build val buf i) True res ∧ res.1.length = buf.length
        ∧ res.2 ≤ i := by
  induction val using Nat.strongRecOn generalizing buf i with
  | ind val ih =>
    unfold Velocitas.FixSerializer.putDigits at h
    unfold putDigits
    split at h
    . next hle =>
      simp only [if_pos hle]
      cases hput : Velocitas.FixSerializer.putPair buf i (val % 100) with
      | none =>
        rw [hput] at h
        contradiction
      | some r =>
        rw [hput] at h
        obtain ⟨hpair, hlenPair, hlePair⟩ := computes_putPair hlen (Nat.mod_lt val (by omega)) hput
        obtain ⟨hrec, hlenRec, hleRec⟩ := ih (val / 100) (by omega) (by omega) h
        exact ⟨hpair.bind_of_true hrec, by omega, by omega⟩
    . next hlt =>
      simp only [if_neg hlt]
      split at h
      . next hle =>
        simp only [if_pos hle]
        exact computes_putPair hlen (by omega) h
      . next hone =>
        simp only [if_neg hone]
        split at h
        . contradiction
        . next hi =>
          cases h
          refine ⟨?_, by simp, by omega⟩
          apply (Computes.sub (by omega)).bind_of_true
          apply ((Computes.arith _).congr (iff_true_intro (by omega))).bind_of_true
          apply (Computes.store (by omega) _).bind_of_true
          exact .pure _

theorem computes_digits {width val : Nat} (hwidth : 0 < width) (h : val < 10 ^ width)
    : Computes (fun build => digits width build val) True (decimal val) := by
  unfold digits
  split
  . next hzero =>
    rw [hzero, decimal_of_lt (by omega)]
    exact .pure _
  . next hpos =>
    have hlen : (List.replicate width (0 : UInt8)).length = width := by simp
    obtain ⟨buf, i, hput, hdrop⟩ := Velocitas.FixSerializer.putDigits_eq (by omega)
      (length_decimal_le hwidth h) (Nat.le_of_eq hlen.symm)
    obtain ⟨hdigits, hlenBuf, hle⟩ := computes_putDigits (Nat.le_of_eq hlen.symm) hput
    rw [List.drop_eq_nil_of_le (Nat.le_of_eq hlen), List.append_nil] at hdrop
    dsimp only at hlenBuf hle
    have htake : (buf.drop i).take (width - i) = decimal val := by
      rw [List.take_of_length_le, hdrop]
      rw [List.length_drop]
      omega
    apply hdigits.bind_of_true
    rw [← htake]
    exact .range hle (by omega)

theorem digits_eq {width val : Nat} (hwidth : 0 < width) (h : val < 10 ^ width) (build : Build)
    : digits width build val = .ok (decimal val) :=
  (computes_digits hwidth h).eq_ok build

end FixSerializer

end Checked

namespace FixSerializer

theorem parseU64_decimal (val : UInt64) : MessageView.parseU64 (decimal val.toNat) = some val := by
  rw [MessageView.parseU64_of_denotes (denotes_decimal _), UInt64.ofNat_toNat]

theorem parseI64_signed (val : Int64) : MessageView.parseI64 (signed val.toInt) = some val := by
  rw [MessageView.parseI64_of_denotesSigned (denotesSigned_signed _), Int64.ofInt_toInt]

-- Each encoder writes the numeral that the checked loop computes, or panics for want of room.
theorem encoders_exact
    : (∀ val : UInt32, ∃ bs, Canonical bs val.toNat
          ∧ (∀ build, Checked.FixSerializer.digits 10 build val.toNat = .ok bs)
          ∧ (∀ s : FixSerializer, s.writeU32 val = s.writeBytes bs)
          ∧ MessageView.parseU64 bs = some val.toUInt64)
        ∧ (∀ val : UInt64, ∃ bs, Canonical bs val.toNat
          ∧ (∀ build, Checked.FixSerializer.digits 20 build val.toNat = .ok bs)
          ∧ (∀ s : FixSerializer, s.writeU64 val = s.writeBytes bs)
          ∧ MessageView.parseU64 bs = some val)
        ∧ ∀ val : Int64, ∃ bs, (∀ s : FixSerializer, s.writeI64 val = s.writeBytes bs)
          ∧ MessageView.parseI64 bs = some val := by
  refine ⟨?_, ?_, ?_⟩
  . intro val
    have hlt := val.toNat_lt
    refine ⟨decimal val.toNat, canonical_decimal _, ?_, fun s => s.writeU32_eq val, ?_⟩
    . exact Checked.FixSerializer.digits_eq (by omega) (by omega)
    . have hval := parseU64_decimal val.toUInt64
      rw [UInt32.toNat_toUInt64] at hval
      exact hval
  . intro val
    have hlt := val.toNat_lt
    refine ⟨decimal val.toNat, canonical_decimal _, ?_, fun s => s.writeU64_eq val, ?_⟩
    . exact Checked.FixSerializer.digits_eq (by omega) (by omega)
    . exact parseU64_decimal val
  . intro val
    exact ⟨signed val.toInt, fun s => s.writeI64_eq val, parseI64_signed val⟩

end FixSerializer

end Velocitas
