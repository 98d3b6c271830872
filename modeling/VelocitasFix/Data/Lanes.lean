import VelocitasFix.Data.LittleEndian
import Mathlib.Data.UInt

/-!
This module contains vectors of sixteen bytes with the instructions that compare all of their bytes at
once, and what the position of the lowest bit and the number of bits of the result say about the first
match and the number of matches.
-/

namespace Lanes

-- A word in which every Boolean of a list fills `k` bits, the first one the lowest.
def Spreads {w : Nat} (k : Nat) (bs : List Bool) (x : BitVec w) : Prop :=
  ∀ i, x.getLsbD i = bs.getD (i / k) false

section Spreads

variable {w k : Nat} {bs : List Bool} {x : BitVec w}

theorem getD_eq_true_iff {i : Nat} : bs.getD i false = true ↔ bs[i]? = some true := by
  rw [List.getD_eq_getElem?_getD]
  cases bs[i]? with
  | none => simp
  | some b => simp

-- The lowest bit belongs to the first Boolean that is true.
theorem Spreads.findIdx?_eq (h : Spreads k bs x) (hk : 0 < k) (hne : x ≠ 0#w)
    : bs.findIdx? id = some (x.ctz.toNat / k) := by
  have hbit := BitVec.getLsbD_true_ctz_of_ne_zero hne
  rw [h, getD_eq_true_iff] at hbit
  obtain ⟨hlt, hfound⟩ := List.getElem?_eq_some_iff.mp hbit
  rw [List.findIdx?_eq_some_iff_getElem]
  refine ⟨hlt, hfound, ?_⟩
  intro j hj
  have hbefore : k * j < x.ctz.toNat := by
    have hmul := Nat.mul_div_le x.ctz.toNat k
    have hlt := Nat.mul_lt_mul_of_pos_left hj hk
    omega
  have hzero := BitVec.getLsbD_false_of_lt_ctz hbefore
  rw [h, Nat.mul_div_cancel_left j hk, List.getD_eq_getElem?_getD,
    List.getElem?_eq_getElem (by omega), Option.getD_some] at hzero
  simp [hzero]

theorem Spreads.findIdx?_of_zero (h : Spreads k bs 0#w) (hk : 0 < k) : bs.findIdx? id = none := by
  rw [List.findIdx?_eq_none_iff]
  intro b hb
  obtain ⟨j, hj, rfl⟩ := List.getElem_of_mem hb
  have hzero := h (k * j)
  rw [BitVec.getLsbD_zero, Nat.mul_div_cancel_left j hk, List.getD_eq_getElem?_getD,
    List.getElem?_eq_getElem hj, Option.getD_some] at hzero
  exact hzero.symm

theorem Spreads.cpopNatRec_eq (h : Spreads 1 bs x) (n : Nat)
    : x.cpopNatRec n 0 = (bs.take n).count true := by
  induction n with
  | zero => rfl
  | succ n ih =>
    rw [BitVec.cpopNatRec_succ, BitVec.cpopNatRec_eq, ih, h, Nat.div_one, List.take_add_one,
      List.count_append, List.getD_eq_getElem?_getD, Nat.zero_add]
    cases bs[n]? with
    | none => rfl
    | some b =>
      cases b with
      | false => rfl
      | true => rfl

theorem Spreads.toNat_cpop (h : Spreads 1 bs x) (hlen : bs.length ≤ w)
    : x.cpop.toNat = bs.count true := by
  have hcount := List.count_le_length (a := true) (l := bs)
  have hpow := Nat.lt_two_pow_self (n := w)
  rw [BitVec.cpop, h.cpopNatRec_eq, List.take_of_length_le hlen, BitVec.toNat_ofNat,
    Nat.mod_eq_of_lt (by omega)]

end Spreads

-- What a comparison leaves of a byte that is equal and of one that is not.
def filled (b : Bool) : UInt8 := if b then 0xFF else 0

theorem toNat_filled (b : Bool) : (filled b).toNat = if b then 2 ^ 8 - 1 else 0 := by
  cases b with
  | false => rfl
  | true => rfl

theorem testBit_decode_filled (bs : List Bool) (i : Nat)
    : (LittleEndian.decode (bs.map filled)).testBit i = bs.getD (i / 8) false := by
  induction bs generalizing i with
  | nil => simp [LittleEndian.decode]
  | cons b bs ih =>
    have hlt : (filled b).toNat < 2 ^ 8 := (filled b).toNat_lt
    rw [List.map_cons, LittleEndian.decode, Nat.add_comm,
      Nat.testBit_two_pow_mul_add (i := 8) _ hlt, ih, toNat_filled]
    by_cases hi : i < 8
    . have hfirst : i / 8 = 0 := by omega
      rw [if_pos hi, hfirst, List.getD_cons_zero]
      cases b with
      | false => simp
      | true => rw [if_pos rfl, Nat.testBit_two_pow_sub_one, decide_eq_true hi]
    . have hnext : i / 8 = (i - 8) / 8 + 1 := by omega
      rw [if_neg hi, hnext, List.getD_cons_succ]

theorem zipWith_replicate (as : Bytes) (b : UInt8)
    : List.zipWith (fun a b => if a = b then 0xFF else 0) as (List.replicate as.length b)
        = (as.map fun a => decide (a = b)).map filled := by
  induction as with
  | nil => rfl
  | cons a as ih =>
    rw [List.length_cons, List.replicate_succ, List.zipWith_cons_cons, ih]
    simp [filled]

theorem toNat_foldl_ones {bs : List Bool} {acc : UInt8} (h : acc.toNat + bs.length < 256)
    : (((bs.map filled).map fun c => c >>> (7 : UInt8)).foldl (· + ·) acc).toNat
        = acc.toNat + bs.count true := by
  induction bs generalizing acc with
  | nil => rfl
  | cons b bs ih =>
    rw [List.length_cons] at h
    rw [List.map_cons, List.map_cons, List.foldl_cons]
    cases b with
    | false =>
      have hshift : filled false >>> 7 = 0 := rfl
      rw [hshift, UInt8.add_zero, ih (by omega)]
      simp
    | true =>
      have hshift : filled true >>> 7 = 1 := rfl
      have hnext : (acc + 1).toNat = acc.toNat + 1 := by
        rw [UInt8.toNat_add]
        change (acc.toNat + 1) % 256 = acc.toNat + 1
        omega
      rw [hshift, ih (by omega), hnext, List.count_cons_self]
      omega

end Lanes

structure U8x16 where
  lanes : Bytes
  length_eq : lanes.length = 16

namespace U8x16

open Lanes

def splat (b : UInt8) : U8x16 where
  lanes := List.replicate 16 b
  length_eq := List.length_replicate

def load (buf : Bytes) (offset : Nat) (h : offset + 16 ≤ buf.length) : U8x16 where
  lanes := (buf.drop offset).take 16
  length_eq := by
    rw [List.length_take, List.length_drop]
    omega

def cmpeq (x y : U8x16) : U8x16 where
  lanes := List.zipWith (fun a b => if a = b then 0xFF else 0) x.lanes y.lanes
  length_eq := by
    rw [List.length_zipWith, x.length_eq, y.length_eq]
    rfl

-- The highest bit of each byte.
def movemask (x : U8x16) : BitVec 32 :=
  (BitVec.ofBoolListLE (x.lanes.map (·.toBitVec.msb))).setWidth 32

def u64Lane (x : U8x16) (i : Nat) : BitVec 64 :=
  BitVec.ofNat 64 (LittleEndian.decode ((x.lanes.drop (8 * i)).take 8))

def shiftRight (x : U8x16) (n : UInt8) : U8x16 where
  lanes := x.lanes.map (· >>> n)
  length_eq := by
    rw [List.length_map]
    exact x.length_eq

-- The sum of the bytes, which wraps around.
def addAcross (x : U8x16) : UInt8 := x.lanes.foldl (· + ·) 0

-- The bytes of the vector that are equal to a given one.
def found (x : U8x16) (b : UInt8) : List Bool := x.lanes.map fun a => decide (a = b)

theorem length_found (x : U8x16) (b : UInt8) : (x.found b).length = 16 := by
  rw [found, List.length_map, x.length_eq]

theorem lanes_cmpeq_splat (x : U8x16) (b : UInt8)
    : (x.cmpeq (splat b)).lanes = (x.found b).map filled := by
  have hzip := zipWith_replicate x.lanes b
  rw [x.length_eq] at hzip
  exact hzip

theorem spreads_movemask (x : U8x16) (b : UInt8)
    : Spreads 1 (x.found b) (x.cmpeq (splat b)).movemask := by
  have hmsb (c : Bool) : (filled c).toBitVec.msb = c := by
    cases c with
    | false => rfl
    | true => rfl
  intro i
  have hbits : ((x.cmpeq (splat b)).lanes.map (·.toBitVec.msb)) = x.found b := by
    rw [lanes_cmpeq_splat, List.map_map]
    exact List.map_id'' hmsb _
  rw [movemask, BitVec.getLsbD_setWidth, BitVec.getLsbD_ofBoolListLE, hbits, Nat.div_one]
  by_cases hi : i < 32
  . simp [hi]
  . have hlen := x.length_found b
    simp [hi, List.getElem?_eq_none (by omega : (x.found b).length ≤ i)]

theorem spreads_u64Lane (x : U8x16) (b : UInt8) (i : Nat)
    : Spreads 8 (((x.found b).drop (8 * i)).take 8) ((x.cmpeq (splat b)).u64Lane i) := by
  intro j
  rw [u64Lane, BitVec.getLsbD_ofNat, lanes_cmpeq_splat, ← List.map_drop, ← List.map_take,
    testBit_decode_filled]
  by_cases hj : j < 64
  . simp [hj]
  . have hlen : (((x.found b).drop (8 * i)).take 8).length ≤ j / 8 := by
      rw [List.length_take]
      omega
    simp [hj, List.getElem?_eq_none hlen]

-- Sixteen ones do not wrap around.
theorem toNat_addAcross (x : U8x16) (b : UInt8)
    : ((x.cmpeq (splat b)).shiftRight 7).addAcross.toNat = (x.found b).count true := by
  have hsum := @toNat_foldl_ones (x.found b) 0 (by rw [length_found]; decide)
  rw [← lanes_cmpeq_splat, UInt8.toNat_zero, Nat.zero_add] at hsum
  exact hsum

end U8x16
