import VelocitasFix.Checksum.Impl

/-!
This module contains what the checksum functions compute: the byte sum modulo 256, and the number
that a three digit checksum field denotes.
-/

namespace Velocitas

open Ascii

namespace Checksum

def byteSum (data : Bytes) : Nat := (data.map UInt8.toNat).sum

@[simp]
theorem byteSum_nil : byteSum [] = 0 := rfl

@[simp]
theorem byteSum_cons (b : UInt8) (data : Bytes) : byteSum (b :: data) = b.toNat + byteSum data := rfl

theorem byteSum_append (xs ys : Bytes) : byteSum (xs ++ ys) = byteSum xs + byteSum ys := by
  rw [byteSum, List.map_append, List.sum_append]
  rfl

theorem byteSum_set {data : Bytes} {i : Nat} (h : i < data.length) (b : UInt8)
    : byteSum (data.set i b) + data[i].toNat = byteSum data + b.toNat := by
  induction data generalizing i with
  | nil => simp at h
  | cons c data ih =>
    cases i with
    | zero =>
      simp only [List.set_cons_zero, byteSum_cons, List.getElem_cons_zero]
      omega
    | succ i =>
      rw [List.length_cons] at h
      have := @ih i (by omega)
      simp only [List.set_cons_succ, byteSum_cons, List.getElem_cons_succ]
      omega

theorem foldl_add_toNat (data : Bytes) (sum : UInt32)
    : (data.foldl (fun sum b => sum + b.toUInt32) sum).toNat
        = (sum.toNat + byteSum data) % 2 ^ 32 := by
  induction data generalizing sum with
  | nil =>
    have := sum.toNat_lt
    simp only [List.foldl_nil, byteSum_nil]
    omega
  | cons b data ih =>
    rw [List.foldl_cons, ih, byteSum_cons]
    simp only [UInt32.toNat_add, UInt8.toNat_toUInt32]
    omega

theorem compute_go_remainder (data : Bytes) (sum0 sum1 sum2 sum3 : UInt32)
    : (((data.foldl (fun sum b => sum + b.toUInt32) sum0 + sum1 + sum2 + sum3) % 256).toUInt8).toNat
        =
      (sum0.toNat + sum1.toNat + sum2.toNat + sum3.toNat + byteSum data) % 256 := by
  simp only [UInt32.toNat_toUInt8, UInt32.toNat_mod, UInt32.toNat_add, foldl_add_toNat,
    UInt32.reduceToNat]
  omega

theorem compute_go_toNat (data : Bytes) (sum0 sum1 sum2 sum3 : UInt32)
    : (compute.go data sum0 sum1 sum2 sum3).toNat
        =
      (sum0.toNat + sum1.toNat + sum2.toNat + sum3.toNat + byteSum data) % 256 := by
  fun_induction compute.go data sum0 sum1 sum2 sum3 with
  | case1 sum0 sum1 sum2 sum3 b0 b1 b2 b3 rest ih =>
    rw [ih]
    simp only [UInt32.toNat_add, UInt8.toNat_toUInt32, byteSum_cons]
    omega
  | case2 data sum0 sum1 sum2 sum3 _ sum =>
    exact compute_go_remainder data sum0 sum1 sum2 sum3

-- The four accumulators may wrap: 256 divides 2 ^ 32.
theorem compute_toNat (data : Bytes) : (compute data).toNat = byteSum data % 256 := by
  rw [compute, compute_go_toNat]
  simp

theorem stated_of_digits {b0 b1 b2 : UInt8} (h : AllDigits [b0, b1, b2]) (rest : Bytes)
    : (stated (b0 :: b1 :: b2 :: rest) 0).toNat = value [b0, b1, b2] % 256 := by
  simp only [allDigits_cons] at h
  simp only [stated, List.getD_cons_zero, List.getD_cons_succ, UInt8.toNat_add, UInt8.toNat_mul,
    h.1.toNat_sub, h.2.1.toNat_sub, h.2.2.1.toNat_sub, UInt8.reduceToNat, value, List.foldl_cons,
    List.foldl_nil]
  omega

theorem stated_append {bs : Bytes} (h : AllDigits bs) (hlen : bs.length = 3) (rest : Bytes)
    : (stated (bs ++ rest) 0).toNat = value bs % 256 := by
  match bs with
  | [b0, b1, b2] => exact stated_of_digits h rest

theorem format_eq_padded (checksum : UInt8) : format checksum = padded 3 checksum.toNat := by
  have hlt := checksum.toNat_lt
  simp only [padded, digit, List.nil_append, List.cons_append, format, List.cons.injEq, and_true]
  refine ⟨?_, ?_, ?_⟩
  all_goals
    apply UInt8.toNat_inj.mp
    simp only [UInt8.toNat_add, UInt8.toNat_div, UInt8.toNat_mod, UInt8.toNat_ofNat',
      UInt8.reduceToNat]
    omega

end Checksum

end Velocitas
