import VelocitasFix.Simd.Impl

/-!
This module contains the proof that the searches and counts in blocks are the ones byte by byte: the
matches of a block are those of its bytes, and the loop goes on where the block ends.
-/

namespace Velocitas

namespace Simd

open Lanes

variable {buf : Bytes} {needle : UInt8}

theorem findTail_eq (buf : Bytes) (needle : UInt8) (i : Nat)
    : findTail buf needle i = (findByteScalar (buf.drop i) needle).map (i + ·) := by
  fun_induction findTail buf needle i with
  | case1 i h heq =>
    rw [List.drop_eq_getElem_cons h, findByteScalar, List.findIdx?_cons, decide_eq_true heq]
    rfl
  | case2 i h hne ih =>
    rw [ih, List.drop_eq_getElem_cons h, findByteScalar, findByteScalar, List.findIdx?_cons,
      decide_eq_false hne, if_neg Bool.false_ne_true, Option.map_map]
    congr 1
    funext j
    simp only [Function.comp_apply]
    omega
  | case3 i h =>
    rw [List.drop_eq_nil_of_le (Nat.le_of_not_lt h)]
    rfl

theorem countTail_eq (buf : Bytes) (needle : UInt8) (i total : Nat)
    : countTail buf needle i total = total + countByteScalar (buf.drop i) needle := by
  fun_induction countTail buf needle i total with
  | case1 i total h heq ih =>
    rw [ih, List.drop_eq_getElem_cons h, countByteScalar, countByteScalar,
      List.filter_cons_of_pos (by simpa using heq), List.length_cons]
    omega
  | case2 i total h hne ih =>
    rw [ih, List.drop_eq_getElem_cons h, countByteScalar, countByteScalar,
      List.filter_cons_of_neg (by simpa using hne)]
  | case3 i total h =>
    rw [List.drop_eq_nil_of_le (Nat.le_of_not_lt h)]
    rfl

theorem drop_eq_load {offset : Nat} (h : offset + 16 ≤ buf.length)
    : buf.drop offset = (U8x16.load buf offset h).lanes ++ buf.drop (offset + 16) := by
  rw [← List.drop_drop]
  exact (List.take_append_drop 16 _).symm

theorem findBlocks_eq {first : U8x16 → Option Nat}
    (hfirst : ∀ chunk, first chunk = (chunk.found needle).findIdx? id) (offset : Nat)
    : findBlocks first buf needle offset
        = (findByteScalar (buf.drop offset) needle).map (offset + ·) := by
  fun_induction findBlocks first buf needle offset with
  | case1 offset h i hi =>
    rw [hfirst, U8x16.found, List.findIdx?_map] at hi
    rw [drop_eq_load h, findByteScalar, List.findIdx?_append]
    change List.findIdx? (fun b => decide (b = needle)) _ = _ at hi
    rw [hi]
    rfl
  | case2 offset h hnone ih =>
    rw [hfirst, U8x16.found, List.findIdx?_map] at hnone
    rw [ih, drop_eq_load h, findByteScalar, findByteScalar, List.findIdx?_append]
    change List.findIdx? (fun b => decide (b = needle)) _ = _ at hnone
    rw [hnone, Option.none_or, Option.map_map, U8x16.length_eq]
    congr 1
    funext j
    simp only [Function.comp_apply]
    omega
  | case3 offset h => exact findTail_eq buf needle offset

theorem countBlocks_eq {ones : U8x16 → Nat}
    (hones : ∀ chunk, ones chunk = (chunk.found needle).count true) (offset total : Nat)
    : countBlocks ones buf needle offset total
        = total + countByteScalar (buf.drop offset) needle := by
  fun_induction countBlocks ones buf needle offset total with
  | case1 offset total h ih =>
    have hcount (x : U8x16) : countByteScalar x.lanes needle = (x.found needle).count true := by
      rw [countByteScalar, U8x16.found, ← List.countP_eq_length_filter, List.count, List.countP_map]
      congr 1
      funext b
      simp
    rw [ih, hones, drop_eq_load h, ← hcount, countByteScalar, countByteScalar, countByteScalar,
      List.filter_append, List.length_append, Nat.add_assoc]
  | case2 offset total h => exact countTail_eq buf needle offset total

theorem firstSse2_eq (needle : UInt8) (chunk : U8x16)
    : firstSse2 needle chunk = (chunk.found needle).findIdx? id := by
  have hspreads := chunk.spreads_movemask needle
  unfold firstSse2
  dsimp only
  split
  . next hne => rw [hspreads.findIdx?_eq (by omega) hne, Nat.div_one]
  . next hzero =>
    rw [not_not] at hzero
    rw [hzero] at hspreads
    exact (hspreads.findIdx?_of_zero (by omega)).symm

theorem firstNeon_eq (needle : UInt8) (chunk : U8x16)
    : firstNeon needle chunk = (chunk.found needle).findIdx? id := by
  have hlo := chunk.spreads_u64Lane needle 0
  have hhi := chunk.spreads_u64Lane needle 1
  have hlen := chunk.length_found needle
  rw [Nat.mul_zero, List.drop_zero] at hlo
  rw [Nat.mul_one, List.take_of_length_le (by rw [List.length_drop]; omega)] at hhi
  have hsplit : (chunk.found needle).findIdx? id
      = (((chunk.found needle).take 8).findIdx? id).or
        ((((chunk.found needle).drop 8).findIdx? id).map (· + 8)) := by
    have happend := @List.findIdx?_append _ ((chunk.found needle).take 8)
      ((chunk.found needle).drop 8) id
    rw [List.take_append_drop, List.length_take, hlen] at happend
    exact happend
  unfold firstNeon
  dsimp only
  rw [hsplit]
  split
  . next hne => rw [hlo.findIdx?_eq (by omega) hne, Option.some_or]
  . next hzero =>
    rw [not_not] at hzero
    rw [hzero] at hlo
    rw [hlo.findIdx?_of_zero (by omega), Option.none_or]
    split
    . next hne =>
      rw [hhi.findIdx?_eq (by omega) hne, Option.map_some, Nat.add_comm]
    . next hzero' =>
      rw [not_not] at hzero'
      rw [hzero'] at hhi
      rw [hhi.findIdx?_of_zero (by omega), Option.map_none]

theorem onesSse2_eq (needle : UInt8) (chunk : U8x16)
    : onesSse2 needle chunk = (chunk.found needle).count true :=
  (chunk.spreads_movemask needle).toNat_cpop (by rw [chunk.length_found]; omega)

theorem onesNeon_eq (needle : UInt8) (chunk : U8x16)
    : onesNeon needle chunk = (chunk.found needle).count true :=
  chunk.toNat_addAcross needle

theorem vectorised_eq_scalar (buf : Bytes) (needle : UInt8)
    : findByteSse2 buf needle = findByteScalar buf needle
        ∧ findByteNeon buf needle = findByteScalar buf needle
        ∧ countByteSse2 buf needle = countByteScalar buf needle
        ∧ countByteNeon buf needle = countByteScalar buf needle := by
  have hfind {first : U8x16 → Option Nat}
      (hfirst : ∀ chunk, first chunk = (chunk.found needle).findIdx? id)
      : findBlocks first buf needle 0 = findByteScalar buf needle := by
    rw [findBlocks_eq hfirst, List.drop_zero]
    simp
  have hcount {ones : U8x16 → Nat}
      (hones : ∀ chunk, ones chunk = (chunk.found needle).count true)
      : countBlocks ones buf needle 0 0 = countByteScalar buf needle := by
    rw [countBlocks_eq hones, List.drop_zero, Nat.zero_add]
  exact ⟨hfind (firstSse2_eq needle), hfind (firstNeon_eq needle), hcount (onesSse2_eq needle),
    hcount (onesNeon_eq needle)⟩

end Simd

end Velocitas
