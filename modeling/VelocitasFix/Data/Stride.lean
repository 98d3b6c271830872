import Mathlib.Algebra.Order.Ring.Nat

/-!
This module contains slots of one size that lie one after the other in a block of memory, where the
offset of a slot and the length of the block are computed modulo the size of an address.
-/

namespace Stride

def offset (size modulus slot : Nat) : Nat := slot * size % modulus

def length (size modulus count : Nat) : Nat := size * count % modulus

structure Covers (size modulus count slot i : Nat) : Prop where
  within : offset size modulus slot + size ≤ length size modulus count
  ge : offset size modulus slot ≤ i
  lt : i < offset size modulus slot + size

variable {size modulus count : Nat}

theorem length_of_lt (h : size * count < modulus) : length size modulus count = size * count := by
  apply Nat.mod_eq_of_lt h

theorem offset_of_lt (h : size * count < modulus) {slot : Nat} (hslot : slot < count)
    : offset size modulus slot = slot * size := by
  apply Nat.mod_eq_of_lt
  calc slot * size
    _ ≤ count * size := Nat.mul_le_mul_right size hslot.le
    _ = size * count := Nat.mul_comm count size
    _ < modulus := h

theorem not_covers_of_slot_lt (h : size * count < modulus) {a b i : Nat} (hb : b < count)
    (hab : a < b) (ha : Covers size modulus count a i)
    : ¬Covers size modulus count b i := by
  intro hcovers
  have hlt := ha.lt
  have hge := hcovers.ge
  rw [offset_of_lt h (hab.trans hb)] at hlt
  rw [offset_of_lt h hb] at hge
  have hle : (a + 1) * size ≤ b * size := Nat.mul_le_mul_right size hab
  rw [Nat.succ_mul] at hle
  omega

-- Where the product wraps around, so does the offset of the first slot behind the wrap.
theorem exists_covers_offset (hsize : size < modulus) (h : modulus ≤ size * count)
    (hle : size ≤ length size modulus count)
    : ∃ slot, 0 < slot ∧ slot < count ∧ offset size modulus slot < size
        ∧ offset size modulus slot + size ≤ length size modulus count := by
  have hpos : 0 < size := by
    apply Nat.pos_of_ne_zero
    intro hzero
    rw [hzero, Nat.zero_mul] at h
    omega
  have hround : 1 ≤ size * count / modulus := (Nat.one_le_div_iff (by omega)).mpr h
  have hdiv := Nat.div_add_mod (size * count) modulus
  change modulus * (size * count / modulus) + length size modulus count = size * count at hdiv
  generalize size * count / modulus = rounds at hround hdiv
  have hwrap : modulus ≤ modulus * rounds := Nat.le_mul_of_pos_right modulus hround
  let slot := (modulus * rounds + (size - 1)) / size
  have hupper : slot * size ≤ modulus * rounds + (size - 1) := Nat.div_mul_le_self _ _
  have hlower : modulus * rounds ≤ slot * size := by
    have := Nat.lt_div_mul_add (a := modulus * rounds + (size - 1)) hpos
    change _ < slot * size + size at this
    omega
  have hoffset : offset size modulus slot = slot * size - modulus * rounds := by
    have hlt : slot * size - modulus * rounds < modulus := by omega
    have hsum : slot * size = slot * size - modulus * rounds + modulus * rounds := by omega
    rw [offset, hsum, Nat.add_mul_mod_self_left, Nat.mod_eq_of_lt hlt]
    omega
  have hcount : slot < count := by
    apply Nat.lt_of_mul_lt_mul_right (a := size)
    rw [Nat.mul_comm count]
    omega
  refine ⟨slot, ?_, hcount, ?_, ?_⟩
  . apply Nat.pos_of_mul_pos_right (b := size)
    omega
  . omega
  . have hnext : (slot + 1) * size ≤ count * size := Nat.mul_le_mul_right size hcount
    rw [Nat.succ_mul, Nat.mul_comm count] at hnext
    omega

theorem apart_iff (hsize : size < modulus)
    : (∀ a b, a < count → b < count → a ≠ b → ∀ i, Covers size modulus count a i →
          ¬Covers size modulus count b i)
        ↔
      size * count < modulus ∨ length size modulus count < size := by
  constructor
  . intro hapart
    by_contra hnot
    rw [not_or, Nat.not_lt, Nat.not_lt] at hnot
    obtain ⟨hover, hle⟩ := hnot
    obtain ⟨slot, hpos, hcount, hlt, hwithin⟩ := exists_covers_offset hsize hover hle
    have hzero : offset size modulus 0 = 0 := by simp [offset]
    apply hapart 0 slot (by omega) hcount (by omega) (offset size modulus slot)
    . exact ⟨by omega, by omega, by omega⟩
    . exact ⟨hwithin, by omega, by omega⟩
  . intro h a b ha hb hab i hcovers hcovers'
    cases h with
    | inl hlt =>
      cases Nat.lt_or_gt_of_ne hab with
      | inl hab => apply not_covers_of_slot_lt hlt hb hab hcovers hcovers'
      | inr hba => apply not_covers_of_slot_lt hlt ha hba hcovers' hcovers
    | inr hlt =>
      have := hcovers.within
      omega

end Stride
