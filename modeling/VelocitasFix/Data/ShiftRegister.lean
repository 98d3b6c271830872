import Mathlib.Data.List.Infix
import Mathlib.Algebra.Group.Nat.Defs

/-!
This module contains linear feedback shift registers that shift to the right and take their input a
word at a time. Everything they do is linear in `^^^`, and that is what makes them notice a burst of
errors.
-/

namespace ShiftRegister

variable {w k : Nat} {poly : BitVec w}

def step (poly r : BitVec w) : BitVec w :=
  if r.getLsbD 0 then
    (r >>> 1) ^^^ poly
  else
    r >>> 1

def steps (poly : BitVec w) : Nat → BitVec w → BitVec w
  | 0, r => r
  | n + 1, r => steps poly n (step poly r)

def feed (poly r : BitVec w) (x : BitVec k) : BitVec w :=
  steps poly k (r ^^^ x.setWidth w)

theorem xor_xor_xor_comm (a b c d : BitVec w) : a ^^^ b ^^^ (c ^^^ d) = a ^^^ c ^^^ (b ^^^ d) := by
  ac_rfl

theorem step_xor (r s : BitVec w) : step poly (r ^^^ s) = step poly r ^^^ step poly s := by
  unfold step
  rw [BitVec.getLsbD_xor, BitVec.ushiftRight_xor_distrib]
  cases r.getLsbD 0 with
  | false =>
    cases s.getLsbD 0 with
    | false => rfl
    | true => apply BitVec.xor_assoc
  | true =>
    cases s.getLsbD 0 with
    | false =>
      show r >>> 1 ^^^ s >>> 1 ^^^ poly = r >>> 1 ^^^ poly ^^^ s >>> 1
      ac_rfl
    | true =>
      show r >>> 1 ^^^ s >>> 1 = r >>> 1 ^^^ poly ^^^ (s >>> 1 ^^^ poly)
      rw [xor_xor_xor_comm, BitVec.xor_self, BitVec.xor_zero]

theorem step_zero : step poly 0#w = 0#w := by
  unfold step
  simp

-- The bit that leaves the register comes back at the other end, so no step forgets anything.
theorem eq_zero_of_step (hpoly : poly.msb = true) {r : BitVec w} (h : step poly r = 0#w)
    : r = 0#w := by
  unfold step at h
  split at h
  . have heq := BitVec.xor_eq_zero_iff.mp h
    have hmsb : (r >>> 1).msb = false := by simp [BitVec.msb_ushiftRight]
    rw [heq, hpoly] at hmsb
    contradiction
  . rename_i hlow
    apply BitVec.eq_of_getLsbD_eq
    intro i hi
    cases i with
    | zero => simpa using hlow
    | succ i =>
      have hbit := congrArg (fun s => s.getLsbD i) h
      simpa [Nat.add_comm] using hbit

theorem steps_xor (n : Nat) (r s : BitVec w)
    : steps poly n (r ^^^ s) = steps poly n r ^^^ steps poly n s := by
  induction n generalizing r s with
  | zero => rfl
  | succ n ih => rw [steps, step_xor, ih, steps, steps]

theorem steps_zero (n : Nat) : steps poly n 0#w = 0#w := by
  induction n with
  | zero => rfl
  | succ n ih => rw [steps, step_zero, ih]

theorem steps_add (m n : Nat) (r : BitVec w)
    : steps poly (m + n) r = steps poly n (steps poly m r) := by
  induction m generalizing r with
  | zero => rw [Nat.zero_add, steps]
  | succ m ih => rw [Nat.succ_add, steps, ih, steps]

theorem eq_zero_of_steps (hpoly : poly.msb = true) {n : Nat} {r : BitVec w}
    (h : steps poly n r = 0#w)
    : r = 0#w := by
  induction n generalizing r with
  | zero => exact h
  | succ n ih => exact eq_zero_of_step hpoly (ih h)

-- As long as zeros leave the register it does nothing but shift.
theorem steps_shiftLeft (n : Nat) {r : BitVec w} (h : r.toNat * 2 ^ n < 2 ^ w)
    : steps poly n (r <<< n) = r := by
  induction n with
  | zero => rw [steps, BitVec.shiftLeft_zero]
  | succ n ih =>
    have hpow : r.toNat * 2 ^ (n + 1) = 2 * (r.toNat * 2 ^ n) := by
      rw [Nat.pow_succ, Nat.mul_comm _ 2, Nat.mul_left_comm]
    have hshift : step poly (r <<< (n + 1)) = r <<< n := by
      have hlow : (r <<< (n + 1)).getLsbD 0 = false := by simp
      rw [step, hlow, if_neg (by decide)]
      apply BitVec.eq_of_toNat_eq
      rw [BitVec.toNat_ushiftRight, BitVec.toNat_shiftLeft, BitVec.toNat_shiftLeft,
        Nat.shiftLeft_eq, Nat.shiftLeft_eq, Nat.mod_eq_of_lt h, Nat.mod_eq_of_lt (by omega),
        Nat.shiftRight_eq_div_pow, hpow]
      omega
    rw [steps, hshift, ih (by omega)]

-- The words one after the other, the first one in the lowest bits.
def word : List (BitVec k) → BitVec w
  | [] => 0#w
  | x :: xs => x.setWidth w ^^^ (word xs <<< k)

theorem toNat_word_lt (xs : List (BitVec k)) : (word xs : BitVec w).toNat < 2 ^ (k * xs.length) := by
  induction xs with
  | nil => simp [word]
  | cons x xs ih =>
    have hlt : 2 ^ (k * (x :: xs).length) = 2 ^ (k * xs.length) * 2 ^ k := by
      rw [List.length_cons, Nat.mul_succ, Nat.pow_add]
    rw [word, BitVec.toNat_xor]
    apply Nat.xor_lt_two_pow
    . rw [BitVec.toNat_setWidth]
      apply Nat.lt_of_le_of_lt (Nat.mod_le _ _)
      apply Nat.lt_of_lt_of_le x.isLt
      apply Nat.pow_le_pow_right (by decide)
      rw [List.length_cons, Nat.mul_succ]
      apply Nat.le_add_left
    . rw [BitVec.toNat_shiftLeft, Nat.shiftLeft_eq, hlt]
      apply Nat.lt_of_le_of_lt (Nat.mod_le _ _)
      exact (Nat.mul_lt_mul_right (Nat.two_pow_pos k)).mpr ih

theorem steps_word_shiftLeft {xs : List (BitVec k)} (h : k * (xs.length + 1) ≤ w)
    : steps poly k (word xs <<< k) = word xs := by
  apply steps_shiftLeft
  apply Nat.lt_of_lt_of_le ((Nat.mul_lt_mul_right (Nat.two_pow_pos k)).mpr (toNat_word_lt xs))
  rw [← Nat.pow_add, ← Nat.mul_succ]
  exact Nat.pow_le_pow_right (by decide) h

-- Two inputs that differ leave a difference behind, that of the inputs shifted through the register.
theorem foldl_feed_xor {xs ys : List (BitVec k)} {r s : BitVec w} (hlen : xs.length = ys.length)
    (hfit : k * xs.length ≤ w)
    : xs.foldl (feed poly) r ^^^ ys.foldl (feed poly) s
        = steps poly (k * xs.length) (r ^^^ s ^^^ word (List.zipWith (. ^^^ .) xs ys)) := by
  induction xs generalizing ys r s with
  | nil =>
    rw [List.length_eq_zero_iff.mp hlen.symm]
    simp [word, steps]
  | cons x xs ih =>
    cases ys with
    | nil => contradiction
    | cons y ys =>
      rw [List.length_cons, List.length_cons, Nat.add_right_cancel_iff] at hlen
      have hshorter : k * xs.length ≤ w := by
        rw [List.length_cons, Nat.mul_succ] at hfit
        omega
      have hzip : (List.zipWith (. ^^^ .) xs ys).length = xs.length := by
        rw [List.length_zipWith, hlen, Nat.min_self]
      have hword := @steps_word_shiftLeft w k poly (List.zipWith (. ^^^ .) xs ys)
        (by rw [hzip]; exact hfit)
      have hfirst : feed poly r x ^^^ feed poly s y
          = steps poly k (r ^^^ s ^^^ (x ^^^ y).setWidth w) := by
        rw [feed, feed, ← steps_xor, BitVec.setWidth_xor, xor_xor_xor_comm]
      rw [List.foldl_cons, List.foldl_cons, ih hlen hshorter, hfirst, List.zipWith_cons_cons, word,
        List.length_cons, Nat.mul_succ, Nat.add_comm, steps_add, ← BitVec.xor_assoc,
        steps_xor k _ (word _ <<< k), hword]

theorem forall_of_word_eq_zero {xs : List (BitVec k)} (hfit : k * xs.length ≤ w)
    (h : (word xs : BitVec w) = 0#w)
    : ∀ x ∈ xs, x = 0#k := by
  induction xs with
  | nil => simp
  | cons x xs ih =>
    rw [List.length_cons] at hfit
    have hk : k ≤ w := Nat.le_trans (Nat.le_mul_of_pos_right k (Nat.succ_pos _)) hfit
    rw [word, BitVec.xor_eq_zero_iff] at h
    -- The one stands in the lowest `k` bits only, the other one in all but those.
    have hx : x = 0#k := by
      have hlow := congrArg (BitVec.setWidth k) h
      rw [BitVec.setWidth_setWidth_of_le _ hk, BitVec.setWidth_eq] at hlow
      rw [hlow]
      apply BitVec.eq_of_getLsbD_eq
      intro i hi
      simp [hi]
    have hxs : (word xs : BitVec w) = 0#w := by
      rw [hx, BitVec.setWidth_zero] at h
      rw [← @steps_word_shiftLeft w k 0#w xs hfit, ← h, steps_zero]
    intro y hy
    cases List.mem_cons.mp hy with
    | inl heq => rw [heq, hx]
    | inr hmem =>
      apply ih _ hxs y hmem
      exact Nat.le_trans (Nat.mul_le_mul_left k (Nat.le_succ _)) hfit

theorem foldl_feed_injective (hpoly : poly.msb = true) (xs : List (BitVec k)) {r s : BitVec w}
    (h : xs.foldl (feed poly) r = xs.foldl (feed poly) s)
    : r = s := by
  induction xs generalizing r s with
  | nil => exact h
  | cons x xs ih =>
    have hfeed : feed poly r x = feed poly s x := ih h
    rw [feed, feed, ← BitVec.xor_eq_zero_iff, ← steps_xor] at hfeed
    have hzero := eq_zero_of_steps hpoly hfeed
    rwa [xor_xor_xor_comm, BitVec.xor_self, BitVec.xor_zero, BitVec.xor_eq_zero_iff] at hzero

-- The two differ in at most `width` consecutive places.
def DifferWithin {α : Type} (width : Nat) (xs ys : List α) : Prop :=
  xs.length = ys.length ∧ ∃ start, ∀ i, i < start ∨ start + width ≤ i → xs[i]? = ys[i]?

theorem split_of_differWithin {α : Type} {width : Nat} {xs ys : List α}
    (h : DifferWithin width xs ys)
    : ∃ before us vs after, xs = before ++ us ++ after ∧ ys = before ++ vs ++ after
        ∧ us.length = vs.length ∧ us.length ≤ width := by
  cases h with
  | intro hlen h =>
    cases h with
    | intro start hsame =>
      have htake : ys.take start = xs.take start := by
        apply List.ext_getElem?
        intro i
        rw [List.getElem?_take, List.getElem?_take]
        split
        . rename_i hi
          exact (hsame i (Or.inl hi)).symm
        . rfl
      have hdrop : ys.drop (start + width) = xs.drop (start + width) := by
        apply List.ext_getElem?
        intro i
        rw [List.getElem?_drop, List.getElem?_drop]
        exact (hsame _ (Or.inr (Nat.le_add_right _ i))).symm
      have hsplit (zs : List α)
          : zs.take start ++ (zs.drop start).take width ++ zs.drop (start + width) = zs := by
        rw [List.append_assoc, ← List.drop_drop, List.take_append_drop, List.take_append_drop]
      refine ⟨xs.take start, (xs.drop start).take width, (ys.drop start).take width,
        xs.drop (start + width), (hsplit xs).symm, ?_, ?_, List.length_take_le _ _⟩
      . rw [← htake, ← hdrop, hsplit]
      . rw [List.length_take, List.length_take, List.length_drop, List.length_drop, hlen]

theorem differWithin_append {α : Type} {width : Nat} (before after : List α) {us vs : List α}
    (hlen : us.length = vs.length) (hle : us.length ≤ width)
    : DifferWithin width (before ++ us ++ after) (before ++ vs ++ after) := by
  refine ⟨by simp [hlen], before.length, ?_⟩
  intro i hi
  rw [List.append_assoc, List.append_assoc]
  cases hi with
  | inl hi => rw [List.getElem?_append_left hi, List.getElem?_append_left hi]
  | inr hi =>
    rw [List.getElem?_append_right (by omega), List.getElem?_append_right (by omega),
      List.getElem?_append_right (by omega), List.getElem?_append_right (by omega), hlen]

/-
Two inputs that differ in a window no wider than the register, and nowhere else, lead to different
states.
-/
theorem eq_of_foldl_feed_eq (hpoly : poly.msb = true) {width : Nat} (hwidth : k * width ≤ w)
    {xs ys : List (BitVec k)} {r : BitVec w} (hdiffer : DifferWithin width xs ys)
    (h : xs.foldl (feed poly) r = ys.foldl (feed poly) r)
    : xs = ys := by
  obtain ⟨before, us, vs, after, rfl, rfl, hlen, hle⟩ := split_of_differWithin hdiffer
  rw [List.foldl_append, List.foldl_append, List.foldl_append, List.foldl_append] at h
  have hwindow := foldl_feed_injective hpoly after h
  have hfit : k * us.length ≤ w := Nat.le_trans (Nat.mul_le_mul_left k hle) hwidth
  rw [← BitVec.xor_eq_zero_iff, foldl_feed_xor hlen hfit, BitVec.xor_self,
    BitVec.zero_xor] at hwindow
  have hzip : (List.zipWith (. ^^^ .) us vs).length = us.length := by
    rw [List.length_zipWith, hlen, Nat.min_self]
  have hzero := forall_of_word_eq_zero (by rw [hzip]; exact hfit) (eq_zero_of_steps hpoly hwindow)
  have heq : us = vs := by
    apply List.ext_getElem hlen
    intro i hu hv
    apply BitVec.xor_eq_zero_iff.mp
    apply hzero
    rw [List.mem_iff_getElem]
    refine ⟨i, by rw [hzip]; exact hu, ?_⟩
    rw [List.getElem_zipWith]
  rw [heq]

end ShiftRegister
