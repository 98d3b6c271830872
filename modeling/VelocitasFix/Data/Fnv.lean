import VelocitasFix.Data.ShiftRegister

/-!
This module contains hashes that mix in one letter after the other. The hash of FNV-1a forgets nothing
of its state, and it keeps two texts apart that differ in three neighbouring bytes only.
-/

open ShiftRegister (DifferWithin split_of_differWithin)

namespace Mixing

variable {σ α : Type} {f : σ → α → σ}

theorem foldl_injective (hf : ∀ r s x, f r x = f s x → r = s) (xs : List α) {r s : σ}
    (h : xs.foldl f r = xs.foldl f s)
    : r = s := by
  induction xs generalizing r s with
  | nil => exact h
  | cons x xs ih => exact hf r s x (ih h)

-- It is enough to look at the window in which two texts differ.
theorem eq_of_foldl_eq (hf : ∀ r s x, f r x = f s x → r = s) {width : Nat}
    (hwindow : ∀ (r : σ) (us vs : List α), us.length = vs.length → us.length ≤ width →
      us.foldl f r = vs.foldl f r → us = vs)
    {xs ys : List α} {r : σ} (hdiffer : DifferWithin width xs ys)
    (h : xs.foldl f r = ys.foldl f r)
    : xs = ys := by
  obtain ⟨before, us, vs, after, rfl, rfl, hlen, hle⟩ := split_of_differWithin hdiffer
  rw [List.foldl_append, List.foldl_append, List.foldl_append, List.foldl_append] at h
  rw [hwindow _ us vs hlen hle (foldl_injective hf after h)]

end Mixing

namespace Fnv

def prime : UInt64 := 0x100000001b3

def step (hash : UInt64) (b : UInt8) : UInt64 := (hash ^^^ b.toUInt64) * prime

-- The prime is odd, so that the multiplication can be undone.
theorem prime_mul_inverse : prime * 0xce965057aff6957b = 1 := by decide

theorem eq_of_mul_prime_eq {x y : UInt64} (h : x * prime = y * prime) : x = y := by
  have hundo := congrArg (· * 0xce965057aff6957b) h
  simp only [UInt64.mul_assoc, prime_mul_inverse, UInt64.mul_one] at hundo
  exact hundo

theorem xor_xor_self (x y : UInt64) : x ^^^ y ^^^ y = x := by
  rw [UInt64.xor_assoc, UInt64.xor_self, UInt64.xor_zero]

theorem step_injective (r s : UInt64) (b : UInt8) (h : step r b = step s b) : r = s := by
  have hxor := congrArg (· ^^^ b.toUInt64) (eq_of_mul_prime_eq h)
  simp only [xor_xor_self] at hxor
  exact hxor

-- What a byte does not reach.
def high (x : UInt64) : Nat := x.toNat / 256

theorem high_xor (x : UInt64) (b : UInt8) : high (x ^^^ b.toUInt64) = high x := by
  have hb : b.toNat / 2 ^ 8 = 0 := Nat.div_eq_of_lt b.toNat_lt
  unfold high
  rw [UInt64.toNat_xor, UInt8.toNat_toUInt64]
  change (x.toNat ^^^ b.toNat) / 2 ^ 8 = x.toNat / 2 ^ 8
  rw [Nat.xor_div_two_pow, hb, Nat.xor_zero]

theorem high_eq_of_step_eq {x y : UInt64} {b c : UInt8} (h : step x b = step y c)
    : high x = high y := by
  rw [← high_xor x b, ← high_xor y c, eq_of_mul_prime_eq h]

theorem exists_carry (x : UInt64)
    : ∃ carry, x.toNat * 1099511628211 = 2 ^ 64 * carry + (x * prime).toNat := by
  refine ⟨x.toNat * 1099511628211 / 2 ^ 64, ?_⟩
  rw [UInt64.toNat_mul]
  exact (Nat.div_add_mod _ _).symm

-- The prime has a bit at 40: it lifts a difference of one byte out of the reach of another byte.
theorem no_return {k q d : Int} (hk : k ≠ 0) (hle : -255 ≤ k ∧ k ≤ 255) (hd : -255 ≤ d ∧ d ≤ 255)
    (h : k * 1099511628211 - 18446744073709551616 * q = d)
    : False := by
  have hq : q = 0 := by omega
  rw [hq] at h
  omega

-- And one byte more does not bring it back: modulo 2^64 the square of the prime is
-- 870 * 2^40 + 189225.
theorem no_late_return {k e q d : Int} (hk : k ≠ 0) (hle : -255 ≤ k ∧ k ≤ 255)
    (he : -510 ≤ e ∧ e ≤ 510) (hd : -255 ≤ d ∧ d ≤ 255)
    (h : (k * 1099511628211 + e) * 1099511628211 - 18446744073709551616 * q = d)
    : False := by
  generalize hlow : 189225 * k + 435 * e - d = low
  generalize hcarry : q - 65536 * k = carry
  have hsplit : (870 * k + e) * 1099511627776 + low = 18446744073709551616 * carry := by omega
  have hnone : carry = 0 := by omega
  rw [hnone] at hsplit
  have hzero : 870 * k + e = 0 := by omega
  omega

section Window

variable {x y : UInt64} (hhigh : high x = high y) (hne : x ≠ y)

include hhigh hne

theorem high_mul_prime_ne : high (x * prime) ≠ high (y * prime) := by
  intro h
  have hne' : x.toNat ≠ y.toNat := fun heq => hne (UInt64.toNat_inj.mp heq)
  obtain ⟨e, hx⟩ := exists_carry x
  obtain ⟨f, hy⟩ := exists_carry y
  unfold high at hhigh h
  generalize (x * prime).toNat = u at hx h
  generalize (y * prime).toNat = v at hy h
  apply @no_return (x.toNat - y.toNat) (e - f) (u - v)
  . omega
  . omega
  . omega
  . omega

theorem high_mul_prime_xor_ne (b c : UInt8)
    : high (step (x * prime) b) ≠ high (step (y * prime) c) := by
  intro h
  have hne' : x.toNat ≠ y.toNat := fun heq => hne (UInt64.toNat_inj.mp heq)
  have hhigh' := high_xor (x * prime) b
  have hhigh'' := high_xor (y * prime) c
  obtain ⟨e, hx⟩ := exists_carry x
  obtain ⟨f, hy⟩ := exists_carry y
  unfold step at h
  generalize x * prime ^^^ b.toUInt64 = s at h hhigh'
  generalize y * prime ^^^ c.toUInt64 = t at h hhigh''
  obtain ⟨e', hs⟩ := exists_carry s
  obtain ⟨f', ht⟩ := exists_carry t
  unfold high at hhigh h hhigh' hhigh''
  generalize (x * prime).toNat = u at hx hhigh'
  generalize (y * prime).toNat = v at hy hhigh''
  generalize (s * prime).toNat = u' at hs h
  generalize (t * prime).toNat = v' at ht h
  apply @no_late_return (x.toNat - y.toNat) ((s.toNat - t.toNat) - (u - v))
    ((e' - f') + 1099511628211 * (e - f)) (u' - v')
  . omega
  . omega
  . omega
  . omega
  . omega

end Window

theorem xor_ne (r : UInt64) {a b : UInt8} (h : a ≠ b) : r ^^^ a.toUInt64 ≠ r ^^^ b.toUInt64 := by
  intro heq
  rw [UInt64.xor_right_inj] at heq
  exact h (UInt8.toUInt64_inj.mp heq)

-- Behind the first letters that differ there are at most two more in the window.
theorem foldl_ne {x y : UInt64} (hhigh : high x = high y) (hne : x ≠ y) {us vs : List UInt8}
    (hlen : us.length = vs.length) (hle : us.length ≤ 2)
    : us.foldl step (x * prime) ≠ vs.foldl step (y * prime) := by
  intro h
  have hcases : us.length = 0 ∨ us.length = 1 ∨ us.length = 2 := by omega
  rcases hcases with hus | hus | hus
  . rw [List.length_eq_zero_iff.mp hus, List.length_eq_zero_iff.mp (hlen.symm.trans hus)] at h
    exact hne (eq_of_mul_prime_eq h)
  . obtain ⟨b, rfl⟩ := List.length_eq_one_iff.mp hus
    obtain ⟨c, rfl⟩ := List.length_eq_one_iff.mp (hlen.symm.trans hus)
    exact high_mul_prime_ne hhigh hne (high_eq_of_step_eq h)
  . obtain ⟨b, b', rfl⟩ := List.length_eq_two.mp hus
    obtain ⟨c, c', rfl⟩ := List.length_eq_two.mp (hlen.symm.trans hus)
    exact high_mul_prime_xor_ne hhigh hne b c (high_eq_of_step_eq h)

theorem eq_of_window {us vs : List UInt8} (r : UInt64) (hlen : us.length = vs.length)
    (hle : us.length ≤ 3) (h : us.foldl step r = vs.foldl step r)
    : us = vs := by
  induction us generalizing vs r with
  | nil =>
    cases vs with
    | nil => rfl
    | cons b vs => contradiction
  | cons a us ih =>
    cases vs with
    | nil => contradiction
    | cons b vs =>
      rw [List.length_cons, List.length_cons, Nat.add_right_cancel_iff] at hlen
      rw [List.length_cons] at hle
      by_cases hab : a = b
      . rw [hab] at h ⊢
        rw [ih (step r b) hlen (by omega) h]
      . have hhigh : high (r ^^^ a.toUInt64) = high (r ^^^ b.toUInt64) :=
          (high_xor r a).trans (high_xor r b).symm
        exact absurd h (foldl_ne hhigh (xor_ne r hab) hlen (by omega))

theorem eq_of_foldl_step_eq {xs ys : List UInt8} {r : UInt64} (hdiffer : DifferWithin 3 xs ys)
    (h : xs.foldl step r = ys.foldl step r)
    : xs = ys :=
  Mixing.eq_of_foldl_eq step_injective (fun r _ _ hlen hle => eq_of_window r hlen hle) hdiffer h

end Fnv
