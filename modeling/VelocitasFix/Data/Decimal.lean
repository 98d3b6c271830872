import VelocitasFix.Data.Ascii
import Mathlib.Data.List.Lex

/-!
This module contains the order of decimal texts: numbers written with the same number of digits are
ordered as their texts, byte by byte.
-/

namespace Ascii

theorem lex_append_of_length {α : Type} {r : α → α → Prop} {xs ys : List α} (h : List.Lex r xs ys)
    (hlen : xs.length = ys.length) (us vs : List α)
    : List.Lex r (xs ++ us) (ys ++ vs) := by
  induction h with
  | nil => contradiction
  | rel hr => exact .rel hr
  | cons _ ih =>
    apply List.Lex.cons
    apply ih
    rw [List.length_cons, List.length_cons, Nat.add_right_cancel_iff] at hlen
    exact hlen

theorem digit_lt {d d' : Nat} (h : d < d') (h' : d' < 10) : digit d < digit d' := by
  rw [UInt8.lt_iff_toNat_lt, toNat_digit (by omega), toNat_digit h']
  omega

theorem lex_padded {w n n' : Nat} (h : n < n') (h' : n' < 10 ^ w)
    : List.Lex (· < ·) (padded w n) (padded w n') := by
  induction w generalizing n n' with
  | zero => omega
  | succ w ih =>
    rw [padded, padded]
    by_cases htens : n / 10 < n' / 10
    . apply lex_append_of_length
      . apply ih htens
        rw [Nat.div_lt_iff_lt_mul (by omega), ← pow_succ]
        exact h'
      . rw [length_padded, length_padded]
    . have heq : n / 10 = n' / 10 := by omega
      rw [heq]
      apply List.Lex.append_left
      exact .rel (digit_lt (by omega) (by omega))

theorem take_padded (w n : Nat) (k : Nat)
    : (padded (w + k) n).take w = padded w (n / 10 ^ k) := by
  induction k generalizing n with
  | zero =>
    rw [Nat.add_zero, List.take_of_length_le (by rw [length_padded]), pow_zero, Nat.div_one]
  | succ k ih =>
    rw [← Nat.add_assoc, padded, List.take_append_of_le_length (by rw [length_padded]; omega), ih,
      Nat.div_div_eq_div_mul, pow_succ, Nat.mul_comm]

end Ascii
