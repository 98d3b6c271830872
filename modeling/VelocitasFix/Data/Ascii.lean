import Mathlib.Data.List.Basic
import Mathlib.Tactic.Ring

/-!
This module contains unsigned decimal numerals written in ASCII bytes: their value, the canonical
and the zero padded numeral of a number, and how the two convert into each other.
-/

universe u

abbrev Bytes := List UInt8

namespace Ascii

def IsDigit (b : UInt8) : Prop := 48 ≤ b ∧ b ≤ 57

instance : DecidablePred IsDigit :=
  fun _ => inferInstanceAs (Decidable (_ ∧ _))

theorem isDigit_iff_toNat {b : UInt8} : IsDigit b ↔ 48 ≤ b.toNat ∧ b.toNat ≤ 57 := by
  simp only [IsDigit, UInt8.le_iff_toNat_le]
  rfl

theorem IsDigit.toNat_sub {b : UInt8} (h : IsDigit b) : (b - 48).toNat = b.toNat - 48 := by
  rw [UInt8.toNat_sub_of_le]
  . rfl
  . exact h.1

def AllDigits (bs : Bytes) : Prop := ∀ b ∈ bs, IsDigit b

instance : DecidablePred AllDigits :=
  fun bs => inferInstanceAs (Decidable (∀ b ∈ bs, IsDigit b))

@[simp]
theorem allDigits_nil : AllDigits [] := by
  simp [AllDigits]

@[simp]
theorem allDigits_cons {b : UInt8} {bs : Bytes} :
    AllDigits (b :: bs) ↔ IsDigit b ∧ AllDigits bs := by
  simp [AllDigits]

@[simp]
theorem allDigits_append {xs ys : Bytes} :
    AllDigits (xs ++ ys) ↔ AllDigits xs ∧ AllDigits ys := by
  simp only [AllDigits, List.mem_append, or_imp, forall_and]

theorem AllDigits.not_mem {bs : Bytes} (h : AllDigits bs) {b : UInt8} (hb : ¬ IsDigit b) :
    b ∉ bs :=
  fun hmem => hb (h b hmem)

def value (bs : Bytes) : Nat :=
  bs.foldl (fun n b => n * 10 + (b.toNat - 48)) 0

theorem foldl_value (bs : Bytes) (n : Nat) :
    bs.foldl (fun n b => n * 10 + (b.toNat - 48)) n = n * 10 ^ bs.length + value bs := by
  induction bs generalizing n with
  | nil => simp [value]
  | cons b bs ih =>
    simp only [value, List.foldl_cons, List.length_cons]
    rw [ih, ih (0 * 10 + (b.toNat - 48))]
    ring

@[simp]
theorem value_nil : value [] = 0 := rfl

theorem value_cons (b : UInt8) (bs : Bytes) :
    value (b :: bs) = (b.toNat - 48) * 10 ^ bs.length + value bs := by
  rw [value, List.foldl_cons, foldl_value]
  simp

theorem value_append (xs ys : Bytes) :
    value (xs ++ ys) = value xs * 10 ^ ys.length + value ys := by
  rw [value, List.foldl_append, foldl_value]
  rfl

theorem value_concat (xs : Bytes) (b : UInt8) :
    value (xs ++ [b]) = value xs * 10 + (b.toNat - 48) := by
  simp [value_append, value_cons]

theorem foldl_eq_of_value {M : Type u} (ofNat : Nat → M) {f : M → UInt8 → M}
    (hf : ∀ n b, IsDigit b → f (ofNat n) b = ofNat (n * 10 + (b.toNat - 48)))
    {bs : Bytes} (h : AllDigits bs)
    : bs.foldl f (ofNat 0) = ofNat (value bs) := by
  unfold value
  generalize 0 = n
  induction bs generalizing n with
  | nil => rfl
  | cons b bs ih =>
    rw [allDigits_cons] at h
    rw [List.foldl_cons, hf n b h.1]
    apply ih h.2

def digit (d : Nat) : UInt8 := 48 + UInt8.ofNat d

theorem toNat_digit {d : Nat} (h : d < 10) : (digit d).toNat = 48 + d := by
  simp only [digit, UInt8.toNat_add, UInt8.reduceToNat, UInt8.toNat_ofNat']
  omega

theorem isDigit_digit {d : Nat} (h : d < 10) : IsDigit (digit d) := by
  rw [isDigit_iff_toNat, toNat_digit h]
  omega

def decimal (n : Nat) : Bytes :=
  if n < 10 then
    [digit n]
  else
    decimal (n / 10) ++ [digit (n % 10)]
termination_by n

theorem decimal_of_lt {n : Nat} (h : n < 10) : decimal n = [digit n] := by
  rw [decimal, if_pos h]

theorem decimal_of_le {n : Nat} (h : 10 ≤ n) :
    decimal n = decimal (n / 10) ++ [digit (n % 10)] := by
  rw [decimal, if_neg (by omega)]

theorem decimal_of_pair {n : Nat} (h : 10 ≤ n) (h' : n < 100)
    : decimal n = [digit (n / 10), digit (n % 10)] := by
  rw [decimal_of_le h, decimal_of_lt (by omega)]
  rfl

theorem decimal_of_hundred_le {n : Nat} (h : 100 ≤ n)
    : decimal n = decimal (n / 100) ++ [digit (n % 100 / 10), digit (n % 100 % 10)] := by
  rw [decimal_of_le (by omega), decimal_of_le (by omega : 10 ≤ n / 10), Nat.div_div_eq_div_mul]
  have htens : n / 10 % 10 = n % 100 / 10 := by omega
  have hones : n % 10 = n % 100 % 10 := by omega
  rw [htens, hones, List.append_assoc]
  rfl

theorem allDigits_decimal (n : Nat) : AllDigits (decimal n) := by
  induction n using decimal.induct with
  | case1 n h => simp [decimal_of_lt h, isDigit_digit h]
  | case2 n h ih =>
    rw [decimal_of_le (by omega)]
    simp [ih, isDigit_digit (Nat.mod_lt n (by omega))]

theorem decimal_ne_nil (n : Nat) : decimal n ≠ [] := by
  rw [decimal]
  split <;> simp

@[simp]
theorem value_decimal (n : Nat) : value (decimal n) = n := by
  induction n using decimal.induct with
  | case1 n h => simp [decimal_of_lt h, value_cons, toNat_digit h]
  | case2 n h ih =>
    rw [decimal_of_le (by omega), value_concat, ih, toNat_digit (Nat.mod_lt n (by omega))]
    omega

theorem length_decimal_le {n w : Nat} (hw : 0 < w) (h : n < 10 ^ w) : (decimal n).length ≤ w := by
  induction w generalizing n with
  | zero => omega
  | succ w ih =>
    rw [decimal]
    split
    . simp
    . have hlt : n / 10 < 10 ^ w := by
        rw [Nat.div_lt_iff_lt_mul (by omega), ← pow_succ]
        exact h
      have hpos : 0 < w := by
        rcases Nat.eq_zero_or_pos w with rfl | hpos
        . omega
        . exact hpos
      simpa using ih hpos hlt

def signed (n : Int) : Bytes :=
  if n < 0 then 45 :: decimal n.natAbs else decimal n.natAbs

def padded : Nat → Nat → Bytes
  | 0, _ => []
  | w + 1, n => padded w (n / 10) ++ [digit (n % 10)]

@[simp]
theorem length_padded (w n : Nat) : (padded w n).length = w := by
  induction w generalizing n with
  | zero => rfl
  | succ w ih => simp [padded, ih]

theorem allDigits_padded (w n : Nat) : AllDigits (padded w n) := by
  induction w generalizing n with
  | zero => simp [padded]
  | succ w ih => simp [padded, ih, isDigit_digit (Nat.mod_lt n (by omega))]

theorem value_padded (w n : Nat) : value (padded w n) = n % 10 ^ w := by
  induction w generalizing n with
  | zero => simp [padded, Nat.mod_one]
  | succ w ih =>
    rw [padded, value_concat, ih, toNat_digit (Nat.mod_lt n (by omega)), pow_succ,
      Nat.mul_comm (10 ^ w) 10, Nat.mod_mul]
    omega

theorem padded_zero (w : Nat) : padded w 0 = List.replicate w 48 := by
  induction w with
  | zero => rfl
  | succ w ih =>
    rw [padded, Nat.zero_div, ih, List.replicate_succ']
    rfl

end Ascii
