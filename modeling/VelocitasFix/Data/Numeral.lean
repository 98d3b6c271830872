import VelocitasFix.Data.Ascii

/-!
This module contains the numerals that denote a number, without and with a sign, the loop that reads
their digits, and when a reading into a type of fixed width accepts the numerals and nothing else.
-/

universe u v

namespace Ascii

def Denotes (bs : Bytes) (n : Nat) : Prop := bs ≠ [] ∧ AllDigits bs ∧ value bs = n

theorem Denotes.unique {bs : Bytes} {n n' : Nat} (h : Denotes bs n) (h' : Denotes bs n') : n = n' :=
  h.2.2.symm.trans h'.2.2

theorem denotes_decimal (n : Nat) : Denotes (decimal n) n :=
  ⟨decimal_ne_nil n, allDigits_decimal n, value_decimal n⟩

-- The numeral of a number that has no leading zero; zero itself is the single digit.
structure Canonical (bs : Bytes) (n : Nat) : Prop where
  denotes : Denotes bs n
  noLeadingZero : bs.head? = some 48 → bs = [48]

theorem digit_eq_zero {d : Nat} (h : d < 10) (hzero : digit d = 48) : d = 0 := by
  have heq : (digit d).toNat = 48 := by
    rw [hzero]
    rfl
  rw [toNat_digit h] at heq
  omega

theorem head?_decimal {n : Nat} (h : 0 < n) : (decimal n).head? ≠ some 48 := by
  induction n using decimal.induct with
  | case1 n hlt =>
    rw [decimal_of_lt hlt]
    intro heq
    have hzero := digit_eq_zero hlt (Option.some.inj heq)
    omega
  | case2 n hle ih =>
    rw [decimal_of_le (by omega), List.head?_append_of_ne_nil _ (decimal_ne_nil _)]
    apply ih
    omega

theorem canonical_decimal (n : Nat) : Canonical (decimal n) n where
  denotes := denotes_decimal n
  noLeadingZero h := by
    rcases Nat.eq_zero_or_pos n with rfl | hpos
    . exact decimal_of_lt (by omega)
    . exact absurd h (head?_decimal hpos)

-- The sign is a single `-` in front of the digits.
def DenotesSigned (bs : Bytes) (k : Int) : Prop :=
  (∃ n, Denotes bs n ∧ k = n) ∨ ∃ ds n, bs = 45 :: ds ∧ Denotes ds n ∧ k = -n

theorem not_denotes_minus {ds : Bytes} {n : Nat} : ¬ Denotes (45 :: ds) n := by
  intro h
  have hdigit : IsDigit 45 := h.2.1 45 List.mem_cons_self
  revert hdigit
  decide

theorem denotesSigned_minus {ds : Bytes} {k : Int}
    : DenotesSigned (45 :: ds) k ↔ ∃ n, Denotes ds n ∧ k = -n := by
  constructor
  . rintro (⟨n, hn, _⟩ | ⟨ds', n, heq, hn, hk⟩)
    . exact absurd hn not_denotes_minus
    . cases heq
      exact ⟨n, hn, hk⟩
  . rintro ⟨n, hn, hk⟩
    exact .inr ⟨ds, n, rfl, hn, hk⟩

theorem denotesSigned_of_ne_minus {bs : Bytes} {k : Int} (h : ∀ ds, bs ≠ 45 :: ds)
    : DenotesSigned bs k ↔ ∃ n, Denotes bs n ∧ k = n := by
  constructor
  . rintro (hplain | ⟨ds, _, heq, _⟩)
    . exact hplain
    . exact absurd heq (h ds)
  . exact .inl

theorem denotesSigned_signed (k : Int) : DenotesSigned (signed k) k := by
  have hdenotes := denotes_decimal k.natAbs
  unfold signed
  split
  . exact .inr ⟨_, _, rfl, hdenotes, by omega⟩
  . exact .inl ⟨_, hdenotes, by omega⟩

theorem DenotesSigned.unique {bs : Bytes} {k k' : Int} (h : DenotesSigned bs k)
    (h' : DenotesSigned bs k') : k = k' := by
  by_cases hminus : ∃ ds, bs = 45 :: ds
  . obtain ⟨ds, rfl⟩ := hminus
    rw [denotesSigned_minus] at h h'
    obtain ⟨n, hn, rfl⟩ := h
    obtain ⟨n', hn', rfl⟩ := h'
    rw [hn.unique hn']
  . rw [denotesSigned_of_ne_minus (not_exists.mp hminus)] at h h'
    obtain ⟨n, hn, rfl⟩ := h
    obtain ⟨n', hn', rfl⟩ := h'
    rw [hn.unique hn']

-- A loop that stops at the first byte that is no digit and takes the digits into its result.
theorem digitLoop_eq {M : Type u} {step : M → UInt8 → M} {loop : Bytes → M → Option M}
    (hnil : ∀ m, loop [] m = some m)
    (hcons : ∀ b bs m, loop (b :: bs) m = if b < 48 || b > 57 then none else loop bs (step m b))
    (bs : Bytes) (m : M)
    : loop bs m = if AllDigits bs then some (bs.foldl step m) else none := by
  induction bs generalizing m with
  | nil => rw [hnil, if_pos allDigits_nil, List.foldl_nil]
  | cons b bs ih =>
    have hdigit : (b < 48 || b > 57) = true ↔ ¬ IsDigit b := by
      simp only [Bool.or_eq_true, decide_eq_true_eq, IsDigit, not_and_or, UInt8.not_le, gt_iff_lt]
    rw [hcons, ih, List.foldl_cons]
    by_cases hb : IsDigit b
    . rw [if_neg (not_not.mpr hb ∘ hdigit.mp)]
      simp only [allDigits_cons, hb, true_and]
    . rw [if_pos (hdigit.mpr hb), if_neg]
      rw [allDigits_cons]
      intro hall
      exact hb hall.1

-- A reading that keeps of a number what fits its type is right about the numbers of the type only.
theorem reads_iff {M : Type u} {N : Type v} {toNum : M → N} {ofNum : N → M} {denotes : N → Prop}
    {read : Option M} (hofNum : ∀ m, ofNum (toNum m) = m)
    (hunique : ∀ k k', denotes k → denotes k' → k = k')
    (hread : ∀ k, denotes k → read = some (ofNum k)) (hnone : (∀ k, ¬ denotes k) → read = none)
    : (∀ m, read = some m ↔ denotes (toNum m)) ↔ ∀ k, denotes k → ∃ m, toNum m = k := by
  constructor
  . intro h k hk
    have hwrapped := (h (ofNum k)).mp (hread k hk)
    exact ⟨ofNum k, hunique _ _ hwrapped hk⟩
  . intro h m
    constructor
    . intro hsome
      by_cases hany : ∃ k, denotes k
      . obtain ⟨k, hk⟩ := hany
        obtain ⟨m', rfl⟩ := h k hk
        have hm := hread (toNum m') hk
        rw [hofNum, hsome] at hm
        rw [Option.some.inj hm]
        exact hk
      . rw [hnone (not_exists.mp hany)] at hsome
        contradiction
    . intro hm
      rw [hread _ hm, hofNum]

end Ascii
