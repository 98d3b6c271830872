import Mathlib.Tactic.Linarith
import Mathlib.Tactic.Ring

/-!
This module contains the conversion of counts by a ratio, rounded down, and how far a difference of two
conversions is from the conversion of the difference, also where the ratio itself was measured.
-/

namespace Scaling

-- `n` counts of one unit in another one, of which `div` of the first are `mul` of the second.
def scale (mul div n : Nat) : Nat := n * mul / div

theorem scale_mono {mul div a b : Nat} (h : a ≤ b) : scale mul div a ≤ scale mul div b :=
  Nat.div_le_div_right (Nat.mul_le_mul_right mul h)

section Difference

variable {mul div a b : Nat} (hdiv : 0 < div) (h : a ≤ b)

include hdiv h

theorem lt_scale_sub : (b - a) * mul < (scale mul div b - scale mul div a + 1) * div := by
  have hle : scale mul div a ≤ scale mul div b := scale_mono h
  have ha := Nat.div_mul_le_self (a * mul) div
  have hb := Nat.lt_div_mul_add (a := b * mul) hdiv
  change scale mul div a * div ≤ _ at ha
  change _ < scale mul div b * div + div at hb
  obtain ⟨d, rfl⟩ := Nat.exists_eq_add_of_le h
  obtain ⟨s, hs⟩ := Nat.exists_eq_add_of_le hle
  rw [hs, Nat.add_sub_cancel_left, Nat.add_sub_cancel_left]
  rw [hs] at hb
  nlinarith only [ha, hb]

theorem scale_sub_le : (scale mul div b - scale mul div a - 1) * div ≤ (b - a) * mul := by
  have hle : scale mul div a ≤ scale mul div b := scale_mono h
  have ha := Nat.lt_div_mul_add (a := a * mul) hdiv
  have hb := Nat.div_mul_le_self (b * mul) div
  change _ < scale mul div a * div + div at ha
  change scale mul div b * div ≤ _ at hb
  obtain ⟨d, rfl⟩ := Nat.exists_eq_add_of_le h
  obtain ⟨s, hs⟩ := Nat.exists_eq_add_of_le hle
  rw [hs, Nat.add_sub_cancel_left, Nat.add_sub_cancel_left]
  rw [hs] at hb
  cases s with
  | zero => simp
  | succ s =>
    rw [Nat.add_sub_cancel]
    nlinarith only [ha, hb]

end Difference

-- `counts` of a unit of which `mul` are `span`, where the ratio was measured as `n` in `span` and
-- rounded down: the result is one too low at most, and too high by one and by one part in the ratio.
structure Counts (n span ratio counts result : Nat) : Prop where
  lower : counts * span < (result + 1) * n
  upper : (result - 1) * n * ratio ≤ counts * span * (ratio + 1)

section Measured

variable {mul n span : Nat} (hspan : 0 < span) (hratio : 0 < scale mul span n)

include hspan hratio

-- The ratio that was measured is a little too low, so what it converts is a little too high.
theorem counts_scale {a b : Nat} (h : a ≤ b)
    : Counts n span (scale mul span n) (b - a)
        (scale mul (scale mul span n) b - scale mul (scale mul span n) a) := by
  have hlow := @lt_scale_sub mul _ _ _ hratio h
  have hhigh := @scale_sub_le mul _ _ _ hratio h
  have hmeasured := Nat.div_mul_le_self (n * mul) span
  have hmeasured' := Nat.lt_div_mul_add (a := n * mul) hspan
  change scale mul span n * span ≤ _ at hmeasured
  change _ < scale mul span n * span + span at hmeasured'
  generalize scale mul span n = ratio at *
  generalize scale mul ratio b - scale mul ratio a = result at *
  generalize b - a = counts at *
  have hn : 0 < n := by
    apply Nat.pos_of_ne_zero
    rintro rfl
    rw [Nat.zero_mul] at hmeasured
    have hpos := Nat.mul_pos hratio hspan
    omega
  constructor
  . apply Nat.lt_of_mul_lt_mul_right (a := ratio)
    calc counts * span * ratio
      _ = counts * (ratio * span) := by ring
      _ ≤ counts * (n * mul) := Nat.mul_le_mul_left _ hmeasured
      _ = counts * mul * n := by ring
      _ < (result + 1) * ratio * n := (Nat.mul_lt_mul_right hn).mpr hlow
      _ = (result + 1) * n * ratio := by ring
  . calc (result - 1) * n * ratio
      _ = (result - 1) * ratio * n := by ring
      _ ≤ counts * mul * n := Nat.mul_le_mul_right _ hhigh
      _ = counts * (n * mul) := by ring
      _ ≤ counts * (ratio * span + span) := Nat.mul_le_mul_left _ hmeasured'.le
      _ = counts * span * (ratio + 1) := by ring

end Measured

end Scaling
