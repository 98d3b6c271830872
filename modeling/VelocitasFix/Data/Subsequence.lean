import Mathlib.Order.Bounds.Basic
import Mathlib.Data.List.Induction
import Mathlib.Data.List.Infix

/-!
This module contains the greedy reader of a fixed sequence: it waits for the next element of the
sequence and skips everything else, and so reaches the longest initial part that occurs as a
subsequence.
-/

universe u

namespace Subsequence

variable {α : Type u} {f : Nat → α}

-- The first `k` elements of the sequence.
def initial (f : Nat → α) (k : Nat) : List α := (List.range k).map f

theorem initial_succ (k : Nat) : initial f (k + 1) = initial f k ++ [f k] := by
  rw [initial, List.range_succ, List.map_append]
  rfl

-- The last element of a subsequence comes from the last element of the list, or the list goes on
-- without it.
theorem concat_sublist_concat {xs ys : List α} {x y : α} (h : (ys ++ [y]).Sublist (xs ++ [x]))
    : (ys ++ [y]).Sublist xs ∨ y = x ∧ ys.Sublist xs := by
  obtain ⟨us, vs, hsplit, hus, hvs⟩ := List.sublist_append_iff.mp h
  rcases List.sublist_singleton.mp hvs with rfl | rfl
  . rw [List.append_nil] at hsplit
    rw [hsplit]
    exact .inl hus
  . obtain ⟨rfl, hlast⟩ := List.append_inj' hsplit rfl
    exact .inr ⟨List.singleton_injective hlast, hus⟩

variable [DecidableEq α]

def advance (f : Nat → α) (k : Nat) (x : α) : Nat := if x = f k then k + 1 else k

-- How many elements the reader has met, one after the other.
def reached (f : Nat → α) (xs : List α) : Nat := xs.foldl (advance f) 0

@[simp]
theorem reached_nil : reached f [] = 0 := rfl

theorem reached_concat (xs : List α) (x : α)
    : reached f (xs ++ [x]) = advance f (reached f xs) x := by
  rw [reached, List.foldl_append]
  rfl

theorem le_advance (k : Nat) (x : α) : k ≤ advance f k x := by
  unfold advance
  split
  . exact Nat.le_succ k
  . exact Nat.le_refl k

theorem advance_self (k : Nat) : advance f k (f k) = k + 1 := if_pos rfl

theorem advance_of_ne {k : Nat} {x : α} (h : x ≠ f k) : advance f k x = k := if_neg h

theorem reached_le_append (xs ys : List α) : reached f xs ≤ reached f (xs ++ ys) := by
  induction ys using List.reverseRecOn with
  | nil => rw [List.append_nil]
  | append_singleton ys y ih =>
    rw [← List.append_assoc, reached_concat]
    exact Nat.le_trans ih (le_advance _ y)

theorem initial_reached_sublist (xs : List α) : (initial f (reached f xs)).Sublist xs := by
  induction xs using List.reverseRecOn with
  | nil => exact List.Sublist.refl []
  | append_singleton xs x ih =>
    rw [reached_concat, advance]
    split
    . next heq =>
      rw [initial_succ, heq]
      exact ih.append_right [f (reached f xs)]
    . exact List.sublist_append_of_sublist_left ih

theorem le_reached_of_sublist {xs : List α} {k : Nat} (h : (initial f k).Sublist xs)
    : k ≤ reached f xs := by
  induction xs using List.reverseRecOn generalizing k with
  | nil =>
    have hlen := h.length_le
    rw [initial, List.length_map, List.length_range, List.length_nil] at hlen
    exact hlen
  | append_singleton xs x ih =>
    rw [reached_concat]
    cases k with
    | zero => exact Nat.zero_le _
    | succ k =>
      rw [initial_succ] at h
      rcases concat_sublist_concat h with hearlier | ⟨rfl, hbefore⟩
      . rw [← initial_succ] at hearlier
        exact Nat.le_trans (ih hearlier) (le_advance _ x)
      . -- The element is taken by the reader that waits for it, and by no other.
        rcases Nat.eq_or_lt_of_le (ih hbefore) with heq | hlt
        . rw [← heq, advance_self]
        . exact Nat.le_trans hlt (le_advance _ _)

theorem isGreatest_reached (xs : List α)
    : IsGreatest {k | (initial f k).Sublist xs} (reached f xs) :=
  ⟨initial_reached_sublist xs, fun _ => le_reached_of_sublist⟩

theorem reached_lt_of_not_sublist {xs : List α} {k : Nat} (h : ¬ (initial f k).Sublist xs)
    : reached f xs < k := by
  by_contra hle
  apply h
  have hprefix : (initial f k).Sublist (initial f (reached f xs)) := by
    apply List.Sublist.map
    exact List.range_sublist.mpr (Nat.not_lt.mp hle)
  exact hprefix.trans (initial_reached_sublist xs)

end Subsequence
