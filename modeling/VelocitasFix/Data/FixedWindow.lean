import Mathlib.Algebra.Order.Monoid.Defs
import Mathlib.Data.List.Basic

/-!
This module contains a limiter with fixed windows: a window begins with the first call that comes at
least its width after the beginning of the one before, and only so many calls of a window are
admitted. It bounds what is admitted in any interval that is shorter than a window.
-/

universe u

namespace FixedWindow

section Split

variable {α : Type u} [Add α] [LE α] [DecidableLE α]

-- The calls of the window that began at `start`, and those of the windows behind it.
def split (width start : α) : List α → List α × List (List α)
  | [] => ([], [])
  | t :: ts =>
    if start + width ≤ t then
      ([], (t :: (split width t ts).1) :: (split width t ts).2)
    else
      (t :: (split width start ts).1, (split width start ts).2)

def windows (width start : α) (ts : List α) : List (List α) :=
  (split width start ts).1 :: (split width start ts).2

theorem split_of_le {width start t : α} (h : start + width ≤ t) (ts : List α)
    : split width start (t :: ts)
        = ([], (t :: (split width t ts).1) :: (split width t ts).2) := by
  rw [split, if_pos h]

theorem split_of_not_le {width start t : α} (h : ¬ start + width ≤ t) (ts : List α)
    : split width start (t :: ts)
        = (t :: (split width start ts).1, (split width start ts).2) := by
  rw [split, if_neg h]

theorem flatten_windows (width start : α) (ts : List α)
    : (windows width start ts).flatten = ts := by
  unfold windows
  induction ts generalizing start with
  | nil => rfl
  | cons t ts ih =>
    by_cases h : start + width ≤ t
    . have hrest := ih t
      rw [List.flatten_cons] at hrest
      rw [split_of_le h, List.flatten_cons, List.flatten_cons, List.nil_append, List.cons_append,
        hrest]
    . have hrest := ih start
      rw [List.flatten_cons] at hrest
      rw [split_of_not_le h, List.flatten_cons, List.cons_append, hrest]

end Split

section Admitted

variable {α : Type u}

-- The calls of one window with the decisions about them.
def decisions (limit : Nat) (w : List α) : List (α × Bool) :=
  (w.take limit).map (fun t => (t, true)) ++ (w.drop limit).map (fun t => (t, false))

theorem decisions_cons (limit : Nat) (t : α) (w : List α)
    : decisions limit (t :: w) = (t, decide (0 < limit)) :: decisions (limit - 1) w := by
  cases limit with
  | zero => rfl
  | succ limit => rfl

theorem countP_decisions (limit : Nat) (p : α → Bool) (w : List α)
    : (decisions limit w).countP (fun call => call.2 && p call.1) = (w.take limit).countP p := by
  have htrue : (fun call : α × Bool => call.2 && p call.1) ∘ (fun t => (t, true)) = p := rfl
  have hfalse : (fun call : α × Bool => call.2 && p call.1) ∘ (fun t => (t, false))
      = fun _ => false := rfl
  rw [decisions, List.countP_append, List.countP_map, List.countP_map, htrue, hfalse,
    List.countP_false]
  rfl

theorem countP_take_le (limit : Nat) (p : α → Bool) (w : List α)
    : (w.take limit).countP p ≤ limit :=
  Nat.le_trans List.countP_le_length (List.length_take_le limit w)

theorem countP_flatMap_decisions (limit : Nat) (p : α → Bool) (ws : List (List α))
    : (ws.flatMap (decisions limit)).countP (fun call => call.2 && p call.1)
        = (ws.flatMap (List.take limit)).countP p := by
  induction ws with
  | nil => rfl
  | cons w ws ih =>
    rw [List.flatMap_cons, List.flatMap_cons, List.countP_append, List.countP_append,
      countP_decisions, ih]

theorem countP_eq_zero_of_lt [LinearOrder α] {ws : List (List α)} {a b : α} (limit : Nat)
    (h : ∀ z ∈ ws.flatten, b < z)
    : (ws.flatMap (List.take limit)).countP (fun t => decide (a ≤ t ∧ t ≤ b)) = 0 := by
  rw [List.countP_eq_zero]
  intro z hz
  obtain ⟨w, hw, hzw⟩ := List.mem_flatMap.mp hz
  have hlate := h z (List.mem_flatten.mpr ⟨w, hw, List.mem_of_mem_take hzw⟩)
  rw [decide_eq_true_eq, not_and, not_le]
  exact fun _ => hlate

end Admitted

theorem le_of_mem_later {α : Type u} [Add α] [LinearOrder α] {width start : α} {ts : List α}
    (hsorted : ts.Pairwise (· ≤ ·)) {z : α}
    (hz : z ∈ (split width start ts).2.flatten)
    : start + width ≤ z := by
  induction ts with
  | nil => contradiction
  | cons t ts ih =>
    rw [List.pairwise_cons] at hsorted
    by_cases h : start + width ≤ t
    . have hmem : z ∈ t :: ts := by
        have hall := flatten_windows width t ts
        rw [windows, List.flatten_cons] at hall
        rw [split_of_le h, List.flatten_cons, List.cons_append, hall] at hz
        exact hz
      rcases List.mem_cons.mp hmem with rfl | hlater
      . exact h
      . exact le_trans h (hsorted.1 z hlater)
    . rw [split_of_not_le h] at hz
      exact ih hsorted.2 hz

section Interval

variable {α : Type u} [AddCommMonoid α] [LinearOrder α] [IsOrderedAddMonoid α]
variable {width start : α}

-- Between two windows that do not follow each other there is a whole width.
def Spread (width : α) : List (List α) → Prop
  | [] => True
  | w :: ws => (∀ x ∈ w, ∀ z ∈ ws.tail.flatten, x + width ≤ z) ∧ Spread width ws

-- The window behind the current one begins with one of the calls.
theorem le_of_mem_tail {ts : List α} (hsorted : ts.Pairwise (· ≤ ·)) {m z : α}
    (hm : ∀ t ∈ ts, m ≤ t) (hz : z ∈ (split width start ts).2.tail.flatten)
    : m + width ≤ z := by
  induction ts with
  | nil => contradiction
  | cons t ts ih =>
    rw [List.pairwise_cons] at hsorted
    by_cases h : start + width ≤ t
    . rw [split_of_le h, List.tail_cons] at hz
      exact le_trans (add_le_add_left (hm t List.mem_cons_self) width)
        (le_of_mem_later hsorted.2 hz)
    . rw [split_of_not_le h] at hz
      exact ih hsorted.2 (fun t ht => hm t (List.mem_cons_of_mem _ ht)) hz

theorem spread_windows {ts : List α} (hsorted : ts.Pairwise (· ≤ ·))
    : Spread width (windows width start ts) := by
  unfold windows
  induction ts generalizing start with
  | nil => exact ⟨fun _ h => absurd h List.not_mem_nil, trivial⟩
  | cons t ts ih =>
    rw [List.pairwise_cons] at hsorted
    by_cases h : start + width ≤ t
    . have hrest := @ih t hsorted.2
      rw [split_of_le h]
      refine ⟨fun _ h => absurd h List.not_mem_nil, ?_, hrest.2⟩
      intro x hx z hz
      rcases List.mem_cons.mp hx with rfl | hx
      . apply le_of_mem_later hsorted.2
        exact List.mem_flatten.mpr (by
          obtain ⟨w, hw, hzw⟩ := List.mem_flatten.mp hz
          exact ⟨w, List.mem_of_mem_tail hw, hzw⟩)
      . exact hrest.1 x hx z hz
    . have hrest := @ih start hsorted.2
      rw [split_of_not_le h]
      refine ⟨?_, hrest.2⟩
      intro x hx z hz
      rcases List.mem_cons.mp hx with rfl | hx
      . exact le_of_mem_tail hsorted.2 hsorted.1 hz
      . exact hrest.1 x hx z hz

-- Such an interval meets at most two windows.
theorem Spread.countP_le {ws : List (List α)} (h : Spread width ws) {a b : α}
    (hab : b < a + width) (limit : Nat)
    : (ws.flatMap (List.take limit)).countP (fun t => decide (a ≤ t ∧ t ≤ b)) ≤ 2 * limit := by
  induction ws with
  | nil => exact Nat.zero_le _
  | cons w ws ih =>
    rw [List.flatMap_cons, List.countP_append]
    by_cases hmeets : ∃ x ∈ w, a ≤ x
    . obtain ⟨x, hx, hax⟩ := hmeets
      have hlate : ∀ z ∈ ws.tail.flatten, b < z := by
        intro z hz
        exact lt_of_lt_of_le hab (le_trans (add_le_add_left hax width) (h.1 x hx z hz))
      have hfirst := countP_take_le limit (fun t => decide (a ≤ t ∧ t ≤ b)) w
      cases ws with
      | nil =>
        rw [List.flatMap_nil, List.countP_nil]
        omega
      | cons w' ws =>
        rw [List.tail_cons] at hlate
        have hsecond := countP_take_le limit (fun t => decide (a ≤ t ∧ t ≤ b)) w'
        rw [List.flatMap_cons, List.countP_append, countP_eq_zero_of_lt limit hlate]
        omega
    . have hnone : (w.take limit).countP (fun t => decide (a ≤ t ∧ t ≤ b)) = 0 := by
        rw [List.countP_eq_zero]
        intro x hx
        rw [decide_eq_true_eq, not_and_or]
        exact .inl fun hax => hmeets ⟨x, List.mem_of_mem_take hx, hax⟩
      rw [hnone, Nat.zero_add]
      exact ih h.2

theorem countP_decisions_le {ts : List α} (hsorted : ts.Pairwise (· ≤ ·)) {a b : α}
    (hab : b < a + width) (limit : Nat)
    : ((windows width start ts).flatMap (decisions limit)).countP
          (fun call => call.2 && decide (a ≤ call.1 ∧ call.1 ≤ b)) ≤ 2 * limit := by
  rw [countP_flatMap_decisions limit fun t => decide (a ≤ t ∧ t ≤ b)]
  exact (spread_windows hsorted).countP_le hab limit

end Interval

end FixedWindow
