import Mathlib.Data.List.Infix
import Mathlib.Order.Defs.PartialOrder

/-!
This module contains runs of a deterministic machine: the states that a list of operations leads
through are those after its prefixes, and what the operations count on their way adds up.
-/

namespace Machine

variable {State Op : Type} {step : State → Op → State} {s : State} {ops : List Op}
variable {p inv : State → Prop} {ok : State → Op → Prop}

theorem run_of_step (h : inv s) (hstep : ∀ s op, inv s → inv (step s op))
    : inv (ops.foldl step s) :=
  List.foldlRecOn ops step h fun s hs op _ => hstep s op hs

theorem forall_prefix_of_step (h : inv s)
    (hstep : ∀ pre op, pre ++ [op] <+: ops → inv (pre.foldl step s) →
      inv (step (pre.foldl step s) op))
    : ∀ pre, pre <+: ops → inv (pre.foldl step s) := by
  intro pre hpre
  induction pre using List.reverseRecOn with
  | nil => exact h
  | append_singleton pre op ih =>
    rw [List.foldl_append]
    exact hstep pre op hpre (ih (List.IsPrefix.trans (List.prefix_append pre [op]) hpre))

/-
An operation that is not `ok` leads to a state without the property, one that is `ok` keeps the
invariant behind it: then the property holds all along exactly when every operation is `ok`.
-/
theorem forall_prefix_iff (h : inv s) (hinv : ∀ s, inv s → p s)
    (hok : ∀ s op, inv s → ok s op → inv (step s op))
    (hbad : ∀ s op, inv s → ¬ ok s op → ¬ p (step s op))
    : (∀ pre, pre <+: ops → p (pre.foldl step s))
        ↔
      ∀ pre op, pre ++ [op] <+: ops → ok (pre.foldl step s) op := by
  constructor
  . intro hp pre op hpre
    have hguard (pre : List Op) (op : Op) (hpre : pre ++ [op] <+: ops)
        (hs : inv (pre.foldl step s))
        : ok (pre.foldl step s) op := by
      by_contra hnot
      apply hbad _ op hs hnot
      have hnext := hp _ hpre
      rw [List.foldl_append] at hnext
      exact hnext
    apply hguard pre op hpre
    apply forall_prefix_of_step h _ pre
      (List.IsPrefix.trans (List.prefix_append pre [op]) hpre)
    intro pre op hpre hs
    exact hok _ op hs (hguard pre op hpre hs)
  . intro hall pre hpre
    apply hinv
    apply forall_prefix_of_step h _ pre hpre
    intro pre op hpre hs
    exact hok _ op hs (hall pre op hpre)

-- A measure of the state grows along a run exactly when every operation lets it grow.
theorem measure_mono_iff {α : Type} [Preorder α] (measure : State → α)
    : (∀ pre later, pre <+: later → later <+: ops →
          measure (pre.foldl step s) ≤ measure (later.foldl step s))
        ↔
      ∀ pre op, pre ++ [op] <+: ops →
        measure (pre.foldl step s) ≤ measure (step (pre.foldl step s) op) := by
  constructor
  . intro h pre op hpre
    have hle := h pre (pre ++ [op]) (List.prefix_append pre [op]) hpre
    rw [List.foldl_append] at hle
    exact hle
  . intro hstep pre later hpre hlater
    obtain ⟨between, rfl⟩ := hpre
    induction between using List.reverseRecOn with
    | nil => rw [List.append_nil]
    | append_singleton between op ih =>
      rw [← List.append_assoc] at hlater ⊢
      have hle := ih (List.IsPrefix.trans (List.prefix_append _ [op]) hlater)
      rw [List.foldl_append]
      exact le_trans hle (hstep _ op hlater)

-- What the operations of a run count, each in the state it comes to.
def tally (step : State → Op → State) (count : State → Op → Nat) : State → List Op → Nat
  | _, [] => 0
  | s, op :: ops => count s op + tally step count (step s op) ops

theorem tally_eq_countP {q : Op → Bool}
    : tally step (fun _ op => (q op).toNat) s ops = ops.countP q := by
  induction ops generalizing s with
  | nil => rfl
  | cons op ops ih =>
    rw [tally, ih, List.countP_cons, Nat.add_comm]
    cases q op with
    | false => rfl
    | true => rfl

theorem tally_add {first second : State → Op → Nat}
    : tally step (fun s op => first s op + second s op) s ops
        = tally step first s ops + tally step second s ops := by
  induction ops generalizing s with
  | nil => rfl
  | cons op ops ih =>
    rw [tally, tally, tally, ih]
    omega

-- A quantity of the state that every operation adds to.
theorem total_of_step {quantity : State → Nat} {gain : State → Op → Nat}
    (hstep : ∀ s op, quantity (step s op) = quantity s + gain s op)
    : quantity (ops.foldl step s) = quantity s + tally step gain s ops := by
  induction ops generalizing s with
  | nil => rfl
  | cons op ops ih => rw [List.foldl_cons, ih, hstep, tally, Nat.add_assoc]

-- A quantity of the state that every operation changes by what comes in and what goes out.
theorem balance_of_step {quantity : State → Nat} {gain loss : State → Op → Nat} (h : inv s)
    (hinv : ∀ s op, inv s → inv (step s op))
    (hstep : ∀ s op, inv s → quantity (step s op) + loss s op = quantity s + gain s op)
    : quantity (ops.foldl step s) + tally step loss s ops
        = quantity s + tally step gain s ops := by
  induction ops generalizing s with
  | nil => rfl
  | cons op ops ih =>
    have hnext := hstep s op h
    have hrest := ih (hinv s op h)
    rw [List.foldl_cons, tally, tally]
    omega

end Machine
