import Mathlib.Data.List.Basic

/-!
This module contains the update of the first element of a list that satisfies a predicate.
-/

namespace List

variable {α κ : Type} (p : α → Bool) (f : α → α)

def modifyFirst : List α → Option (List α)
  | [] => none
  | x :: l => if p x then some (f x :: l) else (modifyFirst l).map (x :: ·)

variable {p f}

theorem modifyFirst_eq_none {l : List α} : l.modifyFirst p f = none ↔ ∀ x ∈ l, p x = false := by
  induction l with
  | nil => simp [modifyFirst]
  | cons x l ih =>
    unfold modifyFirst
    split
    . next hx => simp [hx]
    . next hx => simp [hx, ih]

theorem exists_of_modifyFirst {l l' : List α} (h : l.modifyFirst p f = some l')
    : ∃ l₁ x l₂, l = l₁ ++ x :: l₂ ∧ l' = l₁ ++ f x :: l₂ ∧ p x = true
        ∧ ∀ y ∈ l₁, p y = false := by
  induction l generalizing l' with
  | nil => contradiction
  | cons x l ih =>
    unfold modifyFirst at h
    split at h
    . next hx =>
      injection h with h
      exact ⟨[], x, l, rfl, h.symm, hx, by simp⟩
    . next hx =>
      obtain ⟨l1, hl1, hl'⟩ := Option.map_eq_some_iff.mp h
      obtain ⟨l₁, y, l₂, hl, hmod, hy, hbefore⟩ := ih hl1
      refine ⟨x :: l₁, y, l₂, by rw [hl]; rfl, by rw [← hl', hmod]; rfl, hy, ?_⟩
      rw [forall_mem_cons]
      exact ⟨by simpa using hx, hbefore⟩

theorem modifyFirst_append_cons {l₁ l₂ : List α} {x : α} (h : ∀ y ∈ l₁, p y = false)
    (hx : p x = true)
    : (l₁ ++ x :: l₂).modifyFirst p f = some (l₁ ++ f x :: l₂) := by
  induction l₁ with
  | nil =>
    rw [nil_append, modifyFirst, if_pos hx]
    rfl
  | cons y l₁ ih =>
    rw [forall_mem_cons] at h
    rw [cons_append, modifyFirst, if_neg (by simp [h.1]), ih h.2]
    rfl

theorem modifyFirst_congr {g : α → α} {l : List α} (h : ∀ x ∈ l, p x = true → f x = g x)
    : l.modifyFirst p f = l.modifyFirst p g := by
  induction l with
  | nil => rfl
  | cons x l ih =>
    rw [forall_mem_cons] at h
    rw [modifyFirst, modifyFirst, ih h.2]
    split
    . next hx => rw [h.1 hx]
    . rfl

end List
