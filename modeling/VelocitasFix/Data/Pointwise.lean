import VelocitasFix.Data.ModifyFirst
import Mathlib.Data.List.Forall2

/-!
This module contains what two lists have in common whose elements are related one by one, as they are
before and after an update of single elements.
-/

namespace List

variable {α β κ : Type}

theorem exists_of_forall₂ {R : α → β → Prop} {l : List α} {l' : List β} (h : Forall₂ R l l') {y : β}
    (hy : y ∈ l')
    : ∃ x ∈ l, R x y := by
  induction h with
  | nil => contradiction
  | cons hR _ ih =>
    cases mem_cons.mp hy with
    | inl heq => exact ⟨_, mem_cons_self, heq ▸ hR⟩
    | inr hmem =>
      obtain ⟨x, hmem, hx⟩ := ih hmem
      exact ⟨x, mem_cons_of_mem _ hmem, hx⟩

variable {R : α → α → Prop} {p : α → Bool} {l l' : List α}

-- Where the selected elements were selected before, under the same key, no key is new.
theorem sublist_of_forall₂ {key : α → κ} (hR : ∀ x y, R x y → p y = true → p x = true ∧ key y = key x)
    (h : Forall₂ R l l')
    : ((l'.filter p).map key).Sublist ((l.filter p).map key) := by
  induction h with
  | nil => exact .slnil
  | @cons x y l l' hxy _ ih =>
    cases hy : p y with
    | true =>
      obtain ⟨hx, hkey⟩ := hR x y hxy hy
      rw [filter_cons_of_pos hy, filter_cons_of_pos hx, map_cons, map_cons, hkey]
      exact ih.cons_cons _
    | false =>
      rw [filter_cons_of_neg (by simp [hy])]
      apply ih.trans
      exact ((sublist_cons_self x l).filter p).map key

theorem forall₂_replaced {l₁ l₂ : List α} {x y : α} (hsame : ∀ z ∈ l₁ ++ l₂, R z z) (h : R x y)
    : Forall₂ R (l₁ ++ x :: l₂) (l₁ ++ y :: l₂) := by
  rw [forall_mem_append] at hsame
  apply rel_append (forall₂_same.mpr hsame.1)
  exact .cons h (forall₂_same.mpr hsame.2)

theorem forall₂_modifyFirst {f : α → α} (hsame : ∀ x ∈ l, R x x) (hf : ∀ x ∈ l, R x (f x))
    : Forall₂ R l ((l.modifyFirst p f).getD l) := by
  cases hmodified : l.modifyFirst p f with
  | none => exact forall₂_same.mpr hsame
  | some l' =>
    obtain ⟨l₁, x, l₂, rfl, rfl, _, _⟩ := exists_of_modifyFirst hmodified
    rw [forall_mem_append, forall_mem_cons] at hsame
    apply forall₂_replaced
    . rw [forall_mem_append]
      exact ⟨hsame.1, hsame.2.2⟩
    . exact hf x (mem_append_cons_self)

end List
