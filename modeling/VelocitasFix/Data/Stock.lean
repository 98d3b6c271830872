import Mathlib.Data.Multiset.Filter
import Mathlib.Logic.Function.Basic

/-!
This module contains a stock of items, each of which is free or has exactly one owner, and its two
moves: an owner takes the first free item, and an owner gives one of its items back.
-/

structure Stock (ι α : Type) where
  owned : ι → Multiset α
  free : List α
  nodup_owned : ∀ i, (owned i).Nodup
  nodup_free : free.Nodup
  disjoint : ∀ i j, i ≠ j → ∀ a ∈ owned i, a ∉ owned j
  apart : ∀ i, ∀ a ∈ owned i, a ∉ free

namespace Stock

variable {ι α : Type}

section

variable [DecidableEq ι]

theorem forall_update {β : Type} {f : ι → β} {p : β → Prop} (h : ∀ j, p (f j)) {i : ι} {b : β}
    (hb : p b)
    : ∀ j, p (Function.update f i b j) := by
  rw [Function.forall_update_iff f fun _ b => p b]
  constructor
  . exact hb
  . intro j _
    apply h

theorem disjoint_update {owned : ι → Multiset α} {i : ι} {items : Multiset α}
    (h : ∀ i j, i ≠ j → ∀ a ∈ owned i, a ∉ owned j)
    (hitems : ∀ a ∈ items, ∀ j, j ≠ i → a ∉ owned j)
    : ∀ j k, j ≠ k → ∀ a ∈ Function.update owned i items j,
        a ∉ Function.update owned i items k := by
  intro j k hjk a ha
  by_cases hj : j = i
  . subst hj
    rw [Function.update_self] at ha
    rw [Function.update_of_ne hjk.symm]
    apply hitems a ha k hjk.symm
  . rw [Function.update_of_ne hj] at ha
    by_cases hk : k = i
    . subst hk
      rw [Function.update_self]
      intro hmem
      apply hitems a hmem j hj ha
    . rw [Function.update_of_ne hk]
      apply h j k hjk a ha

end

variable (s : Stock ι α) (i : ι) {a : α} {rest : List α}

def full (items : List α) (h : items.Nodup) : Stock ι α where
  owned := fun _ => 0
  free := items
  nodup_owned := by simp
  nodup_free := h
  disjoint := by simp
  apart := by simp

theorem not_mem_owned_of_mem_free (h : a ∈ s.free) : a ∉ s.owned i := by
  intro hmem
  apply s.apart i a hmem h

variable [DecidableEq ι] [DecidableEq α]

def take (h : s.free = a :: rest) : Stock ι α where
  owned := Function.update s.owned i (a ::ₘ s.owned i)
  free := rest
  nodup_owned := by
    have hfree := s.not_mem_owned_of_mem_free i (a := a) (by simp [h])
    apply forall_update s.nodup_owned
    apply Multiset.nodup_cons.mpr ⟨hfree, s.nodup_owned i⟩
  nodup_free := by
    have := s.nodup_free
    rw [h] at this
    exact this.of_cons
  disjoint := by
    apply disjoint_update s.disjoint
    intro b hb j hj
    cases Multiset.mem_cons.mp hb with
    | inl heq =>
      apply s.not_mem_owned_of_mem_free
      simp [h, heq]
    | inr hb => apply s.disjoint i j hj.symm b hb
  apart := by
    have hnodup := s.nodup_free
    have hrest : ∀ b ∈ rest, b ∈ s.free := by simp +contextual [h]
    rw [h, List.nodup_cons] at hnodup
    have hapart : ∀ j, ∀ b ∈ s.owned j, b ∉ rest := by
      intro j b hb hmem
      apply s.apart j b hb (hrest b hmem)
    apply @forall_update _ _ _ _ (fun items => ∀ b ∈ items, b ∉ rest) hapart
    intro b hb
    cases Multiset.mem_cons.mp hb with
    | inl heq =>
      rw [heq]
      exact hnodup.left
    | inr hb => apply hapart i b hb

def give (h : a ∈ s.owned i) : Stock ι α where
  owned := Function.update s.owned i ((s.owned i).erase a)
  free := a :: s.free
  nodup_owned := by
    apply forall_update s.nodup_owned
    apply (s.nodup_owned i).erase
  nodup_free := by
    apply List.nodup_cons.mpr ⟨s.apart i a h, s.nodup_free⟩
  disjoint := by
    apply disjoint_update s.disjoint
    intro b hb j hj
    apply s.disjoint i j hj.symm b (Multiset.mem_of_mem_erase hb)
  apart := by
    rw [Function.forall_update_iff s.owned fun _ items => ∀ b ∈ items, b ∉ a :: s.free]
    constructor
    . intro b hb hmem
      cases List.mem_cons.mp hmem with
      | inl heq =>
        rw [heq] at hb
        apply (s.nodup_owned i).notMem_erase hb
      | inr hmem => apply s.apart i b (Multiset.mem_of_mem_erase hb) hmem
    . intro j hj b hb hmem
      cases List.mem_cons.mp hmem with
      | inl heq =>
        rw [heq] at hb
        apply s.disjoint j i hj a hb h
      | inr hmem => apply s.apart j b hb hmem

inductive Move : Stock ι α → Stock ι α → Prop where
  | take {a : α} {rest : List α} (s : Stock ι α) (i : ι) (h : s.free = a :: rest)
      : Move s (s.take i h)
  | give {a : α} (s : Stock ι α) (i : ι) (h : a ∈ s.owned i) : Move s (s.give i h)

def Has (s : Stock ι α) (a : α) : Prop := a ∈ s.free ∨ ∃ i, a ∈ s.owned i

-- No move loses an item.
theorem Move.has {s s' : Stock ι α} (h : Move s s') (hhas : s.Has a) : s'.Has a := by
  cases h with
  | @take b rest s i h =>
    cases hhas with
    | inl hfree =>
      rw [h] at hfree
      cases List.mem_cons.mp hfree with
      | inl heq =>
        right
        exact ⟨i, by simp [Stock.take, heq]⟩
      | inr hrest =>
        left
        exact hrest
    | inr howned =>
      obtain ⟨j, hj⟩ := howned
      right
      refine ⟨j, ?_⟩
      by_cases hji : j = i
      . subst hji
        simp [Stock.take, hj]
      . simp [Stock.take, Function.update_of_ne hji, hj]
  | @give b s i h =>
    by_cases heq : a = b
    . left
      simp [Stock.give, heq]
    . cases hhas with
      | inl hfree =>
        left
        simp [Stock.give, hfree]
      | inr howned =>
        obtain ⟨j, hj⟩ := howned
        right
        refine ⟨j, ?_⟩
        by_cases hji : j = i
        . subst hji
          simp [Stock.give, Multiset.mem_erase_of_ne heq, hj]
        . simp [Stock.give, Function.update_of_ne hji, hj]

end Stock
