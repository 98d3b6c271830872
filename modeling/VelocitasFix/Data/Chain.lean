import Mathlib.Data.List.Basic
import Mathlib.Data.List.Infix

/-!
This module contains singly linked lists whose links are kept apart from their nodes: `link` maps a
node to the one after it and `stop` ends the list.
-/

namespace Chain

variable {α : Type}

inductive IsChain (link : α → Option α) (stop : α) : α → List α → Prop where
  | nil : IsChain link stop stop []
  | cons {head next : α} {rest : List α} (hne : head ≠ stop) (hlink : link head = some next)
      (hrest : IsChain link stop next rest) : IsChain link stop head (head :: rest)

inductive Reachable (link : α → Option α) (stop head : α) : α → Prop where
  | head (hne : head ≠ stop) : Reachable link stop head head
  | next {a b : α} (h : Reachable link stop head a) (hlink : link a = some b) (hne : b ≠ stop)
      : Reachable link stop head b

variable {link link' : α → Option α} {stop head a : α} {l : List α}

namespace IsChain

theorem eq_cons (h : IsChain link stop head l) (hne : head ≠ stop)
    : ∃ next rest, l = head :: rest ∧ link head = some next ∧ IsChain link stop next rest := by
  cases h with
  | nil => contradiction
  | cons _ hlink hrest => exact ⟨_, _, rfl, hlink, hrest⟩

-- The links leave no choice.
theorem unique {l' : List α} (h : IsChain link stop head l) (h' : IsChain link stop head l')
    : l' = l := by
  induction h generalizing l' with
  | nil =>
    cases h' with
    | nil => rfl
    | cons hne _ _ => contradiction
  | cons hne hlink _ ih =>
    obtain ⟨_, rest, rfl, hlink', hrest⟩ := h'.eq_cons hne
    rw [hlink, Option.some.injEq] at hlink'
    subst hlink'
    rw [ih hrest]

theorem node (h : IsChain link stop head l) : ∀ a ∈ l, a ≠ stop ∧ (link a).isSome := by
  induction h with
  | nil => simp
  | cons hne hlink _ ih =>
    intro a ha
    cases ha with
    | head => simp [hne, hlink]
    | tail _ ha => apply ih _ ha

theorem congr (h : IsChain link stop head l) (heq : ∀ a ∈ l, link' a = link a)
    : IsChain link' stop head l := by
  induction h with
  | nil => apply IsChain.nil
  | cons hne hlink _ ih =>
    apply IsChain.cons hne
    . rw [heq _ List.mem_cons_self, hlink]
    . apply ih
      intro a ha
      apply heq
      apply List.mem_cons_of_mem _ ha

-- What is reachable from the head is where a tail of the list starts.
theorem suffix_of_reachable (h : IsChain link stop head l) (hreach : Reachable link stop head a)
    : ∃ rest, IsChain link stop a (a :: rest) ∧ a :: rest <:+ l := by
  induction hreach with
  | head hne =>
    obtain ⟨_, rest, rfl, _, _⟩ := h.eq_cons hne
    exact ⟨rest, h, List.suffix_rfl⟩
  | next _ hlink hne ih =>
    obtain ⟨rest, hchain, hsuffix⟩ := ih
    cases hchain with
    | cons _ hlink' hrest =>
      rw [hlink, Option.some.injEq] at hlink'
      subst hlink'
      obtain ⟨_, rest', rfl, _, _⟩ := hrest.eq_cons hne
      exact ⟨rest', hrest, (List.suffix_cons _ _).trans hsuffix⟩

theorem mem_of_reachable (h : IsChain link stop head l) (hreach : Reachable link stop head a)
    : a ∈ l := by
  obtain ⟨rest, _, hsuffix⟩ := h.suffix_of_reachable hreach
  apply hsuffix.mem
  apply List.mem_cons_self

theorem reachable_of_mem {start : α} (h : IsChain link stop start l)
    (hstart : start ≠ stop → Reachable link stop head start)
    : ∀ a ∈ l, Reachable link stop head a := by
  induction h with
  | nil => simp
  | cons hne hlink _ ih =>
    intro a ha
    cases ha with
    | head => apply hstart hne
    | tail _ ha =>
      apply ih _ a ha
      intro hne'
      apply (hstart hne).next hlink hne'

end IsChain

end Chain
