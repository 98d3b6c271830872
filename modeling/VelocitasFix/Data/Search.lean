import Mathlib.Data.List.Basic
import Mathlib.Data.List.Infix

/-!
This module contains the search for the first occurrence of a pattern in a text, and which parts of a
text the search passes over.
-/

namespace Search

variable {α : Type} {pat text xs ys : List α} {c d : α}

-- Two words, each of them up to a mark that is not in the other one.
theorem prefix_mark_iff {w w' p rest : List α} (h : c ∉ w') (h' : d ∉ w)
    : (w ++ c :: p) <+: (w' ++ d :: rest) ↔ w = w' ∧ c = d ∧ p <+: rest := by
  induction w generalizing w' with
  | nil =>
    cases w' with
    | nil => simp [List.cons_prefix_cons]
    | cons x w' =>
      have hne : c ≠ x := by
        intro heq
        exact h (heq ▸ List.mem_cons_self)
      simp [List.cons_prefix_cons, hne]
  | cons x w ih =>
    rw [List.mem_cons, not_or] at h'
    cases w' with
    | nil => simp [List.cons_prefix_cons, Ne.symm h'.1]
    | cons y w' =>
      rw [List.mem_cons, not_or] at h
      rw [List.cons_append, List.cons_append, List.cons_prefix_cons, ih h.2 h'.2, List.cons.injEq,
        and_assoc]

variable [DecidableEq α]

-- The offset of the first occurrence of `pat`.
def find (pat : List α) : List α → Option Nat
  | [] => if pat = [] then some 0 else none
  | x :: text => if pat <+: x :: text then some 0 else (find pat text).map (· + 1)

theorem find_eq_zero (h : pat <+: text) : find pat text = some 0 := by
  cases text with
  | nil => rw [find, if_pos (List.prefix_nil.mp h)]
  | cons x text => rw [find, if_pos h]

-- No occurrence starts in `xs`.
theorem find_append (h : ∀ s t, xs = s ++ t → t ≠ [] → ¬ pat <+: t ++ ys)
    : find pat (xs ++ ys) = (find pat ys).map (· + xs.length) := by
  induction xs with
  | nil => simp
  | cons x xs ih =>
    have hhead : ¬ pat <+: x :: (xs ++ ys) := h [] (x :: xs) rfl (List.cons_ne_nil x xs)
    have htail : ∀ s t, xs = s ++ t → t ≠ [] → ¬ pat <+: t ++ ys := by
      intro s t hxs
      exact h (x :: s) t (by rw [hxs]; rfl)
    rw [List.cons_append, find, if_neg hhead, ih htail, Option.map_map, List.length_cons]
    rfl

theorem find_append_of_not_mem (h : c ∉ xs)
    : find (c :: pat) (xs ++ ys) = (find (c :: pat) ys).map (· + xs.length) := by
  apply find_append
  intro s t hxs ht hpre
  cases t with
  | nil => exact ht rfl
  | cons x t =>
    have heq : c = x := (List.cons_prefix_cons.mp hpre).1
    apply h
    rw [hxs, heq]
    simp

theorem find_eq_none (hpat : c ∈ pat) (htext : c ∉ text) : find pat text = none := by
  have hskip : find pat (text ++ []) = (find pat []).map (· + text.length) := by
    apply find_append
    intro s t hxs _ hpre
    rw [List.append_nil] at hpre
    apply htext
    rw [hxs]
    exact List.mem_append_right s (hpre.subset hpat)
  rw [List.append_nil] at hskip
  rw [hskip, find, if_neg (List.ne_nil_of_mem hpat)]
  rfl

-- A block up to a mark holds no occurrence, if the pattern up to its own mark does not end it.
theorem find_append_mark {w p : List α} (hc : c ∉ w) (hd : d ∉ pat) (h : c = d → ¬ pat <:+ w)
    (ys : List α)
    : find (pat ++ c :: p) (w ++ d :: ys)
        = (find (pat ++ c :: p) ys).map (· + (w.length + 1)) := by
  have hskip : find (pat ++ c :: p) ((w ++ [d]) ++ ys)
      = (find (pat ++ c :: p) ys).map (· + (w ++ [d]).length) := by
    apply find_append
    intro s t hxs ht hpre
    obtain ⟨t', x, hconcat⟩ := (List.eq_nil_or_concat' t).resolve_left ht
    rw [hconcat, ← List.append_assoc] at hxs
    obtain ⟨hw, hx⟩ := List.append_inj' hxs rfl
    injection hx with hx
    rw [hconcat, ← hx, List.append_assoc] at hpre
    have hc' : c ∉ t' := fun hmem => hc (hw ▸ List.mem_append_right s hmem)
    obtain ⟨hpat, hcd, _⟩ := (prefix_mark_iff hc' hd).mp hpre
    apply h hcd
    rw [hw, hpat]
    apply List.suffix_append
  simpa using hskip

-- The first mark ends the first occurrence.
theorem find_mark {p : List α} (hxs : c ∉ xs) (hpat : c ∉ pat) (ys : List α)
    : find (pat ++ c :: p) (xs ++ (pat ++ c :: (p ++ ys))) = some xs.length := by
  rw [find_append]
  . rw [find_eq_zero (by simp)]
    simp
  . intro s t hst ht hpre
    have ht' : c ∉ t := fun hmem => hxs (hst ▸ List.mem_append_right s hmem)
    rw [← List.append_assoc] at hpre
    have heq := ((prefix_mark_iff (by simp [ht', hpat]) hpat).mp hpre).1
    exact ht (List.self_eq_append_left.mp heq)

theorem find_singleton (hxs : c ∉ xs) (ys : List α)
    : find [c] (xs ++ c :: ys) = some xs.length := by
  have hpat : c ∉ ([] : List α) := List.not_mem_nil
  exact find_mark hxs hpat ys

end Search
