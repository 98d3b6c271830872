import Mathlib.Data.List.Basic

/-!
This module contains properties of a history that say of each event what must have happened before
it.
-/

namespace History

variable {Event : Type} {q : List Event → Event → Prop} {log evs : List Event} {ev : Event}

def Each (q : List Event → Event → Prop) (log : List Event) : Prop :=
  ∀ earlier ev later, log = earlier ++ ev :: later → q earlier ev

theorem each_nil : Each q [] := by
  intro earlier ev later heq
  simp at heq

theorem each_concat : Each q (log ++ [ev]) ↔ Each q log ∧ q log ev := by
  constructor
  . intro h
    constructor
    . intro earlier ev' later heq
      apply h earlier ev' (later ++ [ev])
      simp [heq]
    . exact h log ev [] rfl
  . intro h earlier ev' later heq
    cases List.eq_nil_or_concat later with
    | inl hnil =>
      rw [hnil] at heq
      have hinj := List.append_inj' heq rfl
      rw [List.singleton_inj] at hinj
      rw [← hinj.1, ← hinj.2]
      exact h.2
    | inr hconcat =>
      rcases hconcat with ⟨later', last, rfl⟩
      rw [List.concat_eq_append, ← List.cons_append, ← List.append_assoc] at heq
      exact h.1 earlier ev' later' (List.append_inj' heq rfl).1

-- Events of which nothing is demanded.
theorem each_append (h : ∀ ev ∈ evs, ∀ earlier, q earlier ev) : Each q (log ++ evs) ↔ Each q log := by
  induction evs generalizing log with
  | nil => rw [List.append_nil]
  | cons ev evs ih =>
    rw [List.forall_mem_cons] at h
    rw [List.append_cons, ih h.2, each_concat]
    exact and_iff_left (h.1 log)

end History
