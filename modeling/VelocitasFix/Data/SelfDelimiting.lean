import Mathlib.Data.List.Basic
import Mathlib.Data.List.Infix

/-!
This module contains self-delimiting encodings: where the encoding of an item starts, the item can
be read off, whatever follows.
-/

universe u v

def SelfDelimiting {α : Type u} {β : Type v} (P : α → Prop) (encode : α → List β) : Prop :=
  ∀ a b xs ys, P a → P b → encode a ++ xs = encode b ++ ys → a = b

namespace SelfDelimiting

variable {α : Type u} {β : Type v} {P : α → Prop} {encode : α → List β}

theorem eq_and_eq (h : SelfDelimiting P encode) {a b : α} {xs ys : List β} (ha : P a) (hb : P b)
    (heq : encode a ++ xs = encode b ++ ys)
    : a = b ∧ xs = ys := by
  have hab := h a b xs ys ha hb heq
  subst hab
  exact ⟨rfl, List.append_cancel_left heq⟩

-- One sequence of encodings starts with another if and only if the sequence of items does.
theorem flatMap_isPrefix_iff (h : SelfDelimiting P encode) (hne : ∀ a, encode a ≠ [])
    {as bs : List α} (has : ∀ a ∈ as, P a) (hbs : ∀ b ∈ bs, P b)
    : as.flatMap encode <+: bs.flatMap encode ↔ as <+: bs := by
  constructor
  . intro hpre
    cases hpre with
    | intro rest hrest =>
      induction as generalizing bs with
      | nil => apply List.nil_prefix
      | cons a as ih =>
        cases bs with
        | nil =>
          have := hne a
          simp [this] at hrest
        | cons b bs =>
          rw [List.flatMap_cons, List.flatMap_cons, List.append_assoc] at hrest
          rw [List.forall_mem_cons] at has hbs
          cases h.eq_and_eq has.1 hbs.1 hrest with
          | intro hab hrest' =>
            rw [hab]
            apply List.cons_prefix_cons.mpr
            exact ⟨rfl, ih has.2 hbs.2 hrest'⟩
  . intro hpre
    cases hpre with
    | intro rest hrest =>
      rw [← hrest, List.flatMap_append]
      apply List.prefix_append

end SelfDelimiting
