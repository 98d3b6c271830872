import VelocitasFix.Data.KeyedTable
import Mathlib.Data.List.Induction

/-!
This module contains indices over a list: an array that holds under each key the position of the last
element with this key. Looking a key up there is the same as searching the list from its end.
-/

namespace DirectIndex

variable {α : Type} (key : α → Nat)

def build (size : Nat) (xs : List α) : List (Option Nat) :=
  xs.zipIdx.foldl (fun index p => index.set (key p.1) (some p.2)) (List.replicate size none)

def lookup (index : List (Option Nat)) (xs : List α) (k : Nat) : Option α :=
  (index.getD k none).bind (xs[·]?)

variable {key} {size : Nat} {xs : List α}

theorem build_concat (xs : List α) (x : α)
    : build key size (xs ++ [x]) = (build key size xs).set (key x) (some xs.length) := by
  rw [build, List.zipIdx_append, List.foldl_append, Nat.zero_add]
  rfl

@[simp]
theorem length_build : (build key size xs).length = size := by
  induction xs using List.reverseRecOn with
  | nil => apply List.length_replicate
  | append_singleton xs x ih => rw [build_concat, List.length_set, ih]

-- The index only points into the list.
theorem lt_of_mem_build {i : Nat} (h : some i ∈ build key size xs) : i < xs.length := by
  induction xs using List.reverseRecOn with
  | nil => exact absurd (List.eq_of_mem_replicate h) nofun
  | append_singleton xs x ih =>
    rw [build_concat] at h
    rw [List.length_append, List.length_singleton]
    cases List.mem_or_eq_of_mem_set h with
    | inl hmem => exact Nat.lt_succ_of_lt (ih hmem)
    | inr heq =>
      rw [Option.some.inj heq]
      exact Nat.lt_succ_self _

theorem lookup_concat {k : Nat} (hk : k < size) (x : α)
    : lookup (build key size (xs ++ [x])) (xs ++ [x]) k
        = if key x = k then some x else lookup (build key size xs) xs k := by
  unfold lookup
  rw [build_concat, List.getD_eq_getElem?_getD, List.getD_eq_getElem?_getD]
  split
  . next heq =>
    rw [heq, List.getElem?_set_self (by rw [length_build]; exact hk), Option.getD_some,
      Option.bind_some, List.getElem?_concat_length]
  . next hne =>
    rw [List.getElem?_set_ne hne]
    have hlt : k < (build key size xs).length := by
      rw [length_build]
      exact hk
    rw [List.getElem?_eq_getElem hlt, Option.getD_some]
    cases hentry : (build key size xs)[k] with
    | none => rfl
    | some i =>
      have hmem : some i ∈ build key size xs := by
        rw [← hentry]
        apply List.getElem_mem
      rw [Option.bind_some, Option.bind_some, List.getElem?_append_left (lt_of_mem_build hmem)]

theorem lookup_build {k : Nat} (hk : k < size)
    : lookup (build key size xs) xs k = KeyedTable.row key xs.reverse k := by
  induction xs using List.reverseRecOn with
  | nil => simp [lookup, build, KeyedTable.row, hk]
  | append_singleton xs x ih =>
    rw [lookup_concat hk, ih, List.reverse_append, List.reverse_singleton, List.singleton_append]
    unfold KeyedTable.row
    split
    . next heq => rw [List.find?_cons_of_pos (by simpa using heq)]
    . next hne => rw [List.find?_cons_of_neg (by simpa using hne)]

end DirectIndex
