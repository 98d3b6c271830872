import Mathlib.Data.List.Nodup
import Mathlib.Data.List.Range
import Mathlib.Data.Nat.ModEq

/-!
This module contains the numbers that a counter of fixed width hands out one after the other: they are
distinct as long as the counter has not gone around.
-/

namespace Counter

variable {m start n : Nat}

-- The first `n` numbers of a counter below `m`.
def issued (m start n : Nat) : List Nat := (List.range n).map fun k => (start + k) % m

@[simp]
theorem length_issued (m start n : Nat) : (issued m start n).length = n := by
  rw [issued, List.length_map, List.length_range]

theorem issued_succ (m start n : Nat)
    : issued m start (n + 1) = issued m start n ++ [(start + n) % m] := by
  rw [issued, List.range_succ, List.map_append]
  rfl

theorem eq_of_add_mod_eq {i j : Nat} (hi : i < m) (hj : j < m)
    (h : (start + i) % m = (start + j) % m) : i = j := by
  have hmod : Nat.ModEq m i j := Nat.ModEq.add_left_cancel' start h
  rw [Nat.ModEq, Nat.mod_eq_of_lt hi, Nat.mod_eq_of_lt hj] at hmod
  exact hmod

theorem nodup_issued (h : n ≤ m) : (issued m start n).Nodup := by
  apply List.Nodup.map_on
  . intro i hi j hj heq
    rw [List.mem_range] at hi hj
    exact eq_of_add_mod_eq (by omega) (by omega) heq
  . exact List.nodup_range

-- The number that is handed out next is new.
theorem next_not_mem_issued (h : n < m) : (start + n) % m ∉ issued m start n := by
  have hnodup := @nodup_issued m start (n + 1) (by omega)
  rw [issued_succ, List.nodup_append] at hnodup
  intro hmem
  exact hnodup.2.2 _ hmem _ List.mem_cons_self rfl

end Counter
