import VelocitasFix.Data.ModifyFirst
import Mathlib.Data.List.Nodup
import Mathlib.Data.List.Perm.Basic

/-!
This module contains tables of rows that are found by a key: an upsert merges a new row into the old
row with the same key, and goes to the end of the table if there is none.
-/

namespace KeyedTable

variable {α κ : Type} [DecidableEq κ] (key : α → κ) (merge : α → α → α)

def upsert (table : List α) (x : α) : List α :=
  match table.modifyFirst (fun r => key r = key x) (fun r => merge r x) with
  | some table => table
  | none => table ++ [x]

def upsertAll (table : List α) (xs : List α) : List α :=
  xs.foldl (upsert key merge) table

def row (table : List α) (k : κ) : Option α :=
  table.find? fun r => key r = k

-- What the rows `xs` with the key of `r` make of it, one after the other.
def rowAfter (r : Option α) (xs : List α) : Option α :=
  xs.foldl (fun r x => some (r.elim x fun r => merge r x)) r

variable {key merge}

theorem row_eq_none_iff {table : List α} {k : κ} : row key table k = none ↔ k ∉ table.map key := by
  simp [row]

theorem isSome_row_iff {table : List α} {k : κ} : (row key table k).isSome ↔ k ∈ table.map key := by
  simp [row]

theorem row_eq_some_iff {table : List α} (h : (table.map key).Nodup) {k : κ} {x : α}
    : row key table k = some x ↔ x ∈ table ∧ key x = k := by
  unfold row
  constructor
  . intro hfind
    exact ⟨List.mem_of_find?_eq_some hfind, by simpa using List.find?_some hfind⟩
  . rintro ⟨hmem, hkey⟩
    cases hfind : table.find? (key · = k) with
    | none =>
      rw [List.find?_eq_none] at hfind
      exact absurd (by simpa using hkey) (hfind x hmem)
    | some y =>
      have hy : key y = k := by simpa using List.find?_some hfind
      congr 1
      exact List.inj_on_of_nodup_map h (List.mem_of_find?_eq_some hfind) hmem (hy.trans hkey.symm)

-- With distinct keys the order of the rows makes no difference.
theorem row_reverse {table : List α} (h : (table.map key).Nodup) (k : κ)
    : row key table.reverse k = row key table k := by
  have hreverse : (table.reverse.map key).Nodup := by
    rw [List.map_reverse, List.nodup_reverse]
    exact h
  apply Option.ext
  intro x
  rw [row_eq_some_iff hreverse, row_eq_some_iff h, List.mem_reverse]

-- What an upsert does: it changes the first row with the key, or adds the new row.
theorem upsert_cases (table : List α) (x : α)
    : (key x ∉ table.map key ∧ upsert key merge table x = table ++ [x])
        ∨ ∃ l₁ r l₂, table = l₁ ++ r :: l₂ ∧ upsert key merge table x = l₁ ++ merge r x :: l₂
          ∧ key r = key x ∧ key x ∉ l₁.map key := by
  unfold upsert
  cases hmodify : table.modifyFirst (fun r => key r = key x) (fun r => merge r x) with
  | none =>
    left
    have hnone := List.modifyFirst_eq_none.mp hmodify
    refine ⟨?_, rfl⟩
    simpa using hnone
  | some table' =>
    right
    obtain ⟨l₁, r, l₂, hl, hl', hkey, hbefore⟩ := List.exists_of_modifyFirst hmodify
    exact ⟨l₁, r, l₂, hl, hl', by simpa using hkey, by simpa using hbefore⟩

section Keys

variable (hkey : ∀ r x, key (merge r x) = key r)

include hkey

theorem map_key_upsert (table : List α) (x : α)
    : (upsert key merge table x).map key
        = if key x ∈ table.map key then table.map key else table.map key ++ [key x] := by
  cases @upsert_cases α κ _ key merge table x with
  | inl hnew => rw [hnew.2, if_neg hnew.1, List.map_append, List.map_singleton]
  | inr hold =>
    obtain ⟨l₁, r, l₂, hl, hl', hr, -⟩ := hold
    rw [hl', if_pos]
    . rw [hl, List.map_append, List.map_append, List.map_cons, List.map_cons, hkey]
    . rw [hl, ← hr]
      simp

theorem row_upsert (table : List α) (x : α) (k : κ)
    : row key (upsert key merge table x) k
        = if key x = k then rowAfter merge (row key table k) [x] else row key table k := by
  unfold row rowAfter
  cases @upsert_cases α κ _ key merge table x with
  | inl hnew =>
    rw [hnew.2, List.find?_append]
    split
    . next hk =>
      have hnone : table.find? (fun r => key r = k) = none := by
        rw [← hk]
        exact row_eq_none_iff.mpr hnew.1
      simp [hnone, hk]
    . next hk => simp [hk]
  | inr hold =>
    obtain ⟨l₁, r, l₂, hl, hl', hr, hbefore⟩ := hold
    rw [hl', hl, List.find?_append, List.find?_append]
    split
    . next hk =>
      have hnone : l₁.find? (fun r => key r = k) = none := by
        rw [← hk]
        exact row_eq_none_iff.mpr hbefore
      simp [hnone, hkey, hr, hk]
    . next hk => simp [hkey, hr, hk]

theorem row_upsertAll (table xs : List α) (k : κ)
    : row key (upsertAll key merge table xs) k
        = rowAfter merge (row key table k) (xs.filter fun x => key x = k) := by
  induction xs generalizing table with
  | nil => rfl
  | cons x xs ih =>
    rw [upsertAll, List.foldl_cons]
    rw [← upsertAll, ih, row_upsert hkey, List.filter_cons]
    by_cases hk : key x = k
    . rw [if_pos hk, if_pos (decide_eq_true hk)]
      rfl
    . rw [if_neg hk, if_neg (by simpa using hk)]

-- The keys of a table stay in front, and a new key is that of one of the rows.
theorem exists_keys_upsertAll {table xs : List α} (h : (table.map key).Nodup)
    : ∃ new, (upsertAll key merge table xs).map key = table.map key ++ new
        ∧ (table.map key ++ new).Nodup ∧ new.length ≤ xs.length := by
  induction xs generalizing table with
  | nil => exact ⟨[], by simp [upsertAll], by simpa using h, Nat.le_refl _⟩
  | cons x xs ih =>
    have hmap := @map_key_upsert α κ _ key merge hkey table x
    have hnodup : ((upsert key merge table x).map key).Nodup := by
      rw [hmap]
      split
      . exact h
      . next hnot => exact List.nodup_append.mpr ⟨h, List.nodup_singleton _, by simpa using hnot⟩
    obtain ⟨new, hnew, hnodup', hlen⟩ := ih hnodup
    rw [upsertAll, List.foldl_cons]
    rw [← upsertAll, hnew]
    rw [hmap] at hnodup' ⊢
    split at hnodup'
    . next hmem =>
      rw [if_pos hmem]
      exact ⟨new, rfl, hnodup', Nat.le_succ_of_le hlen⟩
    . next hnot =>
      rw [if_neg hnot]
      rw [List.append_assoc] at hnodup' ⊢
      exact ⟨_, rfl, hnodup', Nat.succ_le_succ hlen⟩

theorem nodup_upsertAll {table xs : List α} (h : (table.map key).Nodup)
    : ((upsertAll key merge table xs).map key).Nodup := by
  obtain ⟨new, hnew, hnodup, -⟩ := @exists_keys_upsertAll α κ _ key merge hkey table xs h
  rw [hnew]
  exact hnodup

end Keys

theorem ext_of_row {table table' : List α} (h : (table.map key).Nodup)
    (hkeys : table.map key = table'.map key) (hrow : ∀ k, row key table k = row key table' k)
    : table = table' := by
  induction table generalizing table' with
  | nil =>
    rw [List.map_nil] at hkeys
    exact (List.map_eq_nil_iff.mp hkeys.symm).symm
  | cons r rs ih =>
    cases table' with
    | nil => contradiction
    | cons s ss =>
      rw [List.map_cons, List.map_cons] at hkeys
      injection hkeys with hhead htail
      rw [List.map_cons, List.nodup_cons] at h
      have hrs : r = s := by
        have := hrow (key r)
        simpa [row, hhead] using this
      rw [hrs]
      congr 1
      apply ih h.2 htail
      intro k
      by_cases hk : key r = k
      . have hnone : row key rs k = none := row_eq_none_iff.mpr (by rw [← hk]; exact h.1)
        have hnone' : row key ss k = none :=
          row_eq_none_iff.mpr (by rw [← hk, ← htail]; exact h.1)
        rw [hnone, hnone']
      . have := hrow k
        have hk' : key s ≠ k := by rwa [← hrs]
        simpa [row, hk, hk'] using this

-- Two ways to change a table agree if they agree on each row, and if one of them adds at most one.
theorem upsertAll_eq_iff (hkey : ∀ r x, key (merge r x) = key r) {table xs ys : List α}
    (h : (table.map key).Nodup) (hlen : xs.length ≤ 1)
    : upsertAll key merge table xs = upsertAll key merge table ys
        ↔ ∀ k, rowAfter merge (row key table k) (xs.filter fun x => key x = k)
            = rowAfter merge (row key table k) (ys.filter fun y => key y = k) := by
  constructor
  . intro heq k
    rw [← row_upsertAll hkey, ← row_upsertAll hkey, heq]
  . intro hrows
    have hrow (k : κ) : row key (upsertAll key merge table xs) k
        = row key (upsertAll key merge table ys) k := by
      rw [row_upsertAll hkey, row_upsertAll hkey]
      exact hrows k
    apply ext_of_row (nodup_upsertAll hkey h) ?_ hrow
    obtain ⟨new, hnew, hnodup, hle⟩ := @exists_keys_upsertAll α κ _ key merge hkey table xs h
    obtain ⟨new', hnew', hnodup', -⟩ := @exists_keys_upsertAll α κ _ key merge hkey table ys h
    have hmem (k : κ) : k ∈ table.map key ++ new ↔ k ∈ table.map key ++ new' := by
      rw [← hnew, ← hnew', ← isSome_row_iff, ← isSome_row_iff, hrow k]
    have hperm : new.Perm new' := by
      have happ := (List.perm_ext_iff_of_nodup hnodup hnodup').mpr hmem
      exact (List.perm_append_left_iff _).mp happ
    rw [hnew, hnew']
    congr 1
    cases new with
    | nil => exact hperm.nil_eq
    | cons k ks =>
      have hks : ks = [] := by
        rw [← List.length_eq_zero_iff]
        rw [List.length_cons] at hle
        omega
      rw [hks] at hperm ⊢
      exact (List.perm_singleton.mp hperm.symm).symm

end KeyedTable
