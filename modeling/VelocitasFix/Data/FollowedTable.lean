import VelocitasFix.Data.KeyedTable

/-!
This module contains tables that follow a log of rows. A table that was copied from another one may be
given entries again that had their effect on it already; it may show them for a while, but once it has
been given the whole log it is what the log makes of an empty table.
-/

namespace KeyedTable

variable {ε α κ : Type} [DecidableEq κ] {key : α → κ} {merge : α → α → α}

-- A row keeps what the first row with its key had, and of the others only the last one counts.
structure LastWins (key : α → κ) (merge : α → α → α) : Prop where
  key_merge : ∀ r x, key (merge r x) = key r
  merge_merge : ∀ r x y, merge (merge r x) y = merge r y
  merge_self : ∀ x, merge x x = x

theorem rowAfter_append (r : Option α) (xs ys : List α)
    : rowAfter merge r (xs ++ ys) = rowAfter merge (rowAfter merge r xs) ys :=
  List.foldl_append

omit [DecidableEq κ] in
theorem LastWins.rowAfter_some (h : LastWins key merge) (r : α) (xs : List α)
    : rowAfter merge (some r) xs = some (xs.getLast?.elim r (merge r)) := by
  induction xs generalizing r with
  | nil => rfl
  | cons x xs ih =>
    change rowAfter merge (some (merge r x)) xs = _
    rw [ih, List.getLast?_cons]
    cases xs.getLast? with
    | none => rfl
    | some y => exact congrArg some (h.merge_merge r x y)

omit [DecidableEq κ] in
theorem LastWins.rowAfter_none (h : LastWins key merge) (xs : List α)
    : rowAfter merge none xs = xs.head?.bind fun x => xs.getLast?.map (merge x) := by
  cases xs with
  | nil => rfl
  | cons x xs =>
    change rowAfter merge (some x) xs = _
    rw [h.rowAfter_some, List.getLast?_cons]
    cases xs.getLast? with
    | none => exact congrArg some (h.merge_self x).symm
    | some y => rfl

omit [DecidableEq κ] in
-- A row that comes again undoes what came in between.
theorem LastWins.rowAfter_again (h : LastWins key merge) (r : Option α) (x : α) (xs : List α)
    : rowAfter merge r (x :: (xs ++ [x])) = rowAfter merge r [x] := by
  change rowAfter merge (some (r.elim x fun r => merge r x)) (xs ++ [x]) = _
  rw [h.rowAfter_some, List.getLast?_concat]
  cases r with
  | none => exact congrArg some (h.merge_self x)
  | some r => exact congrArg some (h.merge_merge r x x)

variable (key merge) (change : ε → Option α)

-- What a log makes of an empty table; an entry may carry no row.
def tableOf (log : List ε) : List α := upsertAll key merge [] (log.filterMap change)

-- The rows of a log with a key.
def own (log : List ε) (k : κ) : List α := (log.filterMap change).filter fun x => key x = k

-- The table was given the first entries of the log, and it has the keys of the first `seen` ones. Each
-- row is one that the log led to somewhere in between.
structure Follows (log : List ε) (given seen : Nat) (table : List α) : Prop where
  given_le : given ≤ seen
  seen_le : seen ≤ log.length
  keys : table.map key = (tableOf key merge change (log.take seen)).map key
  rows : ∀ k, ∃ n, given ≤ n ∧ n ≤ seen
    ∧ row key table k = row key (tableOf key merge change (log.take n)) k

variable {key merge change} {log : List ε} {given seen : Nat} {table : List α}

theorem own_append (log log' : List ε) (k : κ)
    : own key change (log ++ log') k = own key change log k ++ own key change log' k := by
  unfold own
  rw [List.filterMap_append, List.filter_append]

theorem own_singleton (key : α → κ) (change : ε → Option α) (e : ε) (k : κ)
    : own key change [e] k = [] ∨ ∃ x, change e = some x ∧ own key change [e] k = [x] := by
  unfold own
  rw [List.filterMap_cons]
  cases change e with
  | none => exact .inl rfl
  | some x =>
    rw [List.filterMap_nil, List.filter_singleton]
    cases decide (key x = k) with
    | true => exact .inr ⟨x, rfl, rfl⟩
    | false => exact .inl rfl

theorem filterMap_singleton (e : ε) : [e].filterMap change = (change e).toList := by
  rw [List.filterMap_cons]
  cases change e with
  | none => rfl
  | some x => rfl

theorem tableOf_concat (log : List ε) (e : ε)
    : tableOf key merge change (log ++ [e])
        = upsertAll key merge (tableOf key merge change log) (change e).toList := by
  unfold tableOf upsertAll
  rw [List.filterMap_append, List.foldl_append, filterMap_singleton]

theorem take_succ_of_getElem? {e : ε} (h : log[given]? = some e)
    : log.take (given + 1) = log.take given ++ [e] := by
  rw [List.take_add_one, h]
  rfl

-- Of the entries up to `n`, the one at a position is followed by the others behind it.
theorem take_eq_append {e : ε} {n : Nat} (h : log[given]? = some e) (hn : given < n)
    : log.take n = log.take given ++ [e] ++ (log.take n).drop (given + 1) := by
  have hsplit := List.take_append_drop (given + 1) (log.take n)
  rw [List.take_take, Nat.min_eq_left hn, take_succ_of_getElem? h] at hsplit
  exact hsplit.symm

theorem follows_nil (log : List ε) : Follows key merge change log 0 0 [] where
  given_le := Nat.le_refl 0
  seen_le := Nat.zero_le _
  keys := rfl
  rows := fun _ => ⟨0, Nat.le_refl 0, Nat.le_refl 0, rfl⟩

-- The log may grow.
theorem Follows.append (h : Follows key merge change log given seen table) (log' : List ε)
    : Follows key merge change (log ++ log') given seen table where
  given_le := h.given_le
  seen_le := by
    rw [List.length_append]
    exact Nat.le_add_right_of_le h.seen_le
  keys := by
    rw [List.take_append_of_le_length h.seen_le]
    exact h.keys
  rows := by
    intro k
    obtain ⟨n, hgiven, hseen, hrow⟩ := h.rows k
    refine ⟨n, hgiven, hseen, ?_⟩
    rw [List.take_append_of_le_length (Nat.le_trans hseen h.seen_le)]
    exact hrow

-- A copy of the table may be given entries again.
theorem Follows.again (h : Follows key merge change log given seen table) {n : Nat}
    (hle : n ≤ given)
    : Follows key merge change log n seen table where
  given_le := Nat.le_trans hle h.given_le
  seen_le := h.seen_le
  keys := h.keys
  rows := by
    intro k
    obtain ⟨m, hgiven, hseen, hrow⟩ := h.rows k
    exact ⟨m, Nat.le_trans hle hgiven, hseen, hrow⟩

variable (laws : LastWins key merge)

include laws

theorem row_tableOf (log : List ε) (k : κ)
    : row key (tableOf key merge change log) k = rowAfter merge none (own key change log k) :=
  row_upsertAll laws.key_merge [] (log.filterMap change) k

theorem Follows.length_le (h : Follows key merge change log given seen table)
    : table.length ≤ seen := by
  obtain ⟨new, hnew, -, hlen⟩ := @exists_keys_upsertAll α κ _ key merge laws.key_merge []
    ((log.take seen).filterMap change) List.nodup_nil
  have hkeys := h.keys
  unfold tableOf at hkeys
  rw [hnew, List.map_nil, List.nil_append] at hkeys
  calc table.length
    _ = (table.map key).length := (List.length_map key).symm
    _ = new.length := congrArg List.length hkeys
    _ ≤ ((log.take seen).filterMap change).length := hlen
    _ ≤ (log.take seen).length := List.length_filterMap_le _ _
    _ ≤ seen := List.length_take_le _ _

-- Given all that it has seen, the table is what the entries make of an empty one.
theorem Follows.table_eq (h : Follows key merge change log given given table)
    : table = tableOf key merge change (log.take given) := by
  have hnodup : ((tableOf key merge change (log.take given)).map key).Nodup :=
    nodup_upsertAll laws.key_merge List.nodup_nil
  rw [← h.keys] at hnodup
  apply ext_of_row hnodup h.keys
  intro k
  obtain ⟨n, hgiven, hseen, hrow⟩ := h.rows k
  rw [hrow, Nat.le_antisymm hseen hgiven]

-- The table has the key of an entry that it has seen.
theorem Follows.key_mem (h : Follows key merge change log given seen table) {e : ε} {x : α}
    (hentry : log[given]? = some e) (hlt : given < seen) (hchange : change e = some x)
    : key x ∈ table.map key := by
  have hown : own key change [e] (key x) = [x] := by
    simp [own, hchange]
  rw [h.keys, ← isSome_row_iff, row_tableOf laws, take_eq_append hentry hlt, own_append, own_append,
    hown, List.append_assoc, rowAfter_append]
  change (rowAfter merge (some _) _).isSome = true
  rw [laws.rowAfter_some]
  rfl

theorem Follows.upsert (h : Follows key merge change log given seen table) {e : ε}
    (hentry : log[given]? = some e)
    : Follows key merge change log (given + 1) (max seen (given + 1))
        (upsertAll key merge table (change e).toList) := by
  have htake := take_succ_of_getElem? hentry
  obtain hlt | heq := Nat.lt_or_eq_of_le h.given_le
  . rw [Nat.max_eq_left hlt]
    refine ⟨hlt, h.seen_le, ?_, ?_⟩
    . rw [← h.keys]
      cases hchange : change e with
      | none => rfl
      | some x =>
        change (KeyedTable.upsert key merge table x).map key = table.map key
        rw [map_key_upsert laws.key_merge, if_pos (h.key_mem laws hentry hlt hchange)]
    . intro k
      obtain ⟨n, hgiven, hseen, hrow⟩ := h.rows k
      have hnew : row key (upsertAll key merge table (change e).toList) k
          = rowAfter merge (row key table k) (own key change [e] k) := by
        rw [row_upsertAll laws.key_merge, ← filterMap_singleton]
        rfl
      rw [hnew, hrow, row_tableOf laws]
      obtain hn | hn := Nat.lt_or_eq_of_le hgiven
      . obtain hown | ⟨x, -, hown⟩ := own_singleton key change e k
        . -- The entry has nothing for this row.
          refine ⟨n, hn, hseen, ?_⟩
          rw [hown, row_tableOf laws]
          rfl
        . -- The row has seen the entry, and now it is given it again.
          refine ⟨given + 1, Nat.le_refl _, hlt, ?_⟩
          rw [row_tableOf laws, htake, take_eq_append hentry hn, own_append, own_append, hown,
            List.append_assoc, rowAfter_append, rowAfter_append none, ← rowAfter_append]
          exact laws.rowAfter_again _ x _
      . refine ⟨given + 1, Nat.le_refl _, hlt, ?_⟩
        rw [row_tableOf laws, htake, own_append, rowAfter_append, hn]
  . rw [← heq] at h ⊢
    have hlen : given < log.length := (List.getElem?_eq_some_iff.mp hentry).1
    have htable : upsertAll key merge table (change e).toList
        = tableOf key merge change (log.take (given + 1)) := by
      rw [h.table_eq laws, htake, tableOf_concat]
    rw [Nat.max_eq_right (Nat.le_succ given), htable]
    exact ⟨Nat.le_refl _, hlen, rfl, fun _ => ⟨given + 1, Nat.le_refl _, Nat.le_refl _, rfl⟩⟩

end KeyedTable
