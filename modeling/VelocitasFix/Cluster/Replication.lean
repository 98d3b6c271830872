import VelocitasFix.Cluster.Snapshot
import Mathlib.Data.List.Induction

/-!
This module contains the proof of when the replicated table is determined by how far a node has
applied the log. The index of an entry moves the position in the log, but does not keep the entry from
being applied.
-/

namespace Velocitas

-- A log with the indices 1, 2, 3, ...
structure ReplicatedLog where
  entries : List LogEntry
  index_eq : entries.map (fun e => e.index.toNat) = List.range' 1 entries.length

namespace ReplicatedLog

variable (log : ReplicatedLog)

abbrev Position := Fin log.entries.length

def entry (i : log.Position) : LogEntry := log.entries.get i

theorem index_entry (i : log.Position) : (log.entry i).index.toNat = i.val + 1 := by
  have hmap : (log.entries.map fun e => e.index.toNat)[i.val]? = some (i.val + 1) := by
    rw [log.index_eq, List.getElem?_range' i.isLt]
    congr 1
    omega
  rw [List.getElem?_map, List.getElem?_eq_getElem i.isLt, Option.map_some, Option.some.injEq] at hmap
  exact hmap

end ReplicatedLog

namespace ClusterNode

variable (config : ClusterConfig) (log : ReplicatedLog)

-- The node after entries of the log were delivered to it, in any order and any number of times.
def delivered (calls : List log.Position) : ClusterNode :=
  (new config).applyAll (calls.map log.entry)

-- The table of a fresh node after the first entries of the log, each applied once and in order.
def tableOf (applied : UInt64) : List ReplicatedSessionState :=
  ((new config).applyAll (log.entries.take applied.toNat)).sessionStates

-- In every state of the run the table is that of the prefix of the log that counts as applied.
structure TableOfPrefix (calls : List log.Position) : Prop where
  table_eq : ∀ before after, calls = before ++ after →
    (delivered config log before).sessionStates
      = tableOf config log (delivered config log before).lastApplied
  late : ∀ before i after, calls = before ++ i :: after →
    (log.entry i).index ≤ (delivered config log before).lastApplied →
    (delivered config log (before ++ [i])).sessionStates
      = (delivered config log before).sessionStates

-- The changes of the entries that are due: those behind the applied ones, up to the one delivered.
def due (n : ClusterNode) (i : log.Position) : List ReplicatedSessionState :=
  ((log.entries.take (i.val + 1)).drop n.lastApplied.toNat).filterMap change

-- What the changes make of the record of a session.
def recordAfter (n : ClusterNode) (changes : List ReplicatedSessionState) (sessionId : String)
    : Option ReplicatedSessionState :=
  KeyedTable.rowAfter ReplicatedSessionState.update (n.getSessionState sessionId)
    (changes.filter fun s => s.sessionId = sessionId)

-- To each session the entry alone does what all the entries do that are due.
def InOrder (n : ClusterNode) (i : log.Position) : Prop :=
  ∀ sessionId, n.recordAfter (change (log.entry i)).toList sessionId
    = n.recordAfter (due log n i) sessionId

theorem delivered_concat (calls : List log.Position) (i : log.Position)
    : delivered config log (calls ++ [i])
        = (delivered config log calls).applyLogEntry (log.entry i) := by
  rw [delivered, List.map_append, applyAll_append]
  rfl

theorem tableOf_eq (applied : UInt64)
    : tableOf config log applied
        = ((log.entries.take applied.toNat).filterMap change).foldl upsert [] :=
  sessionStates_applyAll (new config) _

theorem nodup_tableOf (applied : UInt64)
    : ((tableOf config log applied).map ReplicatedSessionState.sessionId).Nodup := by
  rw [tableOf_eq]
  apply @KeyedTable.nodup_upsertAll _ _ _ ReplicatedSessionState.sessionId
    ReplicatedSessionState.update (fun _ _ => rfl)
  exact List.nodup_nil

-- A delivery moves the position to the entry, unless it is there already, and the due entries are
-- exactly those that the prefix of the log gains.
theorem tableOf_applyLogEntry (n : ClusterNode) (i : log.Position)
    : tableOf config log (n.applyLogEntry (log.entry i)).lastApplied
        = (due log n i).foldl upsert (tableOf config log n.lastApplied) := by
  have hindex := log.index_entry i
  rw [tableOf_eq, tableOf_eq, due, ← List.foldl_append, ← List.filterMap_append]
  unfold applyLogEntry
  dsimp only
  split
  . next hgt =>
    rw [gt_iff_lt, UInt64.lt_iff_toNat_lt, hindex] at hgt
    have hsplit := List.take_append_drop n.lastApplied.toNat (log.entries.take (i.val + 1))
    rw [List.take_take, Nat.min_eq_left (by omega)] at hsplit
    rw [hindex, hsplit]
  . next hle =>
    rw [gt_iff_lt, UInt64.lt_iff_toNat_lt, hindex] at hle
    rw [List.drop_eq_nil_of_le (by rw [List.length_take]; omega), List.append_nil]

theorem table_step_iff {n : ClusterNode} (i : log.Position)
    (h : n.sessionStates = tableOf config log n.lastApplied)
    : (n.applyLogEntry (log.entry i)).sessionStates
          = tableOf config log (n.applyLogEntry (log.entry i)).lastApplied
        ↔ InOrder log n i := by
  have hnodup := nodup_tableOf config log n.lastApplied
  rw [← h] at hnodup
  have hlen : (change (log.entry i)).toList.length ≤ 1 := by
    cases change (log.entry i) with
    | none => exact Nat.zero_le 1
    | some _ => exact Nat.le_refl 1
  rw [sessionStates_applyLogEntry, tableOf_applyLogEntry, ← h]
  exact @KeyedTable.upsertAll_eq_iff _ _ _ ReplicatedSessionState.sessionId
    ReplicatedSessionState.update (fun _ _ => rfl) n.sessionStates _ (due log n i) hnodup hlen

theorem table_of_prefix_iff (calls : List log.Position)
    : TableOfPrefix config log calls
        ↔ ∀ before i after, calls = before ++ i :: after →
          InOrder log (delivered config log before) i := by
  constructor
  . intro h before i after hcalls
    have hbefore := h.table_eq before (i :: after) hcalls
    have hnext := h.table_eq (before ++ [i]) after (by rw [hcalls, List.append_assoc]; rfl)
    rw [delivered_concat] at hnext
    exact (table_step_iff config log i hbefore).mp hnext
  . intro h
    have table : ∀ before after, calls = before ++ after →
        (delivered config log before).sessionStates
          = tableOf config log (delivered config log before).lastApplied := by
      intro before
      induction before using List.reverseRecOn with
      | nil =>
        intro after _
        rfl
      | append_singleton before i ih =>
        intro after hcalls
        rw [List.append_assoc, List.singleton_append] at hcalls
        rw [delivered_concat]
        exact (table_step_iff config log i (ih _ hcalls)).mpr (h before i after hcalls)
    refine ⟨table, ?_⟩
    intro before i after hcalls hle
    have hsame : (delivered config log (before ++ [i])).lastApplied
        = (delivered config log before).lastApplied := by
      rw [delivered_concat]
      exact if_neg (by rwa [gt_iff_lt, UInt64.not_lt])
    rw [table (before ++ [i]) after (by rw [hcalls, List.append_assoc]; rfl), hsame,
      table before (i :: after) hcalls]

-- The next entry of the log is always in order.
theorem inOrder_next {n : ClusterNode} {i : log.Position} (h : i.val = n.lastApplied.toNat)
    : InOrder log n i := by
  intro sessionId
  have hdrop : (log.entries.take (i.val + 1)).drop i.val = [log.entry i] := by
    rw [List.drop_take, Nat.add_sub_cancel_left, List.drop_eq_getElem_cons i.isLt]
    rfl
  rw [due, ← h, hdrop, List.filterMap_cons]
  cases change (log.entry i) with
  | none => rfl
  | some _ => rfl

-- An entry that was passed already must bring nothing that the table does not have.
theorem inOrder_late_iff {n : ClusterNode} {i : log.Position} (h : i.val < n.lastApplied.toNat)
    : InOrder log n i
        ↔ ∀ s, change (log.entry i) = some s →
          ∃ r, n.getSessionState s.sessionId = some r ∧ r.update s = r := by
  have hdue : due log n i = [] := by
    rw [due, List.drop_eq_nil_of_le (by rw [List.length_take]; omega)]
    rfl
  unfold InOrder
  rw [hdue]
  cases change (log.entry i) with
  | none => simp [recordAfter]
  | some s =>
    have hown : n.recordAfter [s] s.sessionId
        = some ((n.getSessionState s.sessionId).elim s (·.update s)) := by
      simp [recordAfter, KeyedTable.rowAfter]
    have hother (sessionId : String) (hne : s.sessionId ≠ sessionId)
        : n.recordAfter [s] sessionId = n.recordAfter [] sessionId := by
      simp [recordAfter, hne]
    constructor
    . intro h s' hs'
      injection hs' with hs'
      have hsame := h s.sessionId
      change n.recordAfter [s] s.sessionId = n.getSessionState s.sessionId at hsame
      rw [hown] at hsame
      rw [← hs']
      cases hget : n.getSessionState s.sessionId with
      | none =>
        rw [hget] at hsame
        contradiction
      | some r =>
        rw [hget] at hsame
        injection hsame with hsame
        exact ⟨r, rfl, hsame⟩
    . intro h sessionId
      obtain ⟨r, hget, hr⟩ := h s rfl
      by_cases heq : s.sessionId = sessionId
      . rw [← heq]
        change n.recordAfter [s] s.sessionId = n.getSessionState s.sessionId
        rw [hown, hget]
        exact congrArg some hr
      . exact hother sessionId heq

-- The first entry is delivered again after the second one.
theorem not_table_of_prefix
    : ¬ ∀ (config : ClusterConfig) (log : ReplicatedLog) (calls : List log.Position),
        TableOfPrefix config log calls := by
  intro h
  have htable := (h sampleConfig ⟨[sampleEntry 1 10, sampleEntry 2 42], by decide⟩ [0, 1, 0]).table_eq
    [0, 1, 0] [] rfl
  revert htable
  decide +kernel

end ClusterNode

end Velocitas
