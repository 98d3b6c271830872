import VelocitasFix.Cluster.Snapshot

/-!
This module contains the proof that the table of a reachable node has one record for each session, and
the condition under which an applied entry leaves its state there as it is: an existing record keeps
its comp ids.
-/

namespace Velocitas

namespace ClusterNode

open ReplicatedSessionState (Short)

-- The states that the entries of a log and the snapshots of reachable nodes lead to.
inductive Reachable : ClusterNode → Prop where
  | new (config : ClusterConfig) : Reachable (new config)
  | apply {n : ClusterNode} (entry : LogEntry) (h : Reachable n) : Reachable (n.applyLogEntry entry)
  | restore {n origin : ClusterNode} (h : Reachable n) (horigin : Reachable origin) :
      Reachable (n.restoreSnapshot origin.createSnapshot)

-- One record for each session, and each one can be encoded.
structure Tabled (n : ClusterNode) : Prop where
  nodup : (n.sessionStates.map ReplicatedSessionState.sessionId).Nodup
  short : ∀ s ∈ n.sessionStates, s.Short

-- What applying an entry with a state is for.
structure Installs (n : ClusterNode) (entry : LogEntry) (s : ReplicatedSessionState) : Prop where
  nodup : ((n.applyLogEntry entry).sessionStates.map ReplicatedSessionState.sessionId).Nodup
  installed : (n.applyLogEntry entry).getSessionState s.sessionId = some s
  frame : ∀ sessionId, sessionId ≠ s.sessionId →
    (n.applyLogEntry entry).getSessionState sessionId = n.getSessionState sessionId

theorem Tabled.apply {n : ClusterNode} (h : n.Tabled) (entry : LogEntry)
    : (n.applyLogEntry entry).Tabled where
  nodup := by
    rw [sessionStates_applyLogEntry]
    apply @KeyedTable.nodup_upsertAll _ _ _ ReplicatedSessionState.sessionId
      ReplicatedSessionState.update (fun _ _ => rfl)
    exact h.nodup
  short := by
    rw [sessionStates_applyLogEntry]
    cases hchange : change entry with
    | none => exact h.short
    | some s =>
      have hstorable : Storable n.sessionStates n.sessionStates.length := ⟨h.short, Nat.le_refl _⟩
      exact (hstorable.upsert (short_of_change hchange)).short

theorem Tabled.restore (n : ClusterNode) {origin : ClusterNode} (h : origin.Tabled)
    : (n.restoreSnapshot origin.createSnapshot).Tabled := by
  have hstates := n.sessionStates_restoreSnapshot origin.four_le_length_createSnapshot
  rw [recordsIn_createSnapshot h.short] at hstates
  constructor
  . rw [hstates, List.map_take]
    exact h.nodup.sublist (List.take_sublist _ _)
  . intro s hs
    rw [hstates] at hs
    exact h.short s (List.mem_of_mem_take hs)

theorem Reachable.tabled {n : ClusterNode} (h : Reachable n) : n.Tabled := by
  induction h with
  | new config => exact ⟨List.nodup_nil, nofun⟩
  | apply entry _ ih => exact ih.apply entry
  | restore _ _ _ ih => exact Tabled.restore _ ih

theorem change_of_encode {entry : LogEntry} {s : ReplicatedSessionState} (hs : s.Short)
    (htype : entry.entryType = .sessionStateChange) (hdata : entry.data = s.encode)
    : change entry = some s := by
  rw [change, if_pos htype, hdata, ReplicatedSessionState.decode_encode hs]

theorem getSessionState_applyLogEntry (n : ClusterNode) {entry : LogEntry}
    {s : ReplicatedSessionState} (h : change entry = some s) (sessionId : String)
    : (n.applyLogEntry entry).getSessionState sessionId
        = if s.sessionId = sessionId then some ((n.getSessionState sessionId).elim s (·.update s))
          else n.getSessionState sessionId := by
  have hrow := @KeyedTable.row_upsert _ _ _ ReplicatedSessionState.sessionId
    ReplicatedSessionState.update (fun _ _ => rfl) n.sessionStates s sessionId
  have htable : (n.applyLogEntry entry).sessionStates = upsert n.sessionStates s := by
    rw [sessionStates_applyLogEntry, h]
    rfl
  rw [getSessionState, htable]
  exact hrow

-- The comp ids are all that an update leaves alone.
theorem update_eq_iff {r s : ReplicatedSessionState} (h : r.sessionId = s.sessionId)
    : r.update s = s ↔ r.senderCompId = s.senderCompId ∧ r.targetCompId = s.targetCompId := by
  constructor
  . intro heq
    rw [← heq]
    exact ⟨rfl, rfl⟩
  . intro hids
    cases r
    cases s
    simp_all [ReplicatedSessionState.update]

theorem installs_iff (n : ClusterNode) (h : Reachable n)
    : (n.sessionStates.map ReplicatedSessionState.sessionId).Nodup
        ∧ ∀ (entry : LogEntry) (s : ReplicatedSessionState), s.Short →
          entry.entryType = .sessionStateChange → entry.data = s.encode →
          (n.Installs entry s
            ↔ ∀ r, n.getSessionState s.sessionId = some r →
                r.senderCompId = s.senderCompId ∧ r.targetCompId = s.targetCompId) := by
  refine ⟨h.tabled.nodup, ?_⟩
  intro entry s hs htype hdata
  have hget := n.getSessionState_applyLogEntry (change_of_encode hs htype hdata)
  have hown := hget s.sessionId
  rw [if_pos rfl] at hown
  constructor
  . intro hinstalls r hr
    have hinstalled := hinstalls.installed
    rw [hown, hr, Option.elim_some, Option.some.injEq] at hinstalled
    rw [← hinstalled]
    exact ⟨rfl, rfl⟩
  . intro hids
    refine ⟨(h.tabled.apply entry).nodup, ?_, ?_⟩
    . rw [hown]
      cases hr : n.getSessionState s.sessionId with
      | none => rfl
      | some r =>
        have hkey : r.sessionId = s.sessionId := by simpa using List.find?_some hr
        rw [Option.elim_some, (update_eq_iff hkey).mpr (hids r hr)]
    . intro sessionId hne
      rw [hget, if_neg hne.symm]

-- Applied to a node that was restored from the snapshot of another one.
theorem installs_iff_sample
    : let n := ((new sampleConfig).restoreSnapshot
        ((new sampleConfig).applyLogEntry (sampleEntry 1 10)).createSnapshot)
      (n.sessionStates.map ReplicatedSessionState.sessionId).Nodup
        ∧ (n.Installs (sampleEntry 2 42) (ReplicatedSessionState.sampleState 42)
          ↔ ∀ r, n.getSessionState "FIX-1" = some r →
              r.senderCompId = "SENDER" ∧ r.targetCompId = "TARGET") := by
  intro n
  have h := installs_iff n (.restore (.new _) (.apply _ (.new _)))
  exact ⟨h.1, h.2 (sampleEntry 2 42) (ReplicatedSessionState.sampleState 42)
    (ReplicatedSessionState.short_sampleState 42) rfl rfl⟩

-- The session is known already, and the second entry brings another target.
theorem not_installs
    : ¬ ∀ (n : ClusterNode), Reachable n → ∀ (entry : LogEntry) (s : ReplicatedSessionState),
        s.Short → entry.entryType = .sessionStateChange → entry.data = s.encode →
        n.Installs entry s := by
  intro h
  have hshort := ReplicatedSessionState.short_sampleState 42
  have hinstalls := h ((new sampleConfig).applyLogEntry (sampleEntry 1 10)) (.apply _ (.new _))
    ⟨1, 2, .sessionStateChange,
      ReplicatedSessionState.encode { ReplicatedSessionState.sampleState 42 with targetCompId := "" }⟩
    { ReplicatedSessionState.sampleState 42 with targetCompId := "" }
    ⟨hshort.sessionId, hshort.senderCompId, by decide⟩ rfl rfl
  have hinstalled := hinstalls.installed
  revert hinstalled
  decide +kernel

end ClusterNode

end Velocitas
