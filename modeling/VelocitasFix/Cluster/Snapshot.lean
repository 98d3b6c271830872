import VelocitasFix.Cluster.Codec

/-!
This module contains the proof that a node restored from a snapshot goes on like one that has applied
the whole log.
-/

namespace Velocitas

namespace ClusterNode

open ReplicatedSessionState (Short decode)

def applyAll (n : ClusterNode) (entries : List LogEntry) : ClusterNode :=
  entries.foldl applyLogEntry n

theorem applyAll_append (n : ClusterNode) (xs ys : List LogEntry)
    : n.applyAll (xs ++ ys) = (n.applyAll xs).applyAll ys :=
  List.foldl_append

theorem sessionStates_applyLogEntry (n : ClusterNode) (entry : LogEntry)
    : (n.applyLogEntry entry).sessionStates
        = (change entry).toList.foldl upsert n.sessionStates := by
  unfold applyLogEntry
  cases change entry with
  | none => rfl
  | some state => rfl

-- The table after the entries depends on the table before them and on nothing else of the node.
theorem sessionStates_applyAll (n : ClusterNode) (entries : List LogEntry)
    : (n.applyAll entries).sessionStates
        = (entries.filterMap change).foldl upsert n.sessionStates := by
  induction entries generalizing n with
  | nil => rfl
  | cons entry entries ih =>
    rw [applyAll, List.foldl_cons]
    rw [← applyAll, ih, sessionStates_applyLogEntry, List.filterMap_cons]
    cases change entry with
    | none => rfl
    | some state => rfl

theorem short_of_change {entry : LogEntry} {s : ReplicatedSessionState} (h : change entry = some s)
    : s.Short := by
  unfold change at h
  split at h
  . exact ReplicatedSessionState.short_of_decode h
  . contradiction

-- What a snapshot can hold: every record can be encoded, and there are not too many of them.
structure Storable (states : List ReplicatedSessionState) (bound : Nat) : Prop where
  short : ∀ s ∈ states, s.Short
  length_le : states.length ≤ bound

theorem Storable.upsert {states : List ReplicatedSessionState} {bound : Nat}
    (h : Storable states bound) {s : ReplicatedSessionState} (hs : s.Short)
    : Storable (upsert states s) (bound + 1) := by
  obtain ⟨-, hnew⟩ | ⟨l₁, r, l₂, hl, hold, -, -⟩ := @KeyedTable.upsert_cases _ _ _
    ReplicatedSessionState.sessionId ReplicatedSessionState.update states s
  . rw [ClusterNode.upsert, hnew]
    constructor
    . intro t ht
      rw [List.mem_append, List.mem_singleton] at ht
      cases ht with
      | inl hmem => exact h.short t hmem
      | inr heq =>
        rw [heq]
        exact hs
    . rw [List.length_append, List.length_singleton]
      exact Nat.succ_le_succ h.length_le
  . rw [ClusterNode.upsert, hold]
    have hshort := h.short
    have hlen := h.length_le
    rw [hl] at hshort hlen
    simp only [List.mem_append, List.mem_cons, List.length_append, List.length_cons] at hshort hlen
    constructor
    . intro t ht
      rw [List.mem_append, List.mem_cons] at ht
      obtain hmem | heq | hmem := ht
      . exact hshort t (.inl hmem)
      . rw [heq]
        have hr := hshort r (.inr (.inl rfl))
        exact ⟨hr.sessionId, hr.senderCompId, hr.targetCompId⟩
      . exact hshort t (.inr (.inr hmem))
    . rw [List.length_append, List.length_cons]
      omega

theorem storable_applyAll (n : ClusterNode) (entries : List LogEntry) {bound : Nat}
    (h : Storable n.sessionStates bound)
    : Storable (n.applyAll entries).sessionStates (bound + entries.length) := by
  induction entries generalizing n bound with
  | nil => exact h
  | cons entry entries ih =>
    rw [applyAll, List.foldl_cons]
    rw [← applyAll, List.length_cons, Nat.add_comm entries.length 1, ← Nat.add_assoc]
    apply ih
    rw [sessionStates_applyLogEntry]
    cases hchange : change entry with
    | none => exact ⟨h.short, Nat.le_succ_of_le h.length_le⟩
    | some s => exact h.upsert (short_of_change hchange)

-- The records that stand complete in a snapshot.
def recordsIn (data : Bytes) : List ReplicatedSessionState :=
  (LengthPrefixed.pieces 4 data (LittleEndian.decode (slice data 0 4)) 4).filterMap decode

theorem restoreStates_eq (data : Bytes) (count offset : Nat) (states : List ReplicatedSessionState)
    : restoreStates data count offset states
        = states ++ (LengthPrefixed.pieces 4 data count offset).filterMap decode := by
  induction count generalizing offset states with
  | zero => rw [restoreStates, LengthPrefixed.pieces, List.filterMap_nil, List.append_nil]
  | succ count ih =>
    rw [restoreStates, LengthPrefixed.pieces]
    cases LengthPrefixed.read 4 data offset with
    | none => rw [List.filterMap_nil, List.append_nil]
    | some read =>
      dsimp only
      rw [List.filterMap_cons]
      cases decode read.1 with
      | none => apply ih
      | some state =>
        dsimp only
        rw [ih, List.append_assoc]
        rfl

theorem sessionStates_restoreSnapshot (n : ClusterNode) {data : Bytes} (h : 4 ≤ data.length)
    : (n.restoreSnapshot data).sessionStates = recordsIn data := by
  unfold restoreSnapshot
  dsimp only
  rw [if_neg (by omega)]
  dsimp only
  rw [restoreStates_eq, List.nil_append, recordsIn]

-- A snapshot holds the first records of the table, as many as its count says.
theorem recordsIn_createSnapshot {n : ClusterNode} (h : ∀ s ∈ n.sessionStates, s.Short)
    : recordsIn n.createSnapshot = n.sessionStates.take (n.sessionStates.length % 2 ^ 32) := by
  generalize hcount : n.sessionStates.length % 2 ^ 32 = count
  have hle : count ≤ n.sessionStates.length := by
    rw [← hcount]
    apply Nat.mod_le
  have hhead : n.createSnapshot.drop 0
      = LittleEndian.encode 4 n.sessionStates.length
        ++ (n.sessionStates.flatMap fun s => LengthPrefixed.write 4 s.encode) := List.drop_zero
  have hrest := drop_of_drop_eq_append hhead
  rw [LittleEndian.length_encode, Nat.zero_add] at hrest
  have hmap : (n.sessionStates.flatMap fun s => LengthPrefixed.write 4 s.encode)
      = ((n.sessionStates.take count).map ReplicatedSessionState.encode).flatMap
          (LengthPrefixed.write 4)
        ++ (n.sessionStates.drop count).flatMap fun s => LengthPrefixed.write 4 s.encode := by
    rw [List.flatMap_map, ← List.flatMap_append, List.take_append_drop]
  rw [hmap] at hrest
  have hpieces := LengthPrefixed.pieces_of_drop (by decide) (by
    intro piece hpiece
    obtain ⟨s, hs, hencode⟩ := List.mem_map.mp hpiece
    rw [← hencode]
    exact ReplicatedSessionState.length_encode_lt (h s (List.mem_of_mem_take hs))) hrest
  rw [List.length_map, List.length_take, Nat.min_eq_left hle] at hpieces
  rw [recordsIn, slice_of_drop (LittleEndian.length_encode 4 _) hhead, LittleEndian.decode_encode,
    show n.sessionStates.length % 256 ^ 4 = count from hcount, hpieces, List.filterMap_map]
  calc (n.sessionStates.take count).filterMap (decode ∘ ReplicatedSessionState.encode)
    _ = (n.sessionStates.take count).filterMap some := by
      apply List.filterMap_congr
      intro s hs
      exact ReplicatedSessionState.decode_encode (h s (List.mem_of_mem_take hs))
    _ = n.sessionStates.take count := List.filterMap_some

theorem four_le_length_createSnapshot (n : ClusterNode) : 4 ≤ n.createSnapshot.length := by
  rw [createSnapshot, List.length_append, LittleEndian.length_encode]
  exact Nat.le_add_right 4 _

theorem restore_createSnapshot (target : ClusterNode) {n : ClusterNode}
    (h : Storable n.sessionStates (2 ^ 32 - 1))
    : (target.restoreSnapshot n.createSnapshot).sessionStates = n.sessionStates := by
  have hlen := h.length_le
  rw [sessionStates_restoreSnapshot target n.four_le_length_createSnapshot,
    recordsIn_createSnapshot h.short, Nat.mod_eq_of_lt (by omega), List.take_length]

-- The entries behind a cut, applied to what was restored from the snapshot made at the cut.
theorem snapshot_replay (config config' : ClusterConfig) (target : ClusterNode)
    (entries : List LogEntry) (k : Nat) (hlen : entries.length < 2 ^ 32)
    : let snapshot := ((new config).applyAll (entries.take k)).createSnapshot
      let restored := (target.restoreSnapshot snapshot).applyAll (entries.drop k)
      let replayed := (new config').applyAll entries
      restored.sessionStates = replayed.sessionStates
        ∧ ∀ sessionId, restored.getSessionState sessionId = replayed.getSessionState sessionId := by
  intro snapshot restored replayed
  have hstorable : Storable ((new config).applyAll (entries.take k)).sessionStates (2 ^ 32 - 1) := by
    have h := storable_applyAll (new config) (entries.take k) ⟨nofun, Nat.le_refl 0⟩
    have hle := List.length_take_le' k entries
    exact ⟨h.short, h.length_le.trans (by omega)⟩
  have hstates : restored.sessionStates = replayed.sessionStates := by
    change ((target.restoreSnapshot snapshot).applyAll (entries.drop k)).sessionStates = _
    rw [sessionStates_applyAll, restore_createSnapshot target hstorable, sessionStates_applyAll,
      ← List.foldl_append, ← List.filterMap_append, List.take_append_drop]
    exact (sessionStates_applyAll (new config') entries).symm
  refine ⟨hstates, ?_⟩
  intro sessionId
  rw [getSessionState, getSessionState, hstates]

-- An entry of the log that reports the sequence numbers of a session.
def sampleEntry (index seqNum : UInt64) : LogEntry where
  term := 1
  index := index
  entryType := .sessionStateChange
  data := ReplicatedSessionState.encode
    { sessionId := "FIX-1", senderCompId := "SENDER", targetCompId := "TARGET",
      outboundSeqNum := seqNum, inboundSeqNum := seqNum, state := 3, lastUpdatedMs := 0 }

def sampleConfig : ClusterConfig where
  nodeId := ⟨1, "127.0.0.1", 9001⟩
  peers := []

theorem snapshot_replay_sample
    : let snapshot := ((new sampleConfig).applyAll
        ([sampleEntry 1 10, sampleEntry 2 42].take 1)).createSnapshot
      let restored := ((new sampleConfig).restoreSnapshot snapshot).applyAll
        ([sampleEntry 1 10, sampleEntry 2 42].drop 1)
      let replayed := (new sampleConfig).applyAll [sampleEntry 1 10, sampleEntry 2 42]
      restored.sessionStates = replayed.sessionStates
        ∧ ∀ sessionId, restored.getSessionState sessionId = replayed.getSessionState sessionId :=
  snapshot_replay sampleConfig sampleConfig (new sampleConfig) [sampleEntry 1 10, sampleEntry 2 42] 1
    (by decide)

-- The bytes are not what `create_snapshot` makes of any table.
def BadSnapshot (data : Bytes) : Prop := ∀ n : ClusterNode, n.createSnapshot ≠ data

def Unchanged (n : ClusterNode) (data : Bytes) : Prop :=
  (n.restoreSnapshot data).sessionStates = n.sessionStates
    ∧ (n.restoreSnapshot data).state = n.state

end ClusterNode

end Velocitas
