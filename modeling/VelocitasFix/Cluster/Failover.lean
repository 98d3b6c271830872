import VelocitasFix.Cluster.Run
import VelocitasFix.Data.FollowedTable
import Mathlib.Logic.Function.Basic

/-!
This module contains a cluster: any of its nodes replicates session states, every node is handed the
entries in the order in which they were replicated, at its own pace, and a node that crashed goes on
from the snapshot of another one. A snapshot does not say which entries it covers, so a restored node
may be handed entries once more.
-/

namespace Velocitas

open KeyedTable (Follows)
open ReplicatedSessionState (Short)

theorem ReplicatedSessionState.lastWins
    : KeyedTable.LastWins ReplicatedSessionState.sessionId ReplicatedSessionState.update where
  key_merge := fun _ _ => rfl
  merge_merge := fun _ _ _ => rfl
  merge_self := fun _ => rfl

namespace ClusterNode

namespace Operation

-- The operations of an election.
def Elects : Operation → Prop
  | .start => True
  | .beginElection => True
  | .receiveVote _ _ _ => True
  | .becomeLeader => True
  | .stepDown _ => True
  | .replicateSessionState _ => False
  | .applyLogEntry _ => False
  | .restoreSnapshot _ => False

end Operation

theorem sessionStates_beginElection (n : ClusterNode)
    : n.beginElection.sessionStates = n.sessionStates := by
  unfold beginElection
  dsimp only
  split
  . rfl
  . rfl

theorem sessionStates_receiveVote (n : ClusterNode) (fromNode : UInt32) (term : UInt64)
    (granted : Bool)
    : (n.receiveVote fromNode term granted).sessionStates = n.sessionStates := by
  unfold receiveVote
  split
  . rfl
  . split
    . rfl
    . split
      . dsimp only
        split
        . rfl
        . rfl
      . rfl

theorem sessionStates_elects (n : ClusterNode) {op : Operation} (h : op.Elects)
    : (op.apply n).sessionStates = n.sessionStates := by
  cases op with
  | start => exact sessionStates_beginElection _
  | beginElection => exact n.sessionStates_beginElection
  | receiveVote fromNode term granted => exact n.sessionStates_receiveVote fromNode term granted
  | becomeLeader => rfl
  | stepDown newTerm => rfl
  | replicateSessionState state => exact h.elim
  | applyLogEntry entry => exact h.elim
  | restoreSnapshot data => exact h.elim

-- The entry that a node adds to its log carries the state.
theorem exists_replicated (n : ClusterNode) {s : ReplicatedSessionState} (h : s.Short)
    : ∃ entry, (n.replicateSessionState s).log.getLast?.toList = [entry]
        ∧ change entry = some s := by
  let entry : LogEntry :=
    { term := n.currentTerm, index := (n.log.getLast?.elim 0 (·.index)) + 1,
      entryType := .sessionStateChange, data := s.encode }
  have hlast : (n.log ++ [entry]).getLast?.toList = [entry] := by
    rw [List.getLast?_concat, Option.toList_some]
  exact ⟨entry, hlast, change_of_encode h rfl rfl⟩

-- The table is the one after the entries that the node was handed, but for what a snapshot brought of
-- the entries behind them.
structure Tracks (n : ClusterNode) (log : List LogEntry) (given : Nat) : Prop where
  tabled : n.Tabled
  follows : ∃ seen, Follows ReplicatedSessionState.sessionId ReplicatedSessionState.update change
    log given seen n.sessionStates

theorem tracks_new (config : ClusterConfig) (log : List LogEntry) : (new config).Tracks log 0 where
  tabled := ⟨List.nodup_nil, fun _ hs => absurd hs List.not_mem_nil⟩
  follows := ⟨0, KeyedTable.follows_nil log⟩

variable {n : ClusterNode} {log : List LogEntry} {given : Nat}

theorem Tracks.of_eq (h : n.Tracks log given) {n' : ClusterNode}
    (hsame : n'.sessionStates = n.sessionStates)
    : n'.Tracks log given where
  tabled := by
    constructor
    . rw [hsame]
      exact h.tabled.nodup
    . rw [hsame]
      exact h.tabled.short
  follows := by
    rw [hsame]
    exact h.follows

theorem Tracks.append (h : n.Tracks log given) (log' : List LogEntry)
    : n.Tracks (log ++ log') given where
  tabled := h.tabled
  follows := by
    obtain ⟨seen, hseen⟩ := h.follows
    exact ⟨seen, hseen.append log'⟩

theorem Tracks.again (h : n.Tracks log given) {position : Nat} (hle : position ≤ given)
    : n.Tracks log position where
  tabled := h.tabled
  follows := by
    obtain ⟨seen, hseen⟩ := h.follows
    exact ⟨seen, hseen.again hle⟩

theorem Tracks.apply (h : n.Tracks log given) {entry : LogEntry} (hentry : log[given]? = some entry)
    : (n.applyLogEntry entry).Tracks log (given + 1) where
  tabled := h.tabled.apply entry
  follows := by
    obtain ⟨seen, hseen⟩ := h.follows
    refine ⟨max seen (given + 1), ?_⟩
    rw [sessionStates_applyLogEntry]
    exact hseen.upsert ReplicatedSessionState.lastWins hentry

end ClusterNode

-- The record that a list of states leads to: the first one of the session, with the numbers of the
-- last one.
def recordOf (states : List ReplicatedSessionState) (sessionId : String)
    : Option ReplicatedSessionState :=
  let own := states.filter fun s => s.sessionId = sessionId
  own.head?.bind fun first => own.getLast?.map first.update

-- `given` says how many entries of the log a node was handed.
structure Cluster (ι : Type) where
  node : ι → ClusterNode
  given : ι → Nat
  log : List LogEntry

namespace Cluster

open ClusterNode (Operation change)

variable {ι : Type}

inductive Move (ι : Type) where
  | elect (i : ι) (op : Operation) (h : op.Elects)
  | replicate (i : ι) (state : ReplicatedSessionState)
  | deliver (i : ι)
  | restore (i origin : ι) (position : Nat)
  | restart (i : ι)

def new (config : ι → ClusterConfig) : Cluster ι where
  node := fun i => .new (config i)
  given := fun _ => 0
  log := []

def Move.state? : Move ι → Option ReplicatedSessionState
  | .elect _ _ _ => none
  | .replicate _ state => some state
  | .deliver _ => none
  | .restore _ _ _ => none
  | .restart _ => none

def replicated (moves : List (Move ι)) : List ReplicatedSessionState :=
  moves.filterMap Move.state?

section

variable [DecidableEq ι]

def set (c : Cluster ι) (i : ι) (n : ClusterNode) (given : Nat) : Cluster ι :=
  { c with node := Function.update c.node i n, given := Function.update c.given i given }

-- The node applies the next entry, if there is one.
def deliver (c : Cluster ι) (i : ι) : Cluster ι :=
  match c.log[c.given i]? with
  | none => c
  | some entry => c.set i ((c.node i).applyLogEntry entry) (c.given i + 1)

-- A restored node goes on at an entry that the origin of the snapshot was handed, or the next one.
def step (c : Cluster ι) : Move ι → Cluster ι
  | .elect i op _ => c.set i (op.apply (c.node i)) (c.given i)
  | .replicate i state =>
    let n := (c.node i).replicateSessionState state
    { c.set i n (c.given i) with log := c.log ++ n.log.getLast?.toList }
  | .deliver i => c.deliver i
  | .restore i origin position =>
    c.set i ((c.node i).restoreSnapshot (c.node origin).createSnapshot)
      (min position (c.given origin))
  | .restart i => c.set i (.new (c.node i).config) 0

def run (config : ι → ClusterConfig) (moves : List (Move ι)) : Cluster ι :=
  moves.foldl step (new config)

end

-- The log carries the states that were replicated, one in each entry, and every node keeps to it.
structure Carries (c : Cluster ι) (states : List ReplicatedSessionState) : Prop where
  log : c.log.map change = states.map some
  tracks : ∀ i, (c.node i).Tracks c.log (c.given i)

variable {c : Cluster ι} {states : List ReplicatedSessionState}

theorem Carries.filterMap_take (h : c.Carries states) (n : Nat)
    : (c.log.take n).filterMap change = states.take n := by
  calc (c.log.take n).filterMap change
    _ = ((c.log.map change).take n).filterMap id := by
      rw [← List.map_take, List.filterMap_map]
      rfl
    _ = ((states.take n).map some).filterMap id := by
      rw [h.log, List.map_take]
    _ = states.take n := by
      rw [List.filterMap_map]
      exact List.filterMap_some

theorem Carries.length_log (h : c.Carries states) : c.log.length = states.length := by
  have hlen := congrArg List.length h.log
  rw [List.length_map, List.length_map] at hlen
  exact hlen

theorem Carries.row_tableOf (h : c.Carries states) (n : Nat) (sessionId : String)
    : KeyedTable.row ReplicatedSessionState.sessionId
          (KeyedTable.tableOf ReplicatedSessionState.sessionId ReplicatedSessionState.update change
            (c.log.take n)) sessionId
        = recordOf (states.take n) sessionId := by
  rw [KeyedTable.row_tableOf ReplicatedSessionState.lastWins, KeyedTable.own, h.filterMap_take]
  exact ReplicatedSessionState.lastWins.rowAfter_none _

-- A snapshot brings the whole table of its origin.
theorem Carries.restored (h : c.Carries states) (hlen : states.length < 2 ^ 32) (n : ClusterNode)
    (origin : ι)
    : (n.restoreSnapshot (c.node origin).createSnapshot).sessionStates
        = (c.node origin).sessionStates := by
  obtain ⟨seen, hseen⟩ := (h.tracks origin).follows
  have hle := Nat.le_trans (hseen.length_le ReplicatedSessionState.lastWins) hseen.seen_le
  rw [h.length_log] at hle
  exact n.restore_createSnapshot ⟨(h.tracks origin).tabled.short, by omega⟩

-- The log grows, and the nodes are handed what is new later.
theorem Carries.append (h : c.Carries states) {entry : LogEntry} {s : ReplicatedSessionState}
    (hchange : change entry = some s)
    : { c with log := c.log ++ [entry] }.Carries (states ++ [s]) where
  log := by
    rw [List.map_append, List.map_append, h.log, List.map_singleton, List.map_singleton, hchange]
  tracks := fun i => (h.tracks i).append [entry]

theorem Carries.record (h : c.Carries states) (i : ι) (sessionId : String)
    : ∃ n, c.given i ≤ n ∧ n ≤ states.length
        ∧ (c.node i).getSessionState sessionId = recordOf (states.take n) sessionId := by
  obtain ⟨seen, hseen⟩ := (h.tracks i).follows
  obtain ⟨n, hgiven, hle, hrow⟩ := hseen.rows sessionId
  refine ⟨n, hgiven, ?_, ?_⟩
  . rw [← h.length_log]
    exact Nat.le_trans hle hseen.seen_le
  . rw [← h.row_tableOf]
    exact hrow

-- The table of a node that was handed the whole log.
theorem Carries.table_eq (h : c.Carries states) {i : ι} (hgiven : c.given i = states.length)
    : (c.node i).sessionStates
        = KeyedTable.tableOf ReplicatedSessionState.sessionId ReplicatedSessionState.update change
          c.log := by
  obtain ⟨seen, hseen⟩ := (h.tracks i).follows
  have hall : seen = c.given i := by
    have hle := hseen.seen_le
    rw [h.length_log, ← hgiven] at hle
    exact Nat.le_antisymm hle hseen.given_le
  rw [hall] at hseen
  have htable := hseen.table_eq ReplicatedSessionState.lastWins
  rw [hgiven, ← h.length_log, List.take_length] at htable
  exact htable

theorem replicated_concat (moves : List (Move ι)) (move : Move ι)
    : replicated (moves ++ [move]) = replicated moves ++ move.state?.toList := by
  unfold replicated
  rw [List.filterMap_append, List.filterMap_cons]
  cases move.state? with
  | none => rfl
  | some state => rfl

theorem replicated_append_deliver (moves : List (Move ι)) (i : ι) (k : Nat)
    : replicated (moves ++ List.replicate k (.deliver i)) = replicated moves := by
  unfold replicated
  have hnone : (List.replicate k (.deliver i)).filterMap Move.state? = [] := by
    rw [List.filterMap_eq_nil_iff]
    intro move hmove
    rw [List.eq_of_mem_replicate hmove]
    rfl
  rw [List.filterMap_append, hnone, List.append_nil]

variable [DecidableEq ι]

theorem Carries.set (h : c.Carries states) {i : ι} {n : ClusterNode} {given : Nat}
    (htracks : n.Tracks c.log given)
    : (c.set i n given).Carries states where
  log := h.log
  tracks := by
    intro j
    change (Function.update c.node i n j).Tracks c.log (Function.update c.given i given j)
    by_cases hj : j = i
    . rw [hj, Function.update_self, Function.update_self]
      exact htracks
    . rw [Function.update_of_ne hj, Function.update_of_ne hj]
      exact h.tracks j

theorem Carries.step (h : c.Carries states) (move : Move ι) (hlen : states.length < 2 ^ 32)
    (hshort : ∀ s, move.state? = some s → s.Short)
    : (c.step move).Carries (states ++ move.state?.toList) := by
  cases move with
  | elect i op helects =>
    change (c.set i (op.apply (c.node i)) (c.given i)).Carries (states ++ [])
    rw [List.append_nil]
    exact h.set ((h.tracks i).of_eq ((c.node i).sessionStates_elects helects))
  | replicate i state =>
    obtain ⟨entry, hentry, hchange⟩ := (c.node i).exists_replicated (hshort state rfl)
    have hset : (c.set i ((c.node i).replicateSessionState state) (c.given i)).Carries states :=
      h.set ((h.tracks i).of_eq rfl)
    change Carries { c.set i ((c.node i).replicateSessionState state) (c.given i) with
      log := c.log ++ ((c.node i).replicateSessionState state).log.getLast?.toList } (states ++ [state])
    rw [hentry]
    exact hset.append hchange
  | deliver i =>
    change (c.deliver i).Carries (states ++ [])
    rw [List.append_nil]
    unfold deliver
    split
    . exact h
    . next entry hentry => exact h.set ((h.tracks i).apply hentry)
  | restore i origin position =>
    change (c.set i _ (min position (c.given origin))).Carries (states ++ [])
    rw [List.append_nil]
    have hsame := h.restored hlen (c.node i) origin
    exact h.set (((h.tracks origin).again (Nat.min_le_right _ _)).of_eq hsame)
  | restart i =>
    change (c.set i (.new (c.node i).config) 0).Carries (states ++ [])
    rw [List.append_nil]
    exact h.set (ClusterNode.tracks_new _ _)

theorem carries_run (config : ι → ClusterConfig) (moves : List (Move ι))
    (hshort : ∀ s ∈ replicated moves, s.Short) (hlen : (replicated moves).length < 2 ^ 32)
    : (run config moves).Carries (replicated moves) := by
  induction moves using List.reverseRecOn with
  | nil => exact ⟨rfl, fun i => ClusterNode.tracks_new (config i) []⟩
  | append_singleton moves move ih =>
    rw [replicated_concat] at hshort hlen ⊢
    rw [List.length_append] at hlen
    have hbefore := ih (fun s hs => hshort s (List.mem_append_left _ hs)) (by omega)
    rw [run, List.foldl_append]
    apply hbefore.step move (by omega)
    intro s hs
    apply hshort
    rw [hs]
    exact List.mem_append_right _ List.mem_cons_self

theorem deliver_given (c : Cluster ι) (i : ι)
    : (c.deliver i).log = c.log
        ∧ min (c.given i + 1) c.log.length ≤ (c.deliver i).given i := by
  unfold deliver
  split
  . next hnone =>
    have hle := List.getElem?_eq_none_iff.mp hnone
    exact ⟨rfl, Nat.le_trans (Nat.min_le_right _ _) hle⟩
  . refine ⟨rfl, ?_⟩
    change _ ≤ Function.update c.given i (c.given i + 1) i
    rw [Function.update_self]
    exact Nat.min_le_left _ _

-- Handed enough entries, a node gets to the end of the log.
theorem deliver_all (c : Cluster ι) (i : ι) (k : Nat)
    : ((List.replicate k (.deliver i)).foldl step c).log = c.log
        ∧ min (c.given i + k) c.log.length
          ≤ ((List.replicate k (.deliver i)).foldl step c).given i := by
  induction k generalizing c with
  | zero => exact ⟨rfl, Nat.min_le_left _ _⟩
  | succ k ih =>
    obtain ⟨hlog, hgiven⟩ := c.deliver_given i
    obtain ⟨hlog', hgiven'⟩ := ih (c.deliver i)
    rw [hlog] at hlog' hgiven'
    rw [List.replicate_succ, List.foldl_cons]
    refine ⟨hlog', Nat.le_trans ?_ hgiven'⟩
    omega

-- The second node is restored while the first one leads, is handed an entry again, and takes over.
def sampleMoves : List (Move Bool) :=
  [.elect false .start trivial, .replicate false (.sampleState 10), .deliver false,
    .replicate false (.sampleState 42), .deliver false, .restore true false 0, .deliver true,
    .restart false, .elect true .becomeLeader trivial, .replicate true (.sampleState 43)]

end Cluster

end Velocitas
