import VelocitasFix.Cluster.Upsert
import VelocitasFix.Data.Machine

/-!
This module contains what holds of a cluster node over whole runs of its operations: the numbering of
its log and its positions in it, and the condition under which its term and its vote only go forward.
-/

namespace Velocitas

namespace ClusterNode

inductive Operation where
  | start
  | beginElection
  | receiveVote (fromNode : UInt32) (term : UInt64) (granted : Bool)
  | becomeLeader
  | stepDown (newTerm : UInt64)
  | replicateSessionState (state : ReplicatedSessionState)
  | applyLogEntry (entry : LogEntry)
  | restoreSnapshot (data : Bytes)
  deriving DecidableEq, Repr

namespace Operation

def apply (n : ClusterNode) : Operation → ClusterNode
  | .start => n.start
  | .beginElection => n.beginElection
  | .receiveVote fromNode term granted => n.receiveVote fromNode term granted
  | .becomeLeader => n.becomeLeader
  | .stepDown newTerm => n.stepDown newTerm
  | .replicateSessionState state => n.replicateSessionState state
  | .applyLogEntry entry => n.applyLogEntry entry
  | .restoreSnapshot data => n.restoreSnapshot data

def run (config : ClusterConfig) (ops : List Operation) : ClusterNode :=
  ops.foldl apply (new config)

end Operation

-- The term of a node and whom it has voted for in it.
structure Ballot where
  term : UInt64
  vote : Option UInt32

-- In a later ballot the term is higher, or it is the same and so is the vote, if there was one.
instance : LE Ballot where
  le a b := a.term ≤ b.term ∧ (a.term = b.term → ∀ c, a.vote = some c → b.vote = some c)

instance : Preorder Ballot where
  le_refl a := ⟨UInt64.le_refl _, fun _ _ hvote => hvote⟩
  le_trans a b c hab hbc := by
    refine ⟨UInt64.le_trans hab.1 hbc.1, ?_⟩
    intro hterm candidate hvote
    have hmid : b.term = c.term := by
      apply UInt64.le_antisymm hbc.1
      rw [← hterm]
      exact hab.1
    exact hbc.2 hmid candidate (hab.2 (hterm.trans hmid.symm) candidate hvote)

def ballot (n : ClusterNode) : Ballot := ⟨n.currentTerm, n.votedFor⟩

-- `u64::MAX`; in a debug build the next election panics there.
def maxTerm : UInt64 := 18446744073709551615

-- The operation does not take the node back in its ballot.
def KeepsBallot (n : ClusterNode) : Operation → Prop
  | .start | .beginElection => n.currentTerm ≠ maxTerm
  | .stepDown newTerm =>
    n.currentTerm < newTerm ∨ (n.currentTerm = newTerm ∧ n.votedFor = none)
  | _ => True

theorem ballot_le_of_lt {a b : Ballot} (h : a.term < b.term) : a ≤ b :=
  ⟨UInt64.le_of_lt h, fun heq => absurd (heq ▸ h) (UInt64.lt_irrefl _)⟩

theorem ballot_beginElection (n : ClusterNode)
    : n.beginElection.ballot = ⟨n.currentTerm + 1, some n.config.nodeId.id⟩ := by
  unfold beginElection
  dsimp only
  split
  . rfl
  . rfl

theorem ballot_le_beginElection_iff (n : ClusterNode)
    : n.ballot ≤ n.beginElection.ballot ↔ n.currentTerm ≠ maxTerm := by
  have hlt := n.currentTerm.toNat_lt
  rw [ballot_beginElection]
  constructor
  . intro h heq
    have hle : n.currentTerm ≤ n.currentTerm + 1 := h.1
    rw [heq] at hle
    revert hle
    decide
  . intro hne
    apply ballot_le_of_lt
    rw [ne_eq, ← UInt64.toNat_inj, maxTerm] at hne
    rw [UInt64.lt_iff_toNat_lt, UInt64.toNat_add]
    show n.currentTerm.toNat < _
    simp only [UInt64.reduceToNat] at hne ⊢
    omega

theorem ballot_le_stepDown_iff (n : ClusterNode) (newTerm : UInt64)
    : n.ballot ≤ (n.stepDown newTerm).ballot
        ↔ n.currentTerm < newTerm ∨ (n.currentTerm = newTerm ∧ n.votedFor = none) := by
  constructor
  . intro h
    by_cases hlt : n.currentTerm < newTerm
    . exact .inl hlt
    . have heq : n.currentTerm = newTerm := UInt64.le_antisymm h.1 (UInt64.not_lt.mp hlt)
      refine .inr ⟨heq, ?_⟩
      cases hvote : n.votedFor with
      | none => rfl
      | some candidate =>
        have hnone : (none : Option UInt32) = some candidate := h.2 heq candidate hvote
        contradiction
  . rintro (hlt | ⟨heq, hnone⟩)
    . exact ballot_le_of_lt hlt
    . refine ⟨UInt64.le_of_eq heq, ?_⟩
      intro _ candidate hvote
      rw [ballot, hnone] at hvote
      contradiction

-- A higher term is taken over, and nothing else changes the ballot.
theorem ballot_le_receiveVote (n : ClusterNode) (fromNode : UInt32) (term : UInt64) (granted : Bool)
    : n.ballot ≤ (n.receiveVote fromNode term granted).ballot := by
  unfold receiveVote
  split
  . next hgt => exact (n.ballot_le_stepDown_iff term).mpr (.inl hgt)
  . split
    . exact le_refl _
    . split
      . dsimp only
        split
        . exact le_refl _
        . exact le_refl _
      . exact le_refl _

theorem ballot_restoreSnapshot (n : ClusterNode) (data : Bytes)
    : (n.restoreSnapshot data).ballot = n.ballot := by
  unfold restoreSnapshot
  dsimp only
  split
  . rfl
  . rfl

theorem keepsBallot_iff (n : ClusterNode) (op : Operation)
    : n.ballot ≤ (op.apply n).ballot ↔ n.KeepsBallot op := by
  cases op with
  | start => exact ballot_le_beginElection_iff { n with state := .active }
  | beginElection => exact n.ballot_le_beginElection_iff
  | receiveVote fromNode term granted =>
    exact iff_of_true (n.ballot_le_receiveVote fromNode term granted) trivial
  | becomeLeader => exact iff_of_true (le_refl _) trivial
  | stepDown newTerm => exact n.ballot_le_stepDown_iff newTerm
  | replicateSessionState state => exact iff_of_true (le_refl _) trivial
  | applyLogEntry entry => exact iff_of_true (le_refl _) trivial
  | restoreSnapshot data =>
    apply iff_of_true _ trivial
    show n.ballot ≤ (n.restoreSnapshot data).ballot
    rw [ballot_restoreSnapshot]

theorem term_and_vote_iff (config : ClusterConfig) (ops : List Operation)
    : (∀ pre later, pre <+: later → later <+: ops →
          (Operation.run config pre).currentTerm ≤ (Operation.run config later).currentTerm
            ∧ ((Operation.run config pre).currentTerm = (Operation.run config later).currentTerm →
              ∀ candidate, (Operation.run config pre).votedFor = some candidate →
                (Operation.run config later).votedFor = some candidate))
        ↔
      ∀ pre op, pre ++ [op] <+: ops → (Operation.run config pre).KeepsBallot op := by
  simp only [← keepsBallot_iff]
  exact Machine.measure_mono_iff ballot

-- The node votes for itself in term 1 and steps down to the same term.
theorem not_term_and_vote
    : ¬ ∀ (config : ClusterConfig) (ops pre later : List Operation), pre <+: later → later <+: ops →
        (Operation.run config pre).currentTerm ≤ (Operation.run config later).currentTerm
          ∧ ((Operation.run config pre).currentTerm = (Operation.run config later).currentTerm →
            ∀ candidate, (Operation.run config pre).votedFor = some candidate →
              (Operation.run config later).votedFor = some candidate) := by
  intro h
  have hvote := (h sampleConfig [.start, .stepDown 1] [.start] [.start, .stepDown 1] (by decide)
    (by decide)).2 (by decide) 1 (by decide)
  revert hvote
  decide

-- The entry at position `i` has the index `i + 1`.
def Numbered (log : List LogEntry) : Prop :=
  ∀ i entry, log[i]? = some entry → entry.index = UInt64.ofNat (i + 1)

theorem Numbered.index_getLast {log : List LogEntry} (h : Numbered log)
    : log.getLast?.elim 0 (·.index) = UInt64.ofNat log.length := by
  cases hlast : log.getLast? with
  | none =>
    rw [List.getLast?_eq_none_iff.mp hlast]
    rfl
  | some entry =>
    have hpos : 0 < log.length := by
      rw [List.length_pos_iff_ne_nil]
      intro hnil
      rw [hnil] at hlast
      contradiction
    rw [List.getLast?_eq_getElem?] at hlast
    rw [Option.elim_some, h _ entry hlast, Nat.sub_add_cancel hpos]

theorem Numbered.replicate {n : ClusterNode} (h : Numbered n.log) (state : ReplicatedSessionState)
    : Numbered (n.replicateSessionState state).log := by
  unfold replicateSessionState
  dsimp only
  intro i entry hentry
  rw [List.getElem?_append] at hentry
  split at hentry
  . exact h i entry hentry
  . next hge =>
    rw [List.getElem?_singleton] at hentry
    split at hentry
    . next hi =>
      have heq : i = n.log.length := by omega
      rw [← Option.some.inj hentry, heq]
      dsimp only
      rw [h.index_getLast, UInt64.ofNat_add]
      rfl
    . contradiction

-- The log of a node and how far it has come in it.
def progress (n : ClusterNode) : List LogEntry × UInt64 × UInt64 :=
  (n.log, n.lastApplied, n.commitIndex)

theorem progress_restoreSnapshot (n : ClusterNode) (data : Bytes)
    : (n.restoreSnapshot data).progress = n.progress := by
  unfold restoreSnapshot
  dsimp only
  split
  . rfl
  . rfl

theorem progress_beginElection (n : ClusterNode) : n.beginElection.progress = n.progress := by
  unfold beginElection
  dsimp only
  split
  . rfl
  . rfl

theorem progress_receiveVote (n : ClusterNode) (fromNode : UInt32) (term : UInt64) (granted : Bool)
    : (n.receiveVote fromNode term granted).progress = n.progress := by
  unfold receiveVote
  dsimp only
  split
  . rfl
  . split
    . rfl
    . split
      . split
        . rfl
        . rfl
      . rfl

theorem le_ite_max (a b : UInt64) : a ≤ if b > a then b else a := by
  split
  . next hgt => exact UInt64.le_of_lt hgt
  . exact UInt64.le_refl a

-- A numbered log stays numbered, and no position in it goes back.
structure Advances (n n' : ClusterNode) : Prop where
  numbered : Numbered n.log → Numbered n'.log
  lastApplied_le : n.lastApplied ≤ n'.lastApplied
  commitIndex_le : n.commitIndex ≤ n'.commitIndex

theorem advances_of_eq {n n' : ClusterNode} (h : n'.progress = n.progress) : Advances n n' where
  numbered hnumbered := by
    have hlog : n'.log = n.log := congrArg Prod.fst h
    rw [hlog]
    exact hnumbered
  lastApplied_le := UInt64.le_of_eq (congrArg (·.2.1) h).symm
  commitIndex_le := UInt64.le_of_eq (congrArg (·.2.2) h).symm

theorem Advances.trans {a b c : ClusterNode} (hab : Advances a b) (hbc : Advances b c)
    : Advances a c where
  numbered hnumbered := hbc.numbered (hab.numbered hnumbered)
  lastApplied_le := UInt64.le_trans hab.lastApplied_le hbc.lastApplied_le
  commitIndex_le := UInt64.le_trans hab.commitIndex_le hbc.commitIndex_le

theorem advances_apply (n : ClusterNode) (op : Operation) : Advances n (op.apply n) := by
  cases op with
  | start => exact advances_of_eq (progress_beginElection { n with state := .active })
  | beginElection => exact advances_of_eq n.progress_beginElection
  | receiveVote fromNode term granted =>
    exact advances_of_eq (n.progress_receiveVote fromNode term granted)
  | becomeLeader => exact advances_of_eq rfl
  | stepDown newTerm => exact advances_of_eq rfl
  | replicateSessionState state =>
    exact ⟨fun hnumbered => hnumbered.replicate state, UInt64.le_refl _, UInt64.le_refl _⟩
  | applyLogEntry entry => exact ⟨fun hnumbered => hnumbered, le_ite_max _ _, le_ite_max _ _⟩
  | restoreSnapshot data => exact advances_of_eq (n.progress_restoreSnapshot data)

theorem advances_foldl (n : ClusterNode) (ops : List Operation)
    : Advances n (ops.foldl Operation.apply n) := by
  induction ops generalizing n with
  | nil => exact advances_of_eq rfl
  | cons op ops ih => exact (advances_apply n op).trans (ih _)

theorem advances_run (config : ClusterConfig) {pre ops : List Operation} (h : pre <+: ops)
    : Advances (Operation.run config pre) (Operation.run config ops) := by
  obtain ⟨rest, rfl⟩ := h
  unfold Operation.run
  rw [List.foldl_append]
  apply advances_foldl

theorem Numbered.toNat_index {log : List LogEntry} (h : Numbered log) (hlen : log.length < 2 ^ 64)
    {i : Nat} {entry : LogEntry} (hentry : log[i]? = some entry)
    : entry.index.toNat = i + 1 := by
  have hlt := (List.getElem?_eq_some_iff.mp hentry).1
  rw [h i entry hentry]
  apply UInt64.toNat_ofNat_of_lt'
  show i + 1 < 2 ^ 64
  omega

-- The entries behind a position are all but those up to it.
theorem Numbered.countP_eq {log : List LogEntry} (h : Numbered log) (hlen : log.length < 2 ^ 64)
    (position : UInt64)
    : (log.countP fun e => position < e.index) = log.length - position.toNat := by
  induction log using List.reverseRecOn with
  | nil => rw [List.countP_nil, List.length_nil, Nat.zero_sub]
  | append_singleton log entry ih =>
    have hlast : entry.index.toNat = log.length + 1 := by
      apply h.toNat_index hlen
      rw [List.getElem?_append_right (Nat.le_refl _), Nat.sub_self]
      rfl
    have hnumbered : Numbered log := by
      intro i e hi
      apply h i e
      rw [List.getElem?_append_left (List.getElem?_eq_some_iff.mp hi).1]
      exact hi
    rw [List.length_append, List.length_singleton] at hlen ⊢
    rw [List.countP_append, ih hnumbered (by omega), List.countP_singleton]
    simp only [decide_eq_true_eq, UInt64.lt_iff_toNat_lt, hlast]
    split
    . omega
    . omega

theorem Numbered.toNat_pendingEntries {n : ClusterNode} (h : Numbered n.log)
    (hlen : n.log.length < 2 ^ 64)
    : n.pendingEntries.toNat = n.log.length - n.commitIndex.toNat := by
  unfold pendingEntries
  dsimp only
  rw [h.index_getLast]
  have hlast : (UInt64.ofNat n.log.length).toNat = n.log.length := UInt64.toNat_ofNat_of_lt' hlen
  split
  . next hempty =>
    rw [List.isEmpty_iff.mp hempty, List.length_nil, Nat.zero_sub]
    rfl
  . split
    . next hgt =>
      rw [UInt64.toNat_sub_of_le _ _ (UInt64.le_of_lt hgt), hlast]
    . next hle =>
      rw [gt_iff_lt, UInt64.lt_iff_toNat_lt, hlast] at hle
      show 0 = _
      omega

-- The length of the log is a `usize`.
theorem log_and_pending (config : ClusterConfig) (ops : List Operation)
    (hlen : (Operation.run config ops).log.length < 2 ^ 64)
    : (∀ i entry, (Operation.run config ops).log[i]? = some entry → entry.index.toNat = i + 1)
        ∧ (∀ pre, pre <+: ops →
          (Operation.run config pre).lastApplied ≤ (Operation.run config ops).lastApplied
            ∧ (Operation.run config pre).commitIndex ≤ (Operation.run config ops).commitIndex)
        ∧ (Operation.run config ops).pendingEntries.toNat
          = (Operation.run config ops).log.countP fun e =>
              (Operation.run config ops).commitIndex < e.index := by
  have hnumbered : Numbered (Operation.run config ops).log :=
    (advances_foldl (new config) ops).numbered nofun
  refine ⟨?_, ?_, ?_⟩
  . intro i entry hentry
    exact hnumbered.toNat_index hlen hentry
  . intro pre hpre
    have hadvances := advances_run config hpre
    exact ⟨hadvances.lastApplied_le, hadvances.commitIndex_le⟩
  . rw [hnumbered.toNat_pendingEntries hlen, hnumbered.countP_eq hlen]

-- The entry that is applied has an index beyond the log.
def sampleOperations : List Operation :=
  [.start, .replicateSessionState (.sampleState 10), .applyLogEntry (sampleEntry 7 42)]

theorem log_and_pending_sample
    : (∀ i entry, (Operation.run sampleConfig sampleOperations).log[i]? = some entry →
          entry.index.toNat = i + 1)
        ∧ (∀ pre, pre <+: sampleOperations →
          (Operation.run sampleConfig pre).lastApplied
              ≤ (Operation.run sampleConfig sampleOperations).lastApplied
            ∧ (Operation.run sampleConfig pre).commitIndex
              ≤ (Operation.run sampleConfig sampleOperations).commitIndex)
        ∧ (Operation.run sampleConfig sampleOperations).pendingEntries.toNat
          = (Operation.run sampleConfig sampleOperations).log.countP fun e =>
              (Operation.run sampleConfig sampleOperations).commitIndex < e.index :=
  log_and_pending sampleConfig sampleOperations (by decide)

end ClusterNode

end Velocitas
