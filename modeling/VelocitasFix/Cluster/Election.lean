import VelocitasFix.Cluster.Impl
import Mathlib.Data.Finset.Card

/-!
This module contains the proof of when the elections of a cluster node are won by a majority. The node
counts the votes without looking at who sent them, so that it takes each member to vote only once.
-/

namespace Velocitas

namespace ClusterNode

inductive Call where
  | start
  | beginElection
  | receiveVote (fromNode : UInt32) (term : UInt64) (granted : Bool)
  deriving DecidableEq, Repr

namespace Call

def begins : Call → Bool
  | .start | .beginElection => true
  | .receiveVote .. => false

def apply (n : ClusterNode) : Call → ClusterNode
  | .start => n.start
  | .beginElection => n.beginElection
  | .receiveVote fromNode term granted => n.receiveVote fromNode term granted

end Call

def run (config : ClusterConfig) (calls : List Call) : ClusterNode :=
  calls.foldl Call.apply (new config)

-- The calls after the last one that began an election.
def sinceElection (calls : List Call) : List Call :=
  calls.foldl (fun since call => if call.begins then [] else since ++ [call]) []

def peerIds (config : ClusterConfig) : Finset UInt32 :=
  (config.peers.map NodeId.id).toFinset

def members (config : ClusterConfig) : Finset UInt32 := insert config.nodeId.id (peerIds config)

-- The node itself, and the peers from which a vote for the term was received in the last election.
def supporters (config : ClusterConfig) (calls : List Call) (term : UInt64) : Finset UInt32 :=
  insert config.nodeId.id
    ((peerIds config).filter fun id => .receiveVote id term true ∈ sinceElection calls)

-- Each vote that makes the node the leader gives it more than half of the members.
def WonByMajority (config : ClusterConfig) (calls : List Call) : Prop :=
  ∀ before fromNode term granted after,
    calls = before ++ .receiveVote fromNode term granted :: after →
    let elected := run config (before ++ [.receiveVote fromNode term granted])
    (run config before).role ≠ .leader → elected.role = .leader →
      (members config).card
        < 2 * (supporters config (before ++ [.receiveVote fromNode term granted])
            elected.currentTerm).card

-- The vote comes from another member, and it is the first one from there in this election.
structure Legitimate (config : ClusterConfig) (before : List Call) (fromNode : UInt32)
    (term : UInt64) : Prop where
  peer : fromNode ∈ peerIds config
  other : fromNode ≠ config.nodeId.id
  first : .receiveVote fromNode term true ∉ sinceElection before

def Counts (n : ClusterNode) (term : UInt64) : Prop :=
  n.role = .candidate ∧ term = n.currentTerm

-- Every vote counted since the last election began is legitimate.
def LegitimateSince (config : ClusterConfig) (calls : List Call) : Prop :=
  ∀ before fromNode term after, calls = before ++ .receiveVote fromNode term true :: after →
    (∀ call ∈ after, call.begins = false) → (run config before).Counts term →
      Legitimate config before fromNode term

-- So it is in each election at the vote that decides it.
def DecidedLegitimately (config : ClusterConfig) (calls : List Call) : Prop :=
  ∀ before fromNode term after, calls = before ++ .receiveVote fromNode term true :: after →
    (run config before).Counts term →
    majority config ≤ (run config before).votesReceived + 1 →
      LegitimateSince config (before ++ [.receiveVote fromNode term true])

theorem run_concat (config : ClusterConfig) (calls : List Call) (call : Call)
    : run config (calls ++ [call]) = call.apply (run config calls) := by
  rw [run, List.foldl_append]
  rfl

theorem sinceElection_concat (calls : List Call) (call : Call)
    : sinceElection (calls ++ [call])
        = if call.begins then [] else sinceElection calls ++ [call] := by
  rw [sinceElection, List.foldl_append]
  rfl

theorem sinceElection_vote (calls : List Call) (fromNode : UInt32) (term : UInt64) (granted : Bool)
    : sinceElection (calls ++ [.receiveVote fromNode term granted])
        = sinceElection calls ++ [.receiveVote fromNode term granted] :=
  sinceElection_concat calls _

theorem legitimateSince_of_begins {config : ClusterConfig} {calls : List Call} {call : Call}
    (h : call.begins = true)
    : LegitimateSince config (calls ++ [call]) := by
  intro before fromNode term after hcalls hafter
  obtain hnil | ⟨after', last, hlast⟩ := after.eq_nil_or_concat
  . rw [hnil] at hcalls
    have hcall := (List.append_inj' hcalls rfl).2
    injection hcall with hcall
    rw [hcall] at h
    contradiction
  . rw [hlast, List.concat_eq_append, ← List.cons_append, ← List.append_assoc] at hcalls
    have hcall := (List.append_inj' hcalls rfl).2
    injection hcall with hcall
    have hbegins := hafter last (by simp [hlast])
    rw [← hcall, h] at hbegins
    contradiction

theorem legitimateSince_vote {config : ClusterConfig} {calls : List Call} {fromNode : UInt32}
    {term : UInt64} {granted : Bool}
    : LegitimateSince config (calls ++ [.receiveVote fromNode term granted])
        ↔ LegitimateSince config calls
          ∧ (granted = true → (run config calls).Counts term →
              Legitimate config calls fromNode term) := by
  constructor
  . intro h
    constructor
    . intro before fromNode' term' after hcalls hafter
      apply h before fromNode' term' (after ++ [.receiveVote fromNode term granted])
      . rw [hcalls, List.append_assoc]
        rfl
      . intro call hcall
        rw [List.mem_append, List.mem_singleton] at hcall
        cases hcall with
        | inl hmem => exact hafter call hmem
        | inr heq => rw [heq]; rfl
    . intro hgranted
      exact h calls fromNode term [] (by rw [hgranted]) nofun
  . rintro ⟨hcalls, hlast⟩ before fromNode' term' after heq hafter
    obtain hnil | ⟨after', last, hconcat⟩ := after.eq_nil_or_concat
    . rw [hnil] at heq
      obtain ⟨hbefore, hcall⟩ := List.append_inj' heq rfl
      injection hcall with hcall
      injection hcall with hfrom hterm hgranted
      rw [← hbefore, ← hfrom, ← hterm]
      exact hlast hgranted
    . rw [hconcat, List.concat_eq_append, ← List.cons_append, ← List.append_assoc] at heq
      apply hcalls before fromNode' term' after' (List.append_inj' heq rfl).1
      intro call hcall
      exact hafter call (by simp [hconcat, hcall])

section ReceiveVote

variable (n : ClusterNode) (fromNode : UInt32) (term : UInt64) (granted : Bool)

-- Everything that a vote can do.
theorem receiveVote_cases
    : (n.receiveVote fromNode term granted).role = .follower
        ∨ (n.receiveVote fromNode term granted = n ∧ ¬ (granted = true ∧ n.Counts term))
        ∨ (granted = true ∧ n.Counts term
          ∧ ((¬ majority n.config ≤ n.votesReceived + 1
              ∧ n.receiveVote fromNode term granted
                = { n with votesReceived := n.votesReceived + 1 })
            ∨ (majority n.config ≤ n.votesReceived + 1
              ∧ n.receiveVote fromNode term granted
                = { n with votesReceived := n.votesReceived + 1 }.becomeLeader))) := by
  unfold receiveVote Counts
  split
  . left
    rfl
  . split
    . next hnot =>
      right
      left
      refine ⟨rfl, ?_⟩
      rintro ⟨-, hrole, hterm⟩
      cases hnot with
      | inl h => exact h hrole
      | inr h => exact h hterm
    . next hcounts =>
      simp only [not_or, not_not] at hcounts
      split
      . next hgranted =>
        right
        right
        refine ⟨hgranted, hcounts, ?_⟩
        dsimp only
        split
        . next hmajority => exact .inr ⟨hmajority, rfl⟩
        . next hmajority => exact .inl ⟨hmajority, rfl⟩
      . next hgranted =>
        right
        left
        exact ⟨rfl, fun h => hgranted h.1⟩

theorem config_receiveVote : (n.receiveVote fromNode term granted).config = n.config := by
  unfold receiveVote
  split
  . rfl
  . split
    . rfl
    . split
      . dsimp only
        split
        . rfl
        . rfl
      . rfl

end ReceiveVote

theorem config_beginElection (n : ClusterNode) : n.beginElection.config = n.config := by
  unfold beginElection
  dsimp only
  split
  . rfl
  . rfl

theorem config_run (config : ClusterConfig) (calls : List Call)
    : (run config calls).config = config := by
  induction calls using List.reverseRecOn with
  | nil => rfl
  | append_singleton calls call ih =>
    rw [run_concat]
    cases call with
    | start => exact (config_beginElection _).trans ih
    | beginElection => exact (config_beginElection _).trans ih
    | receiveVote fromNode term granted => exact (config_receiveVote _ fromNode term granted).trans ih

theorem candidate_beginElection (n : ClusterNode) (h : n.beginElection.role = .candidate)
    : n.beginElection.votesReceived = 1 ∧ n.config.peers ≠ [] := by
  unfold beginElection at h ⊢
  dsimp only at h ⊢
  split at h
  . contradiction
  . next hpeers =>
    rw [if_neg hpeers]
    exact ⟨rfl, by simpa using hpeers⟩

section Supporters

variable {config : ClusterConfig} {calls : List Call}

theorem supporters_of_begins {call : Call} (h : call.begins = true) (term : UInt64)
    : supporters config (calls ++ [call]) term = {config.nodeId.id} := by
  rw [supporters, sinceElection_concat, if_pos h]
  simp

-- A vote that is not for the term changes nothing.
theorem supporters_of_other {fromNode : UInt32} {term term' : UInt64} {granted : Bool}
    (h : ¬ (granted = true ∧ term = term'))
    : supporters config (calls ++ [.receiveVote fromNode term granted]) term'
        = supporters config calls term' := by
  rw [supporters, sinceElection_vote, supporters]
  congr 2
  ext id
  rw [List.mem_append, List.mem_singleton, Call.receiveVote.injEq]
  tauto

theorem card_supporters_vote {fromNode : UInt32} {term : UInt64}
    : (Legitimate config calls fromNode term
          ∧ (supporters config (calls ++ [.receiveVote fromNode term true]) term).card
            = (supporters config calls term).card + 1)
        ∨ (¬ Legitimate config calls fromNode term
          ∧ (supporters config (calls ++ [.receiveVote fromNode term true]) term).card
            = (supporters config calls term).card) := by
  have hmem (id : UInt32) : id ∈ supporters config (calls ++ [.receiveVote fromNode term true]) term
      ↔ id ∈ supporters config calls term ∨ (id ∈ peerIds config ∧ id = fromNode) := by
    rw [supporters, sinceElection_vote, supporters]
    simp only [Finset.mem_insert, Finset.mem_filter, List.mem_append, List.mem_singleton,
      Call.receiveVote.injEq, and_true]
    tauto
  have hin : fromNode ∈ supporters config calls term ↔ fromNode = config.nodeId.id
      ∨ (fromNode ∈ peerIds config ∧ .receiveVote fromNode term true ∈ sinceElection calls) := by
    rw [supporters, Finset.mem_insert, Finset.mem_filter]
  by_cases h : Legitimate config calls fromNode term
  . left
    refine ⟨h, ?_⟩
    have hinsert : supporters config (calls ++ [.receiveVote fromNode term true]) term
        = insert fromNode (supporters config calls term) := by
      ext id
      rw [hmem, Finset.mem_insert]
      have hpeer := h.peer
      constructor
      . tauto
      . rintro (heq | hold)
        . exact .inr ⟨by rwa [heq], heq⟩
        . exact .inl hold
    rw [hinsert, Finset.card_insert_of_notMem]
    rw [hin]
    rintro (heq | hold)
    . exact h.other heq
    . exact h.first hold.2
  . right
    refine ⟨h, ?_⟩
    congr 1
    ext id
    rw [hmem]
    constructor
    . rintro (hold | ⟨hpeer, heq⟩)
      . exact hold
      . rw [heq] at hpeer ⊢
        rw [hin]
        by_contra hnot
        rw [not_or, not_and] at hnot
        exact h ⟨hpeer, hnot.1, hnot.2 hpeer⟩
    . exact .inl

theorem card_members_le (config : ClusterConfig)
    : (members config).card ≤ config.peers.length + 1 := by
  apply (Finset.card_insert_le _ _).trans
  have hle := List.toFinset_card_le (config.peers.map NodeId.id)
  rw [List.length_map] at hle
  exact Nat.succ_le_succ hle

-- No two members of the cluster have the same id.
def Distinct (config : ClusterConfig) : Prop :=
  (config.nodeId.id :: config.peers.map NodeId.id).Nodup

theorem Distinct.card_members (h : Distinct config)
    : (members config).card = config.peers.length + 1 := by
  have hcard := List.toFinset_card_of_nodup h
  rw [List.length_cons, List.length_map] at hcard
  rw [← hcard, List.toFinset_cons]
  rfl

theorem toNat_majority (h : config.peers.length + 1 < 2 ^ 32)
    : (majority config).toNat = (config.peers.length + 1) / 2 + 1 := by
  have hsize : (UInt32.ofNat config.peers.length + 1).toNat = config.peers.length + 1 := by
    rw [UInt32.toNat_add, UInt32.toNat_ofNat', Nat.mod_eq_of_lt (Nat.lt_of_succ_lt h)]
    exact Nat.mod_eq_of_lt h
  unfold majority
  dsimp only
  rw [UInt32.toNat_add, UInt32.toNat_div, hsize]
  exact Nat.mod_eq_of_lt (by simp only [UInt32.reduceToNat]; omega)

end Supporters

-- While the node is a candidate, it counts its supporters, and possibly some of them twice.
structure Tally (config : ClusterConfig) (calls : List Call) : Prop where
  lt_majority : (run config calls).votesReceived.toNat < (majority config).toNat
  card_le : (supporters config calls (run config calls).currentTerm).card
    ≤ (run config calls).votesReceived.toNat
  card_eq_iff : (supporters config calls (run config calls).currentTerm).card
      = (run config calls).votesReceived.toNat
    ↔ LegitimateSince config calls

section Runs

variable {config : ClusterConfig} {calls : List Call}

theorem Tally.toNat_succ (h : Tally config calls)
    : ((run config calls).votesReceived + 1).toNat = (run config calls).votesReceived.toNat + 1 := by
  have hlt := h.lt_majority
  have hmajority := (majority config).toNat_lt
  rw [UInt32.toNat_add]
  apply Nat.mod_eq_of_lt
  simp only [UInt32.reduceToNat]
  omega

theorem Tally.vote (h : Tally config calls) (fromNode : UInt32) {term : UInt64}
    (hcounts : (run config calls).Counts term)
    : (supporters config (calls ++ [.receiveVote fromNode term true]) term).card
          ≤ (run config calls).votesReceived.toNat + 1
        ∧ ((supporters config (calls ++ [.receiveVote fromNode term true]) term).card
            = (run config calls).votesReceived.toNat + 1
          ↔ LegitimateSince config (calls ++ [.receiveVote fromNode term true])) := by
  have hle := h.card_le
  have hiff := h.card_eq_iff
  rw [← hcounts.2] at hle hiff
  rw [legitimateSince_vote, ← hiff]
  cases @card_supporters_vote config calls fromNode term with
  | inl hnew =>
    rw [hnew.2]
    refine ⟨Nat.succ_le_succ hle, ?_⟩
    rw [Nat.succ_inj]
    exact ⟨fun heq => ⟨heq, fun _ _ => hnew.1⟩, And.left⟩
  | inr hold =>
    rw [hold.2]
    refine ⟨Nat.le_succ_of_le hle, ?_⟩
    constructor
    . intro heq
      omega
    . intro heq
      exact absurd (heq.2 rfl hcounts) hold.1

-- A vote that makes the node the leader: it is counted, and the count reaches the majority.
theorem decides_of_leader {fromNode : UInt32} {term : UInt64} {granted : Bool}
    (hrole : (run config calls).role ≠ .leader)
    (hleader : (run config (calls ++ [.receiveVote fromNode term granted])).role = .leader)
    : granted = true ∧ (run config calls).Counts term
        ∧ majority config ≤ (run config calls).votesReceived + 1
        ∧ (run config (calls ++ [.receiveVote fromNode term granted])).currentTerm = term := by
  rw [run_concat] at hleader ⊢
  change ((run config calls).receiveVote fromNode term granted).role = .leader at hleader
  change _ ∧ _ ∧ _ ∧ ((run config calls).receiveVote fromNode term granted).currentTerm = term
  obtain hfollower | ⟨hsame, -⟩ | ⟨hgranted, hcounts, ⟨-, hcounted⟩ | ⟨hmajority, hbecame⟩⟩ :=
    (run config calls).receiveVote_cases fromNode term granted
  . rw [hfollower] at hleader
    contradiction
  . rw [hsame] at hleader
    exact absurd hleader hrole
  . rw [hcounted] at hleader
    exact absurd hleader hrole
  . rw [config_run] at hmajority
    rw [hbecame]
    exact ⟨hgranted, hcounts, hmajority, hcounts.2.symm⟩

theorem leader_of_decides {fromNode : UInt32} {term : UInt64}
    (hcounts : (run config calls).Counts term)
    (hmajority : majority config ≤ (run config calls).votesReceived + 1)
    : (run config (calls ++ [.receiveVote fromNode term true])).role = .leader := by
  rw [run_concat]
  change ((run config calls).receiveVote fromNode term true).role = .leader
  unfold receiveVote
  rw [if_neg (by rw [hcounts.2]; exact UInt64.lt_irrefl _), if_neg (by simp [hcounts.1, hcounts.2]),
    if_pos rfl]
  dsimp only
  rw [config_run, if_pos hmajority]
  rfl

variable (hsize : config.peers.length + 1 < 2 ^ 32)

include hsize

theorem tally_of_begins {call : Call} (hbegins : call.begins = true)
    (hvotes : (run config (calls ++ [call])).votesReceived = 1) (hpeers : config.peers ≠ [])
    : Tally config (calls ++ [call]) := by
  have hlen := List.length_pos_iff.mpr hpeers
  constructor
  . rw [hvotes, toNat_majority hsize]
    simp only [UInt32.reduceToNat]
    omega
  . rw [hvotes, supporters_of_begins hbegins]
    exact Nat.le_refl _
  . rw [hvotes, supporters_of_begins hbegins]
    exact iff_of_true rfl (legitimateSince_of_begins hbegins)

theorem tally_run (hrole : (run config calls).role = .candidate) : Tally config calls := by
  induction calls using List.reverseRecOn with
  | nil => contradiction
  | append_singleton calls call ih =>
    cases call with
    | start =>
      have hn : run config (calls ++ [.start]) = (run config calls).start := run_concat _ _ _
      rw [hn] at hrole
      obtain ⟨hvotes, hpeers⟩ := candidate_beginElection _ hrole
      exact tally_of_begins hsize rfl (by rw [hn]; exact hvotes)
        (by rwa [← config_run config calls])
    | beginElection =>
      have hn : run config (calls ++ [.beginElection]) = (run config calls).beginElection :=
        run_concat _ _ _
      rw [hn] at hrole
      obtain ⟨hvotes, hpeers⟩ := candidate_beginElection _ hrole
      exact tally_of_begins hsize rfl (by rw [hn]; exact hvotes)
        (by rwa [← config_run config calls])
    | receiveVote fromNode term granted =>
      have hn : run config (calls ++ [.receiveVote fromNode term granted])
          = (run config calls).receiveVote fromNode term granted := run_concat _ _ _
      obtain hfollower | ⟨hsame, hnot⟩ | ⟨hgranted, hcounts, ⟨hnot, hcounted⟩ | ⟨-, hleader⟩⟩ :=
        (run config calls).receiveVote_cases fromNode term granted
      . rw [hn, hfollower] at hrole
        contradiction
      . rw [hsame] at hn
        rw [hn] at hrole
        obtain ⟨hlt, hle, hiff⟩ := ih hrole
        have hother : supporters config (calls ++ [.receiveVote fromNode term granted])
            (run config calls).currentTerm = supporters config calls (run config calls).currentTerm :=
          supporters_of_other fun h => hnot ⟨h.1, hrole, h.2⟩
        constructor
        . rwa [hn]
        . rwa [hn, hother]
        . rw [hn, hother, hiff, legitimateSince_vote]
          exact ⟨fun h => ⟨h, fun hgranted hcounts => absurd ⟨hgranted, hcounts⟩ hnot⟩, And.left⟩
      . obtain ⟨hcandidate, hterm⟩ := hcounts
        have htally := ih hcandidate
        obtain ⟨hle, hiff⟩ := htally.vote fromNode ⟨hcandidate, hterm⟩
        have hsucc := htally.toNat_succ
        rw [config_run, UInt32.le_iff_toNat_le, Nat.not_le] at hnot
        rw [hcounted] at hn
        rw [hgranted] at hn ⊢
        constructor
        . rw [hn]
          exact hnot
        . rw [hn]
          dsimp only
          rw [hsucc, ← hterm]
          exact hle
        . rw [hn]
          dsimp only
          rw [hsucc, ← hterm]
          exact hiff
      . rw [hn, hleader] at hrole
        contradiction

-- The count is the majority then, so that no supporter may be missing in it.
theorem card_supporters_of_decides {fromNode : UInt32} {term : UInt64}
    (hcounts : (run config calls).Counts term)
    (hmajority : majority config ≤ (run config calls).votesReceived + 1)
    : (supporters config (calls ++ [.receiveVote fromNode term true]) term).card
          ≤ (config.peers.length + 1) / 2 + 1
        ∧ ((supporters config (calls ++ [.receiveVote fromNode term true]) term).card
            = (config.peers.length + 1) / 2 + 1
          ↔ LegitimateSince config (calls ++ [.receiveVote fromNode term true])) := by
  have htally := tally_run hsize hcounts.1
  have hvote := htally.vote fromNode hcounts
  have hlt := htally.lt_majority
  rw [UInt32.le_iff_toNat_le, htally.toNat_succ] at hmajority
  rw [toNat_majority hsize] at hlt hmajority
  have hcount : (run config calls).votesReceived.toNat + 1
      = (config.peers.length + 1) / 2 + 1 := by omega
  rwa [hcount] at hvote

theorem won_by_majority_iff (calls : List Call)
    : (DecidedLegitimately config calls → WonByMajority config calls)
        ∧ (Distinct config →
          (WonByMajority config calls ↔ DecidedLegitimately config calls)) := by
  have hmembers := card_members_le config
  have hwon : DecidedLegitimately config calls → WonByMajority config calls := by
    intro h before fromNode term granted after hcalls elected hrole hleader
    obtain ⟨hgranted, hcounts, hmajority, hterm⟩ := decides_of_leader hrole hleader
    rw [hgranted] at hcalls
    have hlegitimate := h before fromNode term after hcalls hcounts hmajority
    have hcard := (card_supporters_of_decides hsize hcounts hmajority).2.mpr hlegitimate
    rw [hterm, hgranted, hcard]
    omega
  refine ⟨hwon, ?_⟩
  intro hdistinct
  refine ⟨?_, hwon⟩
  intro h before fromNode term after hcalls hcounts hmajority
  have hleader := @leader_of_decides config before fromNode term hcounts hmajority
  have hrole : (run config before).role ≠ .leader := by
    rw [hcounts.1]
    exact nofun
  obtain ⟨-, -, -, hterm⟩ := decides_of_leader hrole hleader
  have hlt := h before fromNode term true after hcalls hrole hleader
  obtain ⟨hle, hiff⟩ :=
    @card_supporters_of_decides config before hsize fromNode term hcounts hmajority
  rw [hterm, hdistinct.card_members] at hlt
  apply hiff.mp
  omega

end Runs

-- A cluster of five members.
def fiveConfig : ClusterConfig where
  nodeId := ⟨1, "127.0.0.1", 9001⟩
  peers := [2, 3, 4, 5].map fun id => ⟨id, "127.0.0.1", 9000⟩

theorem won_by_majority_iff_five
    : (DecidedLegitimately fiveConfig [.start, .receiveVote 2 1 true, .receiveVote 3 1 true] →
          WonByMajority fiveConfig [.start, .receiveVote 2 1 true, .receiveVote 3 1 true])
        ∧ (Distinct fiveConfig →
          (WonByMajority fiveConfig [.start, .receiveVote 2 1 true, .receiveVote 3 1 true]
            ↔ DecidedLegitimately fiveConfig
              [.start, .receiveVote 2 1 true, .receiveVote 3 1 true])) :=
  won_by_majority_iff (by decide) [.start, .receiveVote 2 1 true, .receiveVote 3 1 true]

-- Node 2 sends its vote twice, and so two of five members make node 1 the leader.
theorem not_won_by_majority
    : ¬ ∀ (config : ClusterConfig) (calls : List Call), WonByMajority config calls := by
  intro h
  have hlt := h fiveConfig _ [.start, .receiveVote 2 1 true] 2 1 true [] rfl
  revert hlt
  decide +kernel

end ClusterNode

end Velocitas
