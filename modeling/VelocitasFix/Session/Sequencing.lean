import VelocitasFix.Data.Subsequence
import VelocitasFix.Session.Lemmas

/-!
This module contains the tracking of the inbound numbers: a session expects the number behind the
longest run 1, 2, 3, … that occurs among the numbers it has received.
-/

namespace Velocitas

namespace Session

open Subsequence

theorem inboundSeqNum_validateInboundSeq (s : Session) (receivedSeq : UInt64) (now : Instant)
    : (s.validateInboundSeq receivedSeq now).2.inboundSeqNum
        = if receivedSeq = s.inboundSeqNum then s.inboundSeqNum + 1 else s.inboundSeqNum := by
  unfold validateInboundSeq
  split
  . rfl
  . split
    all_goals rfl

-- Which numbers a single call reports as the end of a gap, and what it leaves alone then.
structure ReportsGaps (s : Session) (receivedSeq : UInt64) (now : Instant) : Prop where
  error_iff : ∀ gapStart gapEnd,
    (s.validateInboundSeq receivedSeq now).1 = .error (gapStart, gapEnd)
      ↔ s.expectedInboundSeqNum < receivedSeq
        ∧ gapStart = s.expectedInboundSeqNum ∧ gapEnd = receivedSeq
  unchanged : s.expectedInboundSeqNum < receivedSeq →
    (s.validateInboundSeq receivedSeq now).2.expectedInboundSeqNum = s.expectedInboundSeqNum
  ok : ¬ s.expectedInboundSeqNum < receivedSeq →
    (s.validateInboundSeq receivedSeq now).1 = .ok ()

theorem validateInboundSeq_of_lt {s : Session} {receivedSeq : UInt64}
    (h : s.inboundSeqNum < receivedSeq) (now : Instant)
    : (s.validateInboundSeq receivedSeq now).1 = .error (s.inboundSeqNum, receivedSeq) := by
  unfold validateInboundSeq
  rw [if_neg (UInt64.ne_of_lt h).symm, if_pos h]

theorem validateInboundSeq_of_not_lt {s : Session} {receivedSeq : UInt64}
    (h : ¬ s.inboundSeqNum < receivedSeq) (now : Instant)
    : (s.validateInboundSeq receivedSeq now).1 = .ok () := by
  unfold validateInboundSeq
  split
  all_goals rfl

theorem reportsGaps (s : Session) (receivedSeq : UInt64) (now : Instant)
    : s.ReportsGaps receivedSeq now := by
  by_cases hlt : s.inboundSeqNum < receivedSeq
  . have hresult := validateInboundSeq_of_lt hlt now
    refine ⟨?_, ?_, ?_⟩
    . intro gapStart gapEnd
      rw [hresult]
      constructor
      . intro heq
        cases heq
        exact ⟨hlt, rfl, rfl⟩
      . rintro ⟨_, rfl, rfl⟩
        rfl
    . intro _
      rw [expectedInboundSeqNum, inboundSeqNum_validateInboundSeq,
        if_neg (UInt64.ne_of_lt hlt).symm]
      rfl
    . intro hnot
      exact absurd hlt hnot
  . have hresult := validateInboundSeq_of_not_lt hlt now
    refine ⟨?_, ?_, ?_⟩
    . intro gapStart gapEnd
      rw [hresult]
      constructor
      . intro heq
        contradiction
      . intro hgap
        exact absurd hgap.1 hlt
    . intro hgap
      exact absurd hgap hlt
    . intro _
      exact hresult

-- The calls with the received numbers, each with the clock reading of a call that is in order.
def validateAll (s : Session) (calls : List (UInt64 × Instant)) : Session :=
  calls.foldl (fun s call => (s.validateInboundSeq call.1 call.2).2) s

def receivedNumbers (calls : List (UInt64 × Instant)) : List Nat :=
  calls.map fun call => call.1.toNat

theorem receivedNumbers_concat (calls : List (UInt64 × Instant)) (call : UInt64 × Instant)
    : receivedNumbers (calls ++ [call]) = receivedNumbers calls ++ [call.1.toNat] := by
  rw [receivedNumbers, List.map_append]
  rfl

theorem validateAll_concat (s : Session) (calls : List (UInt64 × Instant))
    (call : UInt64 × Instant)
    : s.validateAll (calls ++ [call]) = ((s.validateAll calls).validateInboundSeq call.1 call.2).2 := by
  rw [validateAll, List.foldl_append]
  rfl

-- The counter follows the greedy reader of 1, 2, 3, … as long as it does not wrap.
theorem inboundSeqNum_validateAll (config : SessionConfig) (start : Instant)
    {calls : List (UInt64 × Instant)}
    (h : reached (fun i => 1 + i) (receivedNumbers calls) < 2 ^ 64 - 1)
    : ((new config start).validateAll calls).inboundSeqNum.toNat
        = 1 + reached (fun i => 1 + i) (receivedNumbers calls) := by
  induction calls using List.reverseRecOn with
  | nil => rfl
  | append_singleton calls call ih =>
    rw [receivedNumbers_concat] at h ⊢
    have hle := @reached_le_append Nat (fun i => 1 + i) _ (receivedNumbers calls) [call.1.toNat]
    have hbefore := ih (by omega)
    rw [validateAll_concat, inboundSeqNum_validateInboundSeq]
    rw [reached_concat] at h ⊢
    generalize reached (fun i => 1 + i) (receivedNumbers calls) = k at *
    generalize ((new config start).validateAll calls).inboundSeqNum = expected at *
    by_cases heq : call.1 = expected
    . rw [heq, hbefore, advance_self] at h ⊢
      rw [if_pos rfl, UInt64.toNat_add, hbefore]
      change (1 + k + 1) % 2 ^ 64 = 1 + (k + 1)
      omega
    . have hne : call.1.toNat ≠ 1 + k := by
        rw [← hbefore, ne_eq, UInt64.toNat_inj]
        exact heq
      rw [if_neg heq, advance_of_ne hne, hbefore]

theorem inbound_tracking (config : SessionConfig) (start : Instant)
    (calls : List (UInt64 × Instant))
    (hnowrap : ¬ (List.range' 1 (2 ^ 64 - 1)).Sublist (receivedNumbers calls))
    : (∃ k, IsGreatest {k | (List.range' 1 k).Sublist (receivedNumbers calls)} k
          ∧ ((new config start).validateAll calls).expectedInboundSeqNum.toNat = k + 1)
        ∧ ∀ before receivedSeq now after, calls = before ++ (receivedSeq, now) :: after →
          ((new config start).validateAll before).ReportsGaps receivedSeq now := by
  have hinitial (k : Nat) : List.range' 1 k = initial (fun i => 1 + i) k :=
    List.range'_eq_map_range
  simp only [hinitial] at hnowrap ⊢
  constructor
  . refine ⟨_, isGreatest_reached _, ?_⟩
    rw [expectedInboundSeqNum, inboundSeqNum_validateAll config start
      (reached_lt_of_not_sublist hnowrap), Nat.add_comm]
  . intro before receivedSeq now _ _
    exact reportsGaps _ receivedSeq now

-- Number 3 comes too early, and number 1 twice.
theorem inbound_tracking_gap
    : ¬ (List.range' 1 (2 ^ 64 - 1)).Sublist
          (receivedNumbers [(1, 5), (3, 6), (1, 7), (2, 8), (3, 9)])
        ∧ (∃ k, IsGreatest {k | (List.range' 1 k).Sublist
              (receivedNumbers [(1, 5), (3, 6), (1, 7), (2, 8), (3, 9)])} k
            ∧ ((new .default 0).validateAll
              [(1, 5), (3, 6), (1, 7), (2, 8), (3, 9)]).expectedInboundSeqNum.toNat = k + 1)
        ∧ ∀ before receivedSeq now after,
          ([(1, 5), (3, 6), (1, 7), (2, 8), (3, 9)] : List (UInt64 × Instant))
            = before ++ (receivedSeq, now) :: after →
          ((new .default 0).validateAll before).ReportsGaps receivedSeq now := by
  have hnowrap : ¬ (List.range' 1 (2 ^ 64 - 1)).Sublist
      (receivedNumbers [(1, 5), (3, 6), (1, 7), (2, 8), (3, 9)]) := by
    intro h
    have hlen := h.length_le
    rw [List.length_range'] at hlen
    contradiction
  exact ⟨hnowrap, inbound_tracking .default 0 _ hnowrap⟩

end Session

end Velocitas
