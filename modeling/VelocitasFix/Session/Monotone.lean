import VelocitasFix.Data.Machine
import VelocitasFix.Session.Sequencing

/-!
This module contains when the expected inbound number never moves backwards, whatever is done with a
session short of a reset of its numbers.
-/

namespace Velocitas

namespace Session

-- The operations that change a session, without `reset_sequences`.
inductive Call where
  | nextOutboundSeqNum
  | onConnected (receivedNow sentNow : Instant)
  | onLogon (now : Instant)
  | validateInboundSeq (receivedSeq : UInt64) (now : Instant)
  | onGapFilled (newSeq : UInt64)
  | onLogoutSent
  | onDisconnected
  | checkHeartbeat (now : Instant)
  | onMessageSent (now : Instant)
  | onMessageReceived (now : Instant)
  | onReconnectAttempt
  | checkRateLimit (now : Instant)
  deriving DecidableEq, Repr

namespace Call

def apply (s : Session) : Call → Session
  | .nextOutboundSeqNum => s.nextOutboundSeqNum.2
  | .onConnected receivedNow sentNow => s.onConnected receivedNow sentNow
  | .onLogon now => s.onLogon now
  | .validateInboundSeq receivedSeq now => (s.validateInboundSeq receivedSeq now).2
  | .onGapFilled newSeq => s.onGapFilled newSeq
  | .onLogoutSent => s.onLogoutSent
  | .onDisconnected => s.onDisconnected
  | .checkHeartbeat now => (s.checkHeartbeat now).2
  | .onMessageSent now => s.onMessageSent now
  | .onMessageReceived now => s.onMessageReceived now
  | .onReconnectAttempt => s.onReconnectAttempt
  | .checkRateLimit now => (s.checkRateLimit now).2

-- A gap is filled up to no number before the expected one, and the last number of the type does not
-- come in order.
def Advances (s : Session) : Call → Prop
  | .onGapFilled newSeq => s.inboundSeqNum ≤ newSeq
  | .validateInboundSeq receivedSeq _ =>
    ¬ (receivedSeq = s.inboundSeqNum ∧ receivedSeq = 0xFFFFFFFFFFFFFFFF)
  | _ => True

end Call

def run (s : Session) (calls : List Call) : Session := calls.foldl Call.apply s

theorem inboundSeqNum_checkRateLimit (s : Session) (now : Instant)
    : (s.checkRateLimit now).2.inboundSeqNum = s.inboundSeqNum := by
  unfold checkRateLimit
  dsimp only
  split
  all_goals rfl

theorem le_add_one_iff (n : UInt64) : n ≤ n + 1 ↔ n ≠ 0xFFFFFFFFFFFFFFFF := by
  have hlt := n.toNat_lt
  rw [UInt64.le_iff_toNat_le, ne_eq, ← UInt64.toNat_inj, UInt64.toNat_add]
  change n.toNat ≤ (n.toNat + 1) % 2 ^ 64 ↔ ¬ n.toNat = 18446744073709551615
  omega

theorem validateInboundSeq_mono_iff (s : Session) (receivedSeq : UInt64) (now : Instant)
    : s.inboundSeqNum ≤ (s.validateInboundSeq receivedSeq now).2.inboundSeqNum
        ↔ ¬ (receivedSeq = s.inboundSeqNum ∧ receivedSeq = 0xFFFFFFFFFFFFFFFF) := by
  rw [inboundSeqNum_validateInboundSeq]
  split
  . next heq =>
    rw [le_add_one_iff, heq, eq_self_iff_true, true_and]
  . next hne =>
    constructor
    . intro _ hboth
      exact hne hboth.1
    . intro _
      exact UInt64.le_refl _

-- One case for each operation: all but two of them leave the expected number as it is.
theorem apply_mono_iff (s : Session) (call : Call)
    : s.inboundSeqNum ≤ (call.apply s).inboundSeqNum ↔ call.Advances s := by
  have kept {s' : Session} (h : s'.inboundSeqNum = s.inboundSeqNum)
      : s.inboundSeqNum ≤ s'.inboundSeqNum ↔ True := by
    rw [h, iff_true]
    exact UInt64.le_refl _
  cases call with
  | nextOutboundSeqNum => exact kept rfl
  | onConnected receivedNow sentNow => exact kept (s.onConnected_fields receivedNow sentNow).2.2
  | onLogon now => exact kept rfl
  | validateInboundSeq receivedSeq now => exact s.validateInboundSeq_mono_iff receivedSeq now
  | onGapFilled newSeq => exact Iff.rfl
  | onLogoutSent => exact kept rfl
  | onDisconnected => exact kept rfl
  | checkHeartbeat now => exact kept (s.checkHeartbeat_fields now).2.2.2
  | onMessageSent now => exact kept rfl
  | onMessageReceived now => exact kept rfl
  | onReconnectAttempt => exact kept rfl
  | checkRateLimit now => exact kept (s.inboundSeqNum_checkRateLimit now)

theorem run_mono_iff (s : Session) (calls : List Call)
    : (∀ pre later, pre <+: later → later <+: calls →
          (s.run pre).expectedInboundSeqNum ≤ (s.run later).expectedInboundSeqNum)
        ↔ ∀ pre call, pre ++ [call] <+: calls → call.Advances (s.run pre) := by
  simp only [run, expectedInboundSeqNum, ← apply_mono_iff, UInt64.le_iff_toNat_le]
  exact Machine.measure_mono_iff fun s : Session => s.inboundSeqNum.toNat

theorem lt_of_consumed {s : Session} {calls : List Call}
    (h : ∀ pre call, pre ++ [call] <+: calls → call.Advances (s.run pre))
    {pre later : List Call} {receivedSeq : UInt64} {now : Instant}
    (hcall : pre ++ [.validateInboundSeq receivedSeq now] <+: later) (hlater : later <+: calls)
    (hconsumed : receivedSeq = (s.run pre).expectedInboundSeqNum)
    : receivedSeq < (s.run later).expectedInboundSeqNum := by
  have hadvances := h pre _ (hcall.trans hlater)
  have hnext : (s.run (pre ++ [.validateInboundSeq receivedSeq now])).inboundSeqNum
      = receivedSeq + 1 := by
    rw [run, List.foldl_append]
    change ((s.run pre).validateInboundSeq receivedSeq now).2.inboundSeqNum = _
    have heq : receivedSeq = (s.run pre).inboundSeqNum := hconsumed
    rw [inboundSeqNum_validateInboundSeq, if_pos heq, ← heq]
  have hmono := (run_mono_iff s calls).mpr h _ later hcall hlater
  rw [expectedInboundSeqNum, hnext] at hmono
  have hle : receivedSeq ≤ receivedSeq + 1 := by
    rw [le_add_one_iff]
    intro hlast
    exact hadvances ⟨hconsumed, hlast⟩
  have hlt : receivedSeq < receivedSeq + 1 := UInt64.lt_of_le_of_ne hle (add_one_ne receivedSeq).symm
  exact UInt64.lt_of_lt_of_le hlt hmono

theorem expected_mono_iff (s : Session) (calls : List Call)
    : ((∀ pre later, pre <+: later → later <+: calls →
            (s.run pre).expectedInboundSeqNum ≤ (s.run later).expectedInboundSeqNum)
          ↔ ∀ pre call, pre ++ [call] <+: calls → call.Advances (s.run pre))
        ∧ ((∀ pre call, pre ++ [call] <+: calls → call.Advances (s.run pre)) →
          ∀ pre later receivedSeq now,
            pre ++ [.validateInboundSeq receivedSeq now] <+: later → later <+: calls →
            receivedSeq = (s.run pre).expectedInboundSeqNum →
            (s.run later).expectedInboundSeqNum ≠ receivedSeq) := by
  refine ⟨run_mono_iff s calls, ?_⟩
  intro h pre later receivedSeq now hcall hlater hconsumed
  exact (UInt64.ne_of_lt (lt_of_consumed h hcall hlater hconsumed)).symm

-- Two numbers are consumed, and the gap fill makes the session expect the first one again.
theorem not_expected_mono
    : ¬ ∀ (config : SessionConfig) (start : Instant) (calls pre later : List Call),
        pre <+: later → later <+: calls →
        ((new config start).run pre).expectedInboundSeqNum
          ≤ ((new config start).run later).expectedInboundSeqNum := by
  intro h
  have hle := h .default 0
    [.validateInboundSeq 1 5, .validateInboundSeq 2 6, .onGapFilled 1]
    [.validateInboundSeq 1 5, .validateInboundSeq 2 6]
    [.validateInboundSeq 1 5, .validateInboundSeq 2 6, .onGapFilled 1]
    (List.prefix_append _ [Call.onGapFilled 1]) (List.prefix_refl _)
  revert hle
  decide

end Session

end Velocitas
