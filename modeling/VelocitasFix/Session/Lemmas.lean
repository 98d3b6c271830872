import VelocitasFix.Session.Impl

/-!
This module contains what the operations of a session do to its state.
-/

namespace Velocitas

namespace Session

theorem add_one_ne (n : UInt64) : n + 1 ≠ n := by
  intro h
  have hlt := n.toNat_lt
  rw [← UInt64.toNat_inj, UInt64.toNat_add] at h
  change (n.toNat + 1) % 2 ^ 64 = n.toNat at h
  omega

variable (s : Session)

theorem onConnected_fields (receivedNow sentNow : Instant)
    : (s.onConnected receivedNow sentNow).config = s.config
        ∧ (s.onConnected receivedNow sentNow).outboundSeqNum = s.outboundSeqNum
        ∧ (s.onConnected receivedNow sentNow).inboundSeqNum = s.inboundSeqNum := by
  unfold onConnected
  split
  all_goals exact ⟨rfl, rfl, rfl⟩

theorem state_onConnected (t1 t2 t1' t2' : Instant)
    : (s.onConnected t1 t2).state = (s.onConnected t1' t2').state := by
  unfold onConnected
  split
  all_goals rfl

theorem active_of_onConnected {receivedNow sentNow : Instant}
    (h : (s.onConnected receivedNow sentNow).state = .active)
    : s.state = .active := by
  unfold onConnected at h
  split at h
  . dsimp only at h
    split at h
    all_goals contradiction
  . dsimp only at h
    split at h
    all_goals contradiction
  . exact h

theorem active_of_validateInboundSeq {receivedSeq : UInt64} {now : Instant}
    (h : (s.validateInboundSeq receivedSeq now).2.state = .active)
    : s.state = .active := by
  unfold validateInboundSeq at h
  split at h
  . exact h
  . split at h
    . contradiction
    . exact h

theorem config_validateInboundSeq (seq : UInt64) (now : Instant)
    : (s.validateInboundSeq seq now).2.config = s.config
        ∧ (s.validateInboundSeq seq now).2.outboundSeqNum = s.outboundSeqNum := by
  unfold validateInboundSeq
  split
  . exact ⟨rfl, rfl⟩
  . split
    all_goals exact ⟨rfl, rfl⟩

-- Nothing was sent for a heartbeat interval.
def HeartbeatDue (now : Instant) : Prop :=
  s.config.heartbeatInterval ≤ now.durationSince s.lastSentTime

-- Nothing was received for a heartbeat interval and the grace period.
def Silent (now : Instant) : Prop :=
  s.config.heartbeatInterval + Duration.fromSecs 5 ≤ now.durationSince s.lastReceivedTime

-- What the timer can do.
inductive Tick (now : Instant) : SessionAction × Session → Prop where
  | inactive (hstate : s.state ≠ .active) : Tick now (.none, s)
  | heartbeat (hstate : s.state = .active) (hdue : s.HeartbeatDue now)
      : Tick now (.send [], { s with lastSentTime := now })
  | disconnect (hstate : s.state = .active) (hdue : ¬ s.HeartbeatDue now) (hsilent : s.Silent now)
      (hpending : s.testRequestPending = true) : Tick now (.disconnect, s)
  | testRequest (hstate : s.state = .active) (hdue : ¬ s.HeartbeatDue now) (hsilent : s.Silent now)
      (hpending : s.testRequestPending = false)
      : Tick now (.send [], { s with testRequestPending := true, testRequestSentTime := some now })
  | quiet (hstate : s.state = .active) (hdue : ¬ s.HeartbeatDue now) (hsilent : ¬ s.Silent now)
      : Tick now (.none, s)

theorem tick_checkHeartbeat (now : Instant) : s.Tick now (s.checkHeartbeat now) := by
  unfold checkHeartbeat
  split
  . next hstate => exact .inactive hstate
  . next hstate =>
    rw [not_not] at hstate
    dsimp only
    split
    . next hdue => exact .heartbeat hstate hdue
    . next hdue =>
      split
      . next hsilent =>
        split
        . next hpending => exact .disconnect hstate hdue hsilent hpending
        . next hpending =>
          exact .testRequest hstate hdue hsilent (Bool.eq_false_of_not_eq_true hpending)
      . next hsilent => exact .quiet hstate hdue hsilent

-- The timer only touches the times it compares and the pending TestRequest.
theorem checkHeartbeat_fields (now : Instant)
    : (s.checkHeartbeat now).2.config = s.config
        ∧ (s.checkHeartbeat now).2.state = s.state
        ∧ (s.checkHeartbeat now).2.outboundSeqNum = s.outboundSeqNum
        ∧ (s.checkHeartbeat now).2.inboundSeqNum = s.inboundSeqNum := by
  have htick := s.tick_checkHeartbeat now
  generalize s.checkHeartbeat now = result at htick ⊢
  cases htick
  all_goals exact ⟨rfl, rfl, rfl, rfl⟩

theorem checkHeartbeat_of_ne_active (now : Instant) (h : s.state ≠ .active)
    : s.checkHeartbeat now = (.none, s) := by
  unfold checkHeartbeat
  rw [if_pos h]

theorem checkHeartbeat_of_none {now : Instant} (h : (s.checkHeartbeat now).1 = .none)
    : (s.checkHeartbeat now).2 = s := by
  have htick := s.tick_checkHeartbeat now
  generalize s.checkHeartbeat now = result at htick h ⊢
  cases htick with
  | inactive _ => rfl
  | quiet _ _ _ => rfl
  | disconnect _ _ _ _ => rfl
  | heartbeat _ _ => contradiction
  | testRequest _ _ _ _ => contradiction

theorem state_checkRateLimit (now : Instant) : (s.checkRateLimit now).2.state = s.state := by
  unfold checkRateLimit
  dsimp only
  split
  all_goals rfl

end Session

end Velocitas
