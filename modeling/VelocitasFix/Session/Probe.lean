import VelocitasFix.Session.Lemmas

/-!
This module contains how long a session waits for the answer to a TestRequest: the time of the request
is recorded, but the timer does not look at it, so it is the next tick without a due heartbeat that
gives up.
-/

namespace Velocitas

namespace Session

-- What happens to a session while nothing is received.
inductive TimerCall where
  | checkHeartbeat (now : Instant)
  | onMessageSent (now : Instant)
  deriving DecidableEq, Repr

namespace TimerCall

def apply (s : Session) : TimerCall → Session
  | .checkHeartbeat now => (s.checkHeartbeat now).2
  | .onMessageSent now => s.onMessageSent now

def tick? : TimerCall → Option Instant
  | .checkHeartbeat now => some now
  | .onMessageSent _ => none

end TimerCall

def runTimer (s : Session) (calls : List TimerCall) : Session := calls.foldl TimerCall.apply s

def ticks (calls : List TimerCall) : List Instant := calls.filterMap TimerCall.tick?

theorem runTimer_append (s : Session) (calls calls' : List TimerCall)
    : s.runTimer (calls ++ calls') = (s.runTimer calls).runTimer calls' :=
  List.foldl_append

-- The tick returns the `Send` of a TestRequest: it sets the flag.
def Asks (s : Session) (now : Instant) : Prop :=
  (∃ data, (s.checkHeartbeat now).1 = .send data) ∧ s.testRequestPending = false
    ∧ (s.checkHeartbeat now).2.testRequestPending = true

-- The session has asked at or before `asked` and waits for anything to be received.
structure Probing (s : Session) (asked : Instant) : Prop where
  active : s.state = .active
  pending : s.testRequestPending = true
  silent : s.Silent asked

theorem Asks.probing {s : Session} {now : Instant} (h : s.Asks now)
    : ((s.checkHeartbeat now).2).Probing now := by
  have htick := s.tick_checkHeartbeat now
  unfold Asks at h
  generalize s.checkHeartbeat now = result at htick h ⊢
  obtain ⟨_, hbefore, hafter⟩ := h
  cases htick with
  | testRequest hstate _ hsilent _ => exact ⟨hstate, rfl, hsilent⟩
  | inactive _ | disconnect _ _ _ _ | quiet _ _ _ =>
    rw [hbefore] at hafter
    contradiction
  | heartbeat _ _ =>
    dsimp only at hafter
    rw [hbefore] at hafter
    contradiction

theorem Probing.apply {s : Session} {asked : Instant} (h : s.Probing asked) (call : TimerCall)
    : (call.apply s).Probing asked := by
  cases call with
  | onMessageSent now => exact ⟨h.active, h.pending, h.silent⟩
  | checkHeartbeat now =>
    have htick := s.tick_checkHeartbeat now
    change ((s.checkHeartbeat now).2).Probing asked
    generalize s.checkHeartbeat now = result at htick ⊢
    cases htick with
    | inactive _ => exact h
    | heartbeat _ _ => exact ⟨h.active, h.pending, h.silent⟩
    | disconnect _ _ _ _ => exact h
    | testRequest _ _ _ _ => exact ⟨h.active, rfl, h.silent⟩
    | quiet _ _ _ => exact h

theorem Probing.runTimer {s : Session} {asked : Instant} (h : s.Probing asked)
    (calls : List TimerCall)
    : (s.runTimer calls).Probing asked := by
  induction calls generalizing s with
  | nil => exact h
  | cons call calls ih => exact ih (h.apply call)

-- A probing session gives up at the first tick on which no heartbeat is due.
theorem Probing.disconnect_iff {s : Session} {asked now : Instant} (h : s.Probing asked)
    (hle : asked ≤ now)
    : (s.checkHeartbeat now).1 = .disconnect ↔ ¬ s.HeartbeatDue now := by
  have hsilent : s.Silent now := by
    apply Nat.le_trans h.silent
    exact Nat.sub_le_sub_right hle s.lastReceivedTime
  have htick := s.tick_checkHeartbeat now
  generalize s.checkHeartbeat now = result at htick ⊢
  cases htick with
  | inactive hstate => exact absurd h.active hstate
  | heartbeat _ hdue => exact iff_of_false (by simp) (not_not.mpr hdue)
  | disconnect _ hdue _ _ => exact iff_of_true rfl hdue
  | testRequest _ _ _ hpending =>
    rw [h.pending] at hpending
    contradiction
  | quiet _ _ hnot => exact absurd hsilent hnot

theorem ticks_append (calls calls' : List TimerCall)
    : ticks (calls ++ calls') = ticks calls ++ ticks calls' := List.filterMap_append

theorem le_of_ticks {before between after : List TimerCall} {asked now : Instant}
    (h : (ticks (before ++ .checkHeartbeat asked
      :: (between ++ .checkHeartbeat now :: after))).Pairwise (· ≤ ·))
    : asked ≤ now := by
  rw [ticks_append, List.pairwise_append] at h
  have hasked := (List.pairwise_cons.mp h.2.1).1
  apply hasked
  rw [← ticks, ticks_append, List.mem_append]
  exact .inr List.mem_cons_self

theorem test_request_grace_iff (s : Session) (calls : List TimerCall)
    (hsorted : (ticks calls).Pairwise (· ≤ ·))
    : (∀ before asked between now after,
          calls = before ++ .checkHeartbeat asked :: (between ++ .checkHeartbeat now :: after) →
          (s.runTimer before).Asks asked →
          ((s.runTimer (before ++ .checkHeartbeat asked :: between)).checkHeartbeat now).1
            = .disconnect →
          s.config.heartbeatInterval ≤ now.durationSince asked)
        ↔
      ∀ before asked between now after,
        calls = before ++ .checkHeartbeat asked :: (between ++ .checkHeartbeat now :: after) →
        (s.runTimer before).Asks asked →
        now.durationSince asked < s.config.heartbeatInterval →
        (s.runTimer (before ++ .checkHeartbeat asked :: between)).HeartbeatDue now := by
  have hgives {before between after : List TimerCall} {asked now : Instant}
      (hcalls : calls = before ++ .checkHeartbeat asked
        :: (between ++ .checkHeartbeat now :: after))
      (hasks : (s.runTimer before).Asks asked)
      : ((s.runTimer (before ++ .checkHeartbeat asked :: between)).checkHeartbeat now).1
            = .disconnect
          ↔ ¬ (s.runTimer (before ++ .checkHeartbeat asked :: between)).HeartbeatDue now := by
    have hprobing : (s.runTimer (before ++ .checkHeartbeat asked :: between)).Probing asked := by
      rw [runTimer_append]
      exact hasks.probing.runTimer between
    rw [hcalls] at hsorted
    exact hprobing.disconnect_iff (le_of_ticks hsorted)
  constructor
  . intro h before asked between now after hcalls hasks hearly
    by_contra hdue
    have hlate := h before asked between now after hcalls hasks ((hgives hcalls hasks).mpr hdue)
    exact absurd hlate (Nat.not_le.mpr hearly)
  . intro h before asked between now after hcalls hasks hdisconnect
    by_contra hlate
    have hdue := h before asked between now after hcalls hasks (Nat.lt_of_not_le hlate)
    exact (hgives hcalls hasks).mp hdisconnect hdue

-- A message of the application keeps the heartbeats away: the timer asks after 35 seconds.
def probed : List TimerCall :=
  [.onMessageSent (Duration.fromSecs 10), .checkHeartbeat (Duration.fromSecs 35),
    .checkHeartbeat (Duration.fromSecs 36)]

theorem test_request_grace_iff_probed
    : (ticks probed).Pairwise (· ≤ ·)
        ∧ ((∀ before asked between now after,
              probed = before ++ .checkHeartbeat asked :: (between ++ .checkHeartbeat now :: after) →
              (((new .default 0).onLogon 0).runTimer before).Asks asked →
              ((((new .default 0).onLogon 0).runTimer
                (before ++ .checkHeartbeat asked :: between)).checkHeartbeat now).1 = .disconnect →
              ((new .default 0).onLogon 0).config.heartbeatInterval ≤ now.durationSince asked)
            ↔
          ∀ before asked between now after,
            probed = before ++ .checkHeartbeat asked :: (between ++ .checkHeartbeat now :: after) →
            (((new .default 0).onLogon 0).runTimer before).Asks asked →
            now.durationSince asked < ((new .default 0).onLogon 0).config.heartbeatInterval →
            (((new .default 0).onLogon 0).runTimer
              (before ++ .checkHeartbeat asked :: between)).HeartbeatDue now) := by
  have hsorted : (ticks probed).Pairwise (· ≤ ·) := by decide
  exact ⟨hsorted, test_request_grace_iff ((new .default 0).onLogon 0) probed hsorted⟩

-- One second after the TestRequest the session gives up.
theorem not_test_request_grace
    : ¬ ∀ (s : Session) (calls : List TimerCall), s.state = .active →
        (ticks calls).Pairwise (· ≤ ·) →
        ∀ before asked between now after,
          calls = before ++ .checkHeartbeat asked :: (between ++ .checkHeartbeat now :: after) →
          (s.runTimer before).Asks asked →
          ((s.runTimer (before ++ .checkHeartbeat asked :: between)).checkHeartbeat now).1
            = .disconnect →
          s.config.heartbeatInterval ≤ now.durationSince asked := by
  intro h
  have hlate := h ((new .default 0).onLogon 0) probed rfl (by decide)
    [.onMessageSent (Duration.fromSecs 10)] (Duration.fromSecs 35) [] (Duration.fromSecs 36) [] rfl
    ⟨⟨[], by decide⟩, by decide, by decide⟩ (by decide)
  revert hlate
  decide

end Session

end Velocitas
