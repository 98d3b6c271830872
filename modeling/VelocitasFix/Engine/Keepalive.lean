import VelocitasFix.Engine.Inbound
import VelocitasFix.Engine.Numbering
import VelocitasFix.Engine.Voice

/-!
This module contains how the timer of an engine keeps a connection alive and gives it up: an
established session is never silent for a heartbeat interval, and a peer that is silent for longer
than that and the grace period is dropped within three polls.
-/

namespace Velocitas

variable {T A : Type}

section

variable [Transport T] (app : FixApp A) (a : A) (transport : T) (session : Session) (clock : Clock)
  (entry : Entry)

theorem never_silent (hclock : Monotone clock.instants) (hsession : session.lastSentTime ≤ clock.now)
    {n m : Nat} (hle : n ≤ m)
    (hpoll : (runOf app a transport session clock entry m).phase = .poll)
    (hactive : (runOf app a transport session clock entry m).engine.ctx.session.state = .active)
    (hlong : (runOf app a transport session clock entry n).engine.ctx.clock.now
        + session.config.heartbeatInterval
      ≤ (runOf app a transport session clock entry m).engine.ctx.clock.now)
    (hrunning : (runOf app a transport session clock entry (m + 1)).Running)
    : (runOf app a transport session clock entry n).engine.ctx.sentCount
        < (runOf app a transport session clock entry (m + 1)).engine.ctx.sentCount := by
  have hconfig := (run_fields app a transport session clock entry m).2.2
  rw [runOf_succ] at hrunning ⊢
  obtain ⟨hstep, hbefore⟩ := RunState.voices_step app hrunning
  obtain ⟨hrun, hlater⟩ := voices_run app a transport session clock entry hle hbefore
  have hpast := hrun.lastSentTime_le hclock hsession
  rcases hlater.last with hsame | ⟨hmore, -⟩
  . apply Nat.lt_of_le_of_lt hlater.count
    generalize runOf app a transport session clock entry m = s at *
    rcases s with ⟨e, a, phase⟩
    change phase = .poll at hpoll
    rw [hpoll] at hrunning ⊢
    apply RunState.sends_of_heartbeatDue hrunning hactive
    unfold Session.HeartbeatDue Instant.durationSince
    change e.ctx.session.lastSentTime = _ at hsame
    change e.ctx.session.config = _ at hconfig
    change _ ≤ e.ctx.clock.now at hlong
    rw [hconfig, hsame]
    apply Nat.le_sub_of_add_le
    apply Nat.le_trans _ hlong
    rw [Nat.add_comm]
    exact Nat.add_le_add_right hpast _
  . exact Nat.lt_of_lt_of_le hmore hstep.count

end

-- A session that was logged on at 0 s, and a clock that shows the times 0 s, 30 s, 60 s, ...
def established : Session := (Session.new acceptorConfig 0).onLogon 0

def slowClock : Clock where
  instants := fun k => k * Duration.fromSecs 30
  wall := fun _ => 0
  reads := 0

theorem monotone_slowClock : Monotone slowClock.instants := fun _ _ h => Nat.mul_le_mul_right _ h

-- A heartbeat goes out, and nothing comes in.
theorem running_of_due {e : FixEngine Script} {inbox : List Bytes} (hstop : e.shouldStop = false)
    (hconfig : e.ctx.session.config = acceptorConfig) (hlen : e.sendBuf.length = 4096)
    (htransport : e.ctx.transport = ⟨[] :: inbox⟩)
    (hcheck : (e.ctx.session.checkHeartbeat e.ctx.clock.now).1 = .send [])
    : (RunState.poll e ()).Running := by
  let e1 := (RunState.timer e).2
  have htimer : RunState.timer e = (.send [], e1) := Prod.ext hcheck rfl
  have hsend : e.ctx.session.checkHeartbeat e.ctx.clock.now = (.send [], e1.ctx.session) :=
    Prod.ext hcheck rfl
  obtain ⟨hactive, hconfig1, -⟩ := e.ctx.session.of_checkHeartbeat_send hsend
  obtain ⟨e2, hbuilt, hsends, -, -, htransport2, -⟩ :=
    @exists_sendBuilt_script e1 FixEngine.heartbeatMessage (by simp [Preserved.allKinds])
      (hconfig1.trans hconfig) hlen
  have hsent : e1.sendHeartbeat = .next (e2.atInstant .onMessageSent) := by
    unfold FixEngine.sendHeartbeat
    rw [hbuilt]
    rfl
  have hrecv : Transport.recv (e2.atInstant .onMessageSent).ctx.transport 8192
      = (.ok [], Script.mk inbox) := by
    change Transport.recv e2.ctx.transport 8192 = _
    rw [htransport2]
    change Transport.recv e.ctx.transport 8192 = _
    rw [htransport]
    rfl
  unfold RunState.poll
  rw [if_neg (by simp [hstop]), htimer]
  dsimp only
  rw [if_pos hactive, hsent]
  dsimp only
  unfold RunState.receive
  rw [hrecv]
  exact .inr ⟨rfl, hsends.shouldStop.trans hstop⟩

theorem running_established
    : (runOf silentApp () (Script.mk [[], []]) established slowClock .runAcceptor 2).Running := by
  have hfields := run_fields silentApp () (Script.mk [[], []]) established slowClock .runAcceptor 1
  change (RunState.poll (runOf silentApp () (Script.mk [[], []]) established slowClock .runAcceptor
    1).engine ()).Running
  exact running_of_due rfl hfields.2.2 hfields.2.1 rfl rfl

theorem never_silent_established
    : (runOf silentApp () (Script.mk [[], []]) established slowClock
          .runAcceptor 0).engine.ctx.sentCount
        < (runOf silentApp () (Script.mk [[], []]) established slowClock
          .runAcceptor 2).engine.ctx.sentCount :=
  never_silent silentApp () (Script.mk [[], []]) established slowClock .runAcceptor
    monotone_slowClock (Nat.le_refl 0) (Nat.zero_le 1) rfl rfl (by decide) running_established

namespace RunState

variable [Transport T]

-- Nothing was received for so long that the timer of an established session asks for the peer.
structure Deaf (e : FixEngine T) : Prop where
  active : e.ctx.session.state = .active
  silent : e.ctx.session.Silent e.ctx.clock.now

-- The clock goes on, and less than a heartbeat interval passes from one reading to the next.
structure Prompt (interval : Duration) (instants : Nat → Instant) : Prop where
  mono : Monotone instants
  lt : ∀ k, instants (k + 1) < instants k + interval

-- What the timer has noted when the engine goes on without having received anything.
structure Asked (e e' : FixEngine T) : Prop where
  deaf : Deaf e'
  config : e'.ctx.session.config = e.ctx.session.config
  instants : e'.ctx.clock.instants = e.ctx.clock.instants
  notDue : ¬ e'.ctx.session.HeartbeatDue e'.ctx.clock.now
  asks : ¬ e.ctx.session.HeartbeatDue e.ctx.clock.now →
    e.ctx.session.testRequestPending = false ∧ e'.ctx.session.testRequestPending = true

-- The result of a poll in which the timer asked for a message, and nothing was received after it.
theorem asked_of_send {e e1 e2 e3 : FixEngine T} {data : Bytes}
    (htimer : timer e = (.send data, e1)) (hsent : e1.sendHeartbeat = .next e2)
    (hsession : e3.ctx.session = e2.ctx.session) (hclock : e3.ctx.clock = e2.ctx.clock)
    (hdeaf : Deaf e)
    (hprompt : Prompt e.ctx.session.config.heartbeatInterval e.ctx.clock.instants)
    : Asked e e3 := by
  obtain ⟨hcheck, hclock1, -⟩ := timer_clock htimer
  obtain ⟨hactive, hconfig, hreceived, hasks⟩ := e.ctx.session.of_checkHeartbeat_send hcheck
  have hspoke := FixEngine.spoke_sendHeartbeat hsent
  have hinstants : e3.ctx.clock.instants = e.ctx.clock.instants := by
    rw [hclock, hspoke.instants, hclock1]
    rfl
  have hnow : e3.ctx.clock.now = e.ctx.clock.instants (e.ctx.clock.reads + 3) := by
    unfold Clock.now
    rw [hinstants, hclock, hspoke.reads, hclock1]
    rfl
  have hafter : e3.ctx.session = e1.ctx.session.nextOutboundSeqNum.2.onMessageSent
      (e.ctx.clock.instants (e.ctx.clock.reads + 2)) := by
    rw [hsession, FixEngine.session_of_sendHeartbeat hsent, hclock1]
    rfl
  have hconfig3 : e3.ctx.session.config = e.ctx.session.config := by
    rw [hafter]
    exact hconfig
  refine ⟨⟨?_, ?_⟩, hconfig3, hinstants, ?_, ?_⟩
  . rw [hafter]
    exact hactive
  . unfold Session.Silent
    rw [hconfig3, hnow, hafter]
    change _ ≤ _ - e1.ctx.session.lastReceivedTime
    rw [hreceived]
    apply Nat.le_trans hdeaf.silent
    exact Nat.sub_le_sub_right (hprompt.mono (Nat.le_add_right _ 3)) _
  . unfold Session.HeartbeatDue
    rw [hconfig3, hnow, hafter, Nat.not_le]
    apply Nat.sub_lt_left_of_lt_add (hprompt.mono (Nat.le_succ _))
    exact hprompt.lt _
  . intro hnot
    rw [hafter]
    exact hasks hnot

theorem asked_poll {e : FixEngine T} {a : A} (h : (poll e a).Running)
    (hnothing : received (poll e a).engine.ctx.log = received e.ctx.log) (hdeaf : Deaf e)
    (hprompt : Prompt e.ctx.session.config.heartbeatInterval e.ctx.clock.instants)
    : (poll e a).phase = .poll ∧ Asked e (poll e a).engine := by
  rcases poll_of_running h with ⟨e1, htimer, -⟩ | ⟨data, e1, e2, htimer, hsent, hpoll⟩
  . obtain ⟨hcheck, -, -⟩ := timer_clock htimer
    have haction := congrArg Prod.fst hcheck
    have htick := e.ctx.session.tick_checkHeartbeat e.ctx.clock.now
    generalize e.ctx.session.checkHeartbeat e.ctx.clock.now = result at haction htick
    cases htick with
    | inactive hstate => exact absurd hdeaf.active hstate
    | heartbeat _ _ => contradiction
    | disconnect _ _ _ _ => contradiction
    | testRequest _ _ _ _ => contradiction
    | quiet _ _ hnot => exact absurd hdeaf.silent hnot
  . rw [hpoll] at h hnothing ⊢
    have hsame : received e2.ctx.log = received e.ctx.log := by
      have hsends := e1.sendHeartbeat_sends
      rw [hsent] at hsends
      rw [← (timer_clock htimer).2.2]
      exact FixEngine.received_of_sends hsends
    rcases receive_cases e2 a with hnot | ⟨hsession, hclock, -, hphase | hreceived⟩
    . exact absurd h hnot
    . exact ⟨hphase, asked_of_send htimer hsent hsession hclock hdeaf hprompt⟩
    . rw [← hsame] at hnothing
      exact absurd hnothing hreceived

-- The stream of what was received only grows.
theorem received_step (app : FixApp A) {s : RunState T A} (hparser : s.engine.parser = .new)
    : received s.engine.ctx.log <+: received (step app s).engine.ctx.log := by
  rcases step_cases app hparser with ⟨evs, hidle⟩ | ⟨frame, evs, htook⟩
  . rw [hidle.log, received_append]
    exact List.prefix_append _ _
  . have hsame := htook.taken_received.2
    exact hsame ▸ List.prefix_rfl

-- A silent step of a run that goes on: the session has asked, or it was asking already.
theorem asked_step (app : FixApp A) {s : RunState T A} (h : (step app s).Running)
    (hpoll : s.phase = .poll)
    (hnothing : received (step app s).engine.ctx.log = received s.engine.ctx.log)
    (hdeaf : Deaf s.engine)
    (hprompt : Prompt s.engine.ctx.session.config.heartbeatInterval s.engine.ctx.clock.instants)
    : (step app s).phase = .poll ∧ Asked s.engine (step app s).engine := by
  rcases s with ⟨e, a, phase⟩
  change phase = .poll at hpoll
  rw [hpoll] at h hnothing ⊢
  exact asked_poll h hnothing hdeaf hprompt

-- The first poll may send a heartbeat, the second one asks, and the third one gives up.
theorem Deaf.not_running (app : FixApp A) {s : RunState T A} (hparser : s.engine.parser = .new)
    (hpoll : s.phase = .poll) (hdeaf : Deaf s.engine)
    (hprompt : Prompt s.engine.ctx.session.config.heartbeatInterval s.engine.ctx.clock.instants)
    (hnothing : received (runFor app 3 s).engine.ctx.log = received s.engine.ctx.log)
    : ¬ (runFor app 3 s).Running := by
  let s1 := step app s
  let s2 := step app s1
  change received (step app s2).engine.ctx.log = _ at hnothing
  change ¬ (step app s2).Running
  intro h3
  have h2 : s2.Running := (voices_step app h3).2
  have h1 : s1.Running := (voices_step app h2).2
  have hparser1 := (step_fields app hparser).1.trans hparser
  have hparser2 := (step_fields app hparser1).1.trans hparser1
  have hgrows1 := received_step app hparser
  have hgrows2 := received_step app hparser1
  have hgrows3 := received_step app hparser2
  -- Nothing was received in between.
  have hback1 : received s1.engine.ctx.log <+: received s.engine.ctx.log := by
    rw [← hnothing]
    exact hgrows2.trans hgrows3
  have hsame1 := hgrows1.eq_of_length_le hback1.length_le
  have hback2 : received s2.engine.ctx.log <+: received s1.engine.ctx.log := by
    rw [← hsame1, ← hnothing]
    exact hgrows3
  have hsame2 := hgrows2.eq_of_length_le hback2.length_le
  have hsame3 := hnothing.trans (hsame1.trans hsame2)
  obtain ⟨hpoll1, hasked1⟩ := asked_step app h1 hpoll hsame1.symm hdeaf hprompt
  have hprompt1 : Prompt s1.engine.ctx.session.config.heartbeatInterval
      s1.engine.ctx.clock.instants := by
    rw [hasked1.config, hasked1.instants]
    exact hprompt
  obtain ⟨hpoll2, hasked2⟩ := asked_step app h2 hpoll1 hsame2.symm hasked1.deaf hprompt1
  have hprompt2 : Prompt s2.engine.ctx.session.config.heartbeatInterval
      s2.engine.ctx.clock.instants := by
    rw [hasked2.config, hasked2.instants]
    exact hprompt1
  obtain ⟨-, hasked3⟩ := asked_step app h3 hpoll2 hsame3 hasked2.deaf hprompt2
  have hpending := (hasked3.asks hasked2.notDue).1
  rw [(hasked2.asks hasked1.notDue).2] at hpending
  contradiction

end RunState

-- The session was logged on at 0 s and has asked, and the clock shows 35 s, 36 s, ...
def asking : Session :=
  { established with lastSentTime := Duration.fromSecs 34, testRequestPending := true }

def lateClock : Clock where
  instants := fun k => Duration.fromSecs (35 + k)
  wall := fun _ => 0
  reads := 0

theorem prompt_lateClock : RunState.Prompt asking.config.heartbeatInterval lateClock.instants where
  mono := by
    intro k k' h
    exact Nat.mul_le_mul_right _ (Nat.add_le_add_left h 35)
  lt := by
    intro k
    change (35 + (k + 1)) * 1000000000 < (35 + k) * 1000000000 + 30 * 1000000000
    omega

end Velocitas
