import VelocitasFix.Engine.Numbering
import Mathlib.Data.List.DropRight

/-!
This module contains what an engine has sent when its timer gives up on the counterparty. The session
asks for heartbeats and for TestRequests with the same action, and the engine answers both with a
Heartbeat, so that a TestRequest goes out before the end exactly if the application has sent one.
-/

namespace Velocitas

variable {T A : Type}

-- 35=, as the receiver of the message finds it.
def wireMsgType (data : Bytes) : Option Bytes := (accepted data).bind MessageView.msgType

def Outbound.msgType : Outbound → Option Bytes
  | .built m => some m.msgType
  | .raw data => wireMsgType data

-- The events after the last frame that was taken from the stream.
def sinceTaken (log : List Event) : List Event := log.rtakeWhile fun ev => ev.frame.isNone

theorem mem_sentOf_of_sinceTaken {log : List Event} {o : Outbound}
    (h : o ∈ sentOf (sinceTaken log))
    : o ∈ sentOf log := by
  unfold sentOf at h ⊢
  rw [List.mem_filterMap] at h ⊢
  rcases h with ⟨ev, hmem, hev⟩
  exact ⟨ev, (List.rtakeWhile_suffix _ _).subset hmem, hev⟩

-- What the engine itself has sent are the session messages of its configuration.
structure Builds (config : SessionConfig) (ctx : EngineContext T) : Prop where
  config_eq : ctx.session.config = config
  built : ∀ m, .built m ∈ sentOf ctx.log →
    ∃ message ∈ Preserved.allKinds, ∃ (seq : UInt64) (clock : Clock),
      m = message config seq clock.timestamp ∧ m.bytes.length ≤ 4096

namespace Builds

variable {config : SessionConfig}

theorem quiet {ctx ctx' : EngineContext T} (h : Builds config ctx) (hquiet : ctx.Quiet ctx')
    : Builds config ctx' where
  config_eq := hquiet.config.trans h.config_eq
  built := by
    rw [hquiet.sent]
    exact h.built

theorem msgType_ne {ctx : EngineContext T} (h : Builds config ctx) {m : OutMessage}
    (hm : .built m ∈ sentOf ctx.log)
    : m.msgType ≠ MsgType.testRequest := by
  obtain ⟨message, hkind, seq, clock, rfl, -⟩ := h.built m hm
  have htype := msgType_of_mem_allKinds hkind config seq clock.timestamp
  intro heq
  rw [heq] at htype
  exact absurd htype (by decide)

theorem wireMsgType_eq {ctx : EngineContext T} (h : Builds config ctx) (hsoh : config.SohFree)
    {m : OutMessage} (hm : .built m ∈ sentOf ctx.log)
    : wireMsgType m.bytes = some m.msgType := by
  obtain ⟨message, hkind, seq, clock, rfl, hlength⟩ := h.built m hm
  obtain ⟨view, hparse, -, htype, -⟩ := (readable_of_mem_allKinds hkind hsoh hlength).parse
  rw [wireMsgType, accepted, hparse, Option.bind_some, htype]

-- A message that was handed to the transport, by the engine or by the application.
theorem sent {ctx ctx' : EngineContext T} {o : Outbound} (h : Builds config ctx)
    (hconfig : ctx'.session.config = ctx.session.config) (hlog : ctx'.log = ctx.log ++ [.sent o])
    (hbuilt : ∀ m, o = .built m → ∃ message ∈ Preserved.allKinds,
      ∃ (seq : UInt64) (clock : Clock),
        m = message config seq clock.timestamp ∧ m.bytes.length ≤ 4096)
    : Builds config ctx' where
  config_eq := hconfig.trans h.config_eq
  built := by
    intro m hm
    rw [hlog, sentOf_append, List.mem_append] at hm
    cases hm with
    | inl hm => exact h.built m hm
    | inr hm => exact hbuilt m (List.mem_singleton.mp hm).symm

variable [Transport T]

theorem sendBuilt {message : Builder} (hkind : message ∈ Preserved.allKinds) {e : FixEngine T}
    (hlen : e.sendBuf.length = 4096) (h : Builds config e.ctx)
    : Builds config (e.sendBuilt message).state.ctx := by
  have hconfig := (e.sendBuilt_sends message).1.config
  cases e.sendBuilt_log message with
  | inl hpanic =>
    obtain ⟨e', hpanic, hlog⟩ := hpanic
    rw [hpanic] at hconfig ⊢
    refine ⟨hconfig.trans h.config_eq, ?_⟩
    change ∀ m, .built m ∈ sentOf e'.ctx.log → _
    rw [hlog]
    exact h.built
  | inr hsent =>
    obtain ⟨hfits, hlog⟩ := hsent
    apply h.sent hconfig hlog
    intro m hm
    injection hm with hm
    rw [hlen, hm] at hfits
    rw [FixEngine.nextMessage, h.config_eq] at hm
    exact ⟨message, hkind, _, _, hm.symm, hfits⟩

theorem run {α : Type} (prog : AppProg α) {ctx : EngineContext T} (h : Builds config ctx)
    : Builds config (prog.run ctx).2 := by
  induction prog generalizing ctx with
  | done result => exact h
  | sendRaw data next ih =>
    apply ih (ctx.sendRaw data).1
    exact h.sent (ctx.appActs_sendRaw data).config (ctx.sendRaw_log data) nofun
  | session next ih => exact ih _ h
  | requestStop next ih => exact ih (h.quiet ⟨rfl, rfl, rfl, rfl⟩)

theorem preserved (app : FixApp A)
    : Preserved app Preserved.allKinds (Builds config : EngineContext T → Prop) where
  quiet := fun hquiet h => h.quiet hquiet
  built := fun _ hkind _ hlen h => h.sendBuilt hkind hlen
  onLogon := fun a _ h => h.run (app.onLogon a)
  onMessage := fun a msgType view _ h => h.run (app.onMessage a msgType view)

theorem passive : Preserved.Passive (Builds config : EngineContext T → Prop) :=
  ⟨fun _ _ h => ⟨h.config_eq, h.built⟩, fun _ h => ⟨h.config_eq, h.built⟩⟩

end Builds

namespace RunState

-- The next step leaves the loop because the timer gives up on the counterparty.
def StopsByTimer (s : RunState T A) : Prop :=
  s.phase = .poll ∧ s.engine.shouldStop = false ∧ (timer s.engine).1 = .disconnect

def sentSinceTaken (s : RunState T A) : List Outbound := sentOf (sinceTaken s.engine.ctx.log)

-- The application has sent a TestRequest since the last message was taken.
def AppProbed (s : RunState T A) : Prop :=
  ∃ data, .raw data ∈ s.sentSinceTaken ∧ wireMsgType data = some MsgType.testRequest

end RunState

theorem Builds.testRequest_iff {config : SessionConfig} {s : RunState T A}
    (h : Builds config s.engine.ctx)
    : (∃ o ∈ s.sentSinceTaken, o.msgType = some MsgType.testRequest) ↔ s.AppProbed := by
  constructor
  . intro hsent
    obtain ⟨o, ho, htype⟩ := hsent
    cases o with
    | built m =>
      injection htype with htype
      exact absurd htype (h.msgType_ne (mem_sentOf_of_sinceTaken ho))
    | raw data => exact ⟨data, ho, htype⟩
  . intro happ
    obtain ⟨data, ho, htype⟩ := happ
    exact ⟨.raw data, ho, htype⟩

theorem Builds.wireTestRequest_iff {config : SessionConfig} {s : RunState T A}
    (h : Builds config s.engine.ctx) (hsoh : config.SohFree)
    : (∃ o ∈ s.sentSinceTaken, wireMsgType o.bytes = some MsgType.testRequest) ↔ s.AppProbed := by
  rw [← h.testRequest_iff]
  apply exists_congr
  intro o
  apply and_congr_right
  intro ho
  cases o with
  | built m =>
    have htype := h.wireMsgType_eq hsoh (mem_sentOf_of_sinceTaken ho)
    change wireMsgType m.bytes = _ ↔ _
    rw [htype]
    rfl
  | raw data => rfl

/-
Before the timer ends a run, a TestRequest was sent iff the application has sent one; for a
configuration without SOH this is what the receiver of the messages finds.
-/
theorem test_request_before_disconnect_iff [Transport T] (app : FixApp A) (a : A) (transport : T)
    (session : Session) (clock : Clock) {s : RunState T A}
    (hreach : Reachable app (FixEngine.atRest (.new transport session clock) a) s)
    : ((s.StopsByTimer → ∃ o ∈ s.sentSinceTaken, o.msgType = some MsgType.testRequest)
          ↔ (s.StopsByTimer → s.AppProbed))
        ∧ (session.config.SohFree →
          ((s.StopsByTimer → ∃ o ∈ s.sentSinceTaken,
              wireMsgType o.bytes = some MsgType.testRequest)
            ↔ (s.StopsByTimer → s.AppProbed))) := by
  have hbuilds : Builds session.config s.engine.ctx := by
    apply (Reachable.preserved (Builds.preserved app) Builds.passive _ _ _ hreach).2.2
    . rfl
    . exact List.length_replicate
    . exact ⟨rfl, fun _ hm => absurd hm List.not_mem_nil⟩
  refine ⟨?_, fun hsoh => ?_⟩
  . rw [hbuilds.testRequest_iff]
  . rw [hbuilds.wireTestRequest_iff hsoh]

-- After the Logon at 0 s, the timer is looked at after 30, 35 and 36 seconds.
def silentClock : Clock where
  instants := fun i =>
    if i < 5 then 0
    else if i < 8 then Duration.fromSecs 30
    else if i < 11 then Duration.fromSecs 35
    else Duration.fromSecs 36
  wall := fun _ => 0
  reads := 0

-- An engine of the run below, after the clock was read `reads` times.
structure SilentPeer (session : Session) (reads : Nat) (inbox : List Bytes) (e : FixEngine Script)
    : Prop where
  session_eq : e.ctx.session = session
  clock : e.ctx.clock = { silentClock with reads }
  transport : e.ctx.transport = ⟨inbox⟩
  shouldStop : e.shouldStop = false
  sendBuf : e.sendBuf.length = 4096
  sent : ∀ o ∈ sentOf e.ctx.log, o.msgType ≠ some MsgType.testRequest

namespace SilentPeer

variable {session session' : Session} {reads : Nat} {inbox : List Bytes} {e : FixEngine Script}

theorem sendBuilt {message : Builder} (hkind : message ∈ Preserved.allKinds)
    (hconfig : session.config = acceptorConfig) (h : SilentPeer session reads inbox e)
    : ∃ e', (e.sendBuilt message).bind (fun e => .next (e.atInstant .onMessageSent)) id = .next e'
        ∧ SilentPeer
          (session.nextOutboundSeqNum.2.onMessageSent (silentClock.instants (reads + 1)))
          (reads + 2) inbox e' := by
  have hconfig' : e.ctx.session.config = acceptorConfig := by
    rw [h.session_eq]
    exact hconfig
  obtain ⟨e1, hbuilt, hsends, hlog, hsession, htransport, hclock⟩ :=
    exists_sendBuilt_script hkind hconfig' h.sendBuf
  rw [h.session_eq] at hsession
  rw [h.clock] at hclock
  refine ⟨e1.atInstant .onMessageSent, ?_, ?_, ?_, ?_, ?_, ?_, ?_⟩
  . rw [hbuilt]
    rfl
  . change e1.ctx.session.onMessageSent e1.ctx.clock.now = _
    rw [hsession, hclock]
    rfl
  . change e1.ctx.clock.tick = _
    rw [hclock]
    rfl
  . exact htransport.trans h.transport
  . exact hsends.shouldStop.trans h.shouldStop
  . exact hsends.sendBuf.trans h.sendBuf
  . change ∀ o ∈ sentOf e1.ctx.log, _
    rw [hlog, sentOf_append]
    intro o ho
    rw [List.mem_append] at ho
    cases ho with
    | inl ho => exact h.sent o ho
    | inr ho =>
      have htype := msgType_of_mem_allKinds hkind e.ctx.session.config
        e.ctx.session.outboundSeqNum e.ctx.clock.timestamp
      rw [List.mem_singleton.mp ho]
      intro heq
      injection heq with heq
      change (e.nextMessage message).msgType ∈ _ at htype
      rw [heq] at htype
      exact absurd htype (by decide)

-- The timer asks for a message, a heartbeat goes out, and nothing comes in.
theorem poll (h : SilentPeer session reads ([] :: inbox) e)
    (hcheck : session.checkHeartbeat (silentClock.instants reads) = (.send [], session'))
    (hactive : session'.state = .active) (hconfig : session'.config = acceptorConfig)
    : ∃ e', RunState.poll e () = ⟨e', (), .poll⟩
        ∧ SilentPeer
          (session'.nextOutboundSeqNum.2.onMessageSent (silentClock.instants (reads + 2)))
          (reads + 3) inbox e' := by
  let e1 : FixEngine Script :=
    { e with ctx := { e.ctx with session := session', clock := e.ctx.clock.tick } }
  have htimer : RunState.timer e = (.send [], e1) := by
    have hnow : e.ctx.session.checkHeartbeat e.ctx.clock.now = (.send [], session') := by
      rw [h.session_eq, h.clock]
      exact hcheck
    unfold RunState.timer
    rw [hnow]
  have h1 : SilentPeer session' (reads + 1) ([] :: inbox) e1 := by
    refine ⟨rfl, ?_, h.transport, h.shouldStop, h.sendBuf, h.sent⟩
    change e.ctx.clock.tick = _
    rw [h.clock]
    rfl
  have hkind : FixEngine.heartbeatMessage ∈ Preserved.allKinds := by simp [Preserved.allKinds]
  obtain ⟨e2, hsent, h2⟩ := h1.sendBuilt hkind hconfig
  let e3 : FixEngine Script := { e2 with ctx := { e2.ctx with transport := ⟨inbox⟩ } }
  have hreceive : RunState.receive e2 () = ⟨e3, (), .poll⟩ := by
    unfold RunState.receive
    rw [h2.transport]
    rfl
  refine ⟨e3, ?_, h2.session_eq, h2.clock, rfl, h2.shouldStop, h2.sendBuf, h2.sent⟩
  unfold RunState.poll
  rw [if_neg (by simp [h.shouldStop]), htimer]
  change (if session'.state = .active then _ else _) = _
  rw [if_pos hactive]
  change FixEngine.sendHeartbeat e1 = _ at hsent
  rw [hsent]
  exact hreceive

end SilentPeer

def loggedOn : Session :=
  (((Session.new acceptorConfig 0).onConnected 0 0).onLogon 0).nextOutboundSeqNum.2.onMessageSent 0

def afterHeartbeat : Session :=
  (loggedOn.checkHeartbeat (Duration.fromSecs 30)).2.nextOutboundSeqNum.2.onMessageSent
    (Duration.fromSecs 30)

def afterProbe : Session :=
  (afterHeartbeat.checkHeartbeat (Duration.fromSecs 35)).2.nextOutboundSeqNum.2.onMessageSent
    (Duration.fromSecs 35)

-- A counterparty that is silent after the Logon, up to the step in which the timer gives up.
def silentRun : RunState Script Unit :=
  let e : FixEngine Script := .new (Script.mk [[], []]) (.new acceptorConfig 0) silentClock
  runFor silentApp 2 (Call.runAcceptor.start (Call.handleInboundLogon.start e ()).engine ())

theorem silentRun_reachable
    : Reachable silentApp (FixEngine.atRest
          (.new (Script.mk [[], []]) (.new acceptorConfig 0) silentClock) ()) silentRun
        ∧ ∃ e, silentRun = ⟨e, (), .poll⟩ ∧ SilentPeer afterProbe 11 [] e := by
  let e0 : FixEngine Script := .new (Script.mk [[], []]) (.new acceptorConfig 0) silentClock
  let e1 := (e0.connect.atInstant .onLogon).record .handledLogon
  have h1 : SilentPeer (((Session.new acceptorConfig 0).onConnected 0 0).onLogon 0) 3 [[], []] e1 :=
    ⟨rfl, rfl, rfl, rfl, List.length_replicate, fun _ ho => absurd ho List.not_mem_nil⟩
  have hkind : FixEngine.logonMessage ∈ Preserved.allKinds := by simp [Preserved.allKinds]
  obtain ⟨e2, hsent, h2⟩ := h1.sendBuilt hkind rfl
  change SilentPeer loggedOn 5 _ e2 at h2
  have hbeat : loggedOn.checkHeartbeat (silentClock.instants 5)
      = (.send [], (loggedOn.checkHeartbeat (Duration.fromSecs 30)).2) := by
    decide
  obtain ⟨e3, hpoll3, h3⟩ := h2.poll hbeat (by decide) (by decide)
  change SilentPeer afterHeartbeat 8 _ e3 at h3
  have hprobe : afterHeartbeat.checkHeartbeat (silentClock.instants 8)
      = (.send [], (afterHeartbeat.checkHeartbeat (Duration.fromSecs 35)).2) := by
    decide
  obtain ⟨e4, hpoll4, h4⟩ := h3.poll hprobe (by decide) (by decide)
  change SilentPeer afterProbe 11 _ e4 at h4
  have hlogon : Call.handleInboundLogon.start e0 () = e2.atRest () := by
    change RunState.settleEngine _ () e1.sendLogon = _
    change e1.sendLogon = _ at hsent
    rw [hsent]
    rfl
  have hreturned : (Call.handleInboundLogon.start e0 ()).phase = .returned (.ok ()) := by
    rw [hlogon]
    rfl
  have hreach : Reachable silentApp (e0.atRest ()) (Call.handleInboundLogon.start e0 ()) :=
    .first _ _ _
  have hloop := (Reachable.call .runAcceptor () hreach hreturned).step.step
  have htwo : silentRun = RunState.step silentApp (RunState.step silentApp
      (Call.runAcceptor.start (Call.handleInboundLogon.start e0 ()).engine ())) := by
    unfold silentRun
    rw [runFor_succ, runFor_succ]
    rfl
  rw [← htwo] at hloop
  refine ⟨hloop, e4, ?_, h4⟩
  rw [htwo, hlogon]
  change RunState.step silentApp (RunState.poll e2 ()) = _
  rw [hpoll3]
  exact hpoll4

theorem silentRun_stopsByTimer : silentRun.StopsByTimer := by
  obtain ⟨e, hrun, h⟩ := silentRun_reachable.2
  have hcheck : (e.ctx.session.checkHeartbeat e.ctx.clock.now).1 = .disconnect := by
    rw [h.session_eq, h.clock]
    decide
  rw [hrun]
  exact ⟨rfl, h.shouldStop, hcheck⟩

theorem test_request_before_disconnect_silentRun
    : silentRun.StopsByTimer
        ∧ ((silentRun.StopsByTimer →
              ∃ o ∈ silentRun.sentSinceTaken, o.msgType = some MsgType.testRequest)
            ↔ (silentRun.StopsByTimer → silentRun.AppProbed))
        ∧ (acceptorConfig.SohFree →
          ((silentRun.StopsByTimer → ∃ o ∈ silentRun.sentSinceTaken,
              wireMsgType o.bytes = some MsgType.testRequest)
            ↔ (silentRun.StopsByTimer → silentRun.AppProbed))) :=
  ⟨silentRun_stopsByTimer, test_request_before_disconnect_iff silentApp () (Script.mk [[], []])
    (.new acceptorConfig 0) silentClock silentRun_reachable.1⟩

-- Two Heartbeats went out after the Logon, the second one where the session asked for a TestRequest.
theorem not_test_request_before_disconnect
    : silentRun.StopsByTimer
        ∧ ¬ ∃ o ∈ silentRun.sentSinceTaken, o.msgType = some MsgType.testRequest := by
  refine ⟨silentRun_stopsByTimer, ?_⟩
  obtain ⟨e, hrun, h⟩ := silentRun_reachable.2
  intro hsent
  obtain ⟨o, ho, htype⟩ := hsent
  rw [hrun] at ho
  exact h.sent o (mem_sentOf_of_sinceTaken ho) htype

end Velocitas
