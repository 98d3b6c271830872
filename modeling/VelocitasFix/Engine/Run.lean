import VelocitasFix.Engine.Lemmas

/-!
This module contains the steps of a run: a step either takes one frame from the receive buffer and
handles it, or it is idle and only polls, receives, sends or ends the run. It connects the frames
that a run takes with the bytes that it receives.
-/

namespace Velocitas

variable {T A : Type}

def accepted (frame : Bytes) : Option MessageView :=
  match FixParser.new.parse frame with
  | .ok (view, _) => some view
  | .error _ => none

namespace Event

def chunk : Event → Option Bytes
  | .received chunk => some chunk
  | _ => none

def frame : Event → Option Bytes
  | .taken frame => some frame
  | _ => none

def IsIdle : Event → Prop
  | .received _ => True
  | .sent _ => True
  | .disconnected => True
  | _ => False

end Event

def received (log : List Event) : Bytes := (log.filterMap Event.chunk).flatten

def taken (log : List Event) : List Bytes := log.filterMap Event.frame

@[simp]
theorem received_append (log log' : List Event)
    : received (log ++ log') = received log ++ received log' := by
  simp [received]

@[simp]
theorem taken_append (log log' : List Event) : taken (log ++ log') = taken log ++ taken log' := by
  simp [taken]

@[simp]
theorem taken_map_sent (msgs : List Outbound) : taken (msgs.map Event.sent) = [] := by
  simp [taken, Event.frame]

@[simp]
theorem received_map_sent (msgs : List Outbound) : received (msgs.map Event.sent) = [] := by
  simp [received, Event.chunk]

theorem taken_eq_nil {evs : List Event} (h : ∀ ev ∈ evs, ev.IsIdle) : taken evs = [] := by
  rw [taken, List.filterMap_eq_nil_iff]
  intro ev hev
  have := h ev hev
  cases ev with
  | taken frame => exact absurd this id
  | _ => rfl

theorem taken_of_handled {view : MessageView} {expected : UInt64} {e e' : FixEngine T}
    {left : Prop} {evs : List Event} (h : FixEngine.Handled view expected e e' left evs)
    : taken evs = [] ∧ received evs = [] := by
  cases h with
  | ignored => exact ⟨rfl, rfl⟩
  | logonFailed msgs => exact ⟨taken_map_sent msgs, received_map_sent msgs⟩
  | logon msgs msgs' =>
    constructor
    . rw [taken_append, taken_map_sent]
      exact taken_map_sent msgs'
    . rw [received_append, received_map_sent]
      exact received_map_sent msgs'
  | testRequest msgs => exact ⟨taken_map_sent msgs, received_map_sent msgs⟩
  | logoutFailed msgs => exact ⟨taken_map_sent msgs, received_map_sent msgs⟩
  | logout msgs =>
    constructor
    . change taken (msgs.map Event.sent ++ [.disconnected]) = []
      rw [taken_append, taken_map_sent]
      rfl
    . change received (msgs.map Event.sent ++ [.disconnected]) = []
      rw [received_append, received_map_sent]
      rfl
  | message msgType msgs => exact ⟨taken_map_sent msgs, received_map_sent msgs⟩

namespace RunState

-- The loop may still take frames from the stream.
def Running (s : RunState T A) : Prop :=
  s.phase = .process ∨ (s.phase = .poll ∧ s.engine.shouldStop = false)

-- A step that takes no frame.
structure Idle (s s' : RunState T A) (evs : List Event) : Prop where
  app : s'.app = s.app
  parser : s'.engine.parser = s.engine.parser
  sendBuf : s'.engine.sendBuf.length = s.engine.sendBuf.length
  config : s'.engine.ctx.session.config = s.engine.ctx.session.config
  inbound : s'.engine.ctx.session.inboundSeqNum = s.engine.ctx.session.inboundSeqNum
  unread : s'.engine.recv.unread = s.engine.recv.unread ++ received evs
  log : s'.engine.ctx.log = s.engine.ctx.log ++ evs
  events : ∀ ev ∈ evs, ev.IsIdle
  state : s'.engine.ctx.session.state = s.engine.ctx.session.state
    ∨ (s'.engine.ctx.session.state = .disconnected ∧ ¬ s'.Running)
  running : s'.Running → s.Running ∧ .disconnected ∉ evs

-- A step that takes `frame` and adds `evs` to the log after it.
structure Took (s s' : RunState T A) (frame : Bytes) (evs : List Event) : Prop where
  phase : s.phase = .process
  parser : s'.engine.parser = s.engine.parser
  sendBuf : s'.engine.sendBuf.length = s.engine.sendBuf.length
  config : s'.engine.ctx.session.config = s.engine.ctx.session.config
  recv : ∃ recv, s.engine.recv.takeFrame = some (frame, recv) ∧ s'.engine.recv = recv
  log : s'.engine.ctx.log = s.engine.ctx.log ++ .taken frame :: evs
  rejected : accepted frame = none →
    evs = [] ∧ s'.engine.ctx.session = s.engine.ctx.session
      ∧ s'.engine.shouldStop = s.engine.shouldStop
  handled : ∀ view, accepted frame = some view →
    ∃ e : FixEngine T, e.ctx.session.control = s.engine.ctx.session.control.receive view
      ∧ e.ctx.session.config = s.engine.ctx.session.config
      ∧ e.shouldStop = s.engine.shouldStop
      ∧ FixEngine.Handled view s.engine.ctx.session.inboundSeqNum e s'.engine (¬ s'.Running) evs

theorem not_running_of_returned {e : FixEngine T} {app : A} {res : Except ErrorKind Unit}
    : ¬ Running ⟨e, app, .returned res⟩ := by
  simp [Running]

theorem not_running_halted {e : FixEngine T} {app : A} {reason : Halt}
    : ¬ Running ⟨e, app, halted reason⟩ := by
  cases reason with
  | error err => simp [Running, halted]
  | panic => simp [Running, halted]

theorem settle_engine (phase : Phase) (o : Outcome (FixEngine T × A))
    : (settle phase o).engine = o.state.1 := by
  cases o with
  | next s => rfl
  | halt reason s => rfl

theorem not_running_settle {o : Outcome (FixEngine T × A)} (h : o.Left)
    : ¬ Running (settle .process o) := by
  cases o with
  | next s => exact absurd h id
  | halt reason s => apply not_running_halted

theorem isIdle_map_sent {msgs : List Outbound} : ∀ ev ∈ msgs.map Event.sent, ev.IsIdle := by
  simp [Event.IsIdle]

theorem disconnected_not_mem_map_sent {msgs : List Outbound}
    : .disconnected ∉ msgs.map Event.sent := by
  simp

theorem Idle.refl (s : RunState T A) : s.Idle s [] where
  app := rfl
  parser := rfl
  sendBuf := rfl
  config := rfl
  inbound := rfl
  unread := (List.append_nil _).symm
  log := (List.append_nil _).symm
  events := by simp
  state := .inl rfl
  running := by simp

theorem Idle.of_halted {s s' : RunState T A} {msgs : List Outbound} (hrunning : ¬ s'.Running)
    (happ : s'.app = s.app) (hkeeps : s.engine.Keeps s'.engine)
    (hstate : s'.engine.ctx.session.state = s.engine.ctx.session.state)
    (hlog : s'.engine.ctx.log = s.engine.ctx.log ++ msgs.map Event.sent)
    : s.Idle s' (msgs.map Event.sent) where
  app := happ
  parser := hkeeps.parser
  sendBuf := hkeeps.sendBuf
  config := hkeeps.config
  inbound := hkeeps.inbound
  unread := by rw [hkeeps.recv, received_map_sent, List.append_nil]
  log := hlog
  events := isIdle_map_sent
  state := .inl hstate
  running := fun h => absurd h hrunning

theorem Idle.of_sends {e e' : FixEngine T} {app : A} {s' : RunState T A} {evs : List Event}
    {msgs : List Outbound} (hsends : e.Sends e')
    (hstate : e'.ctx.session.state = e.ctx.session.state)
    (hlog : e'.ctx.log = e.ctx.log ++ msgs.map Event.sent)
    (h : Idle ⟨e', app, .poll⟩ s' evs)
    : Idle ⟨e, app, .poll⟩ s' (msgs.map Event.sent ++ evs) where
  app := h.app
  parser := h.parser.trans hsends.parser
  sendBuf := h.sendBuf.trans hsends.sendBuf
  config := h.config.trans hsends.config
  inbound := h.inbound.trans hsends.inbound
  unread := by
    rw [received_append, received_map_sent, List.nil_append, ← hsends.recv]
    exact h.unread
  log := by rw [h.log, hlog, List.append_assoc]
  events := by
    intro ev hev
    rw [List.mem_append] at hev
    rcases hev with hev | hev
    . exact isIdle_map_sent ev hev
    . exact h.events ev hev
  state := by
    rw [← hstate]
    exact h.state
  running := by
    intro hrunning
    rcases h.running hrunning with ⟨hpoll, hmem⟩
    refine ⟨?_, ?_⟩
    . simpa [Running, hsends.shouldStop] using hpoll
    . rw [List.mem_append, not_or]
      exact ⟨disconnected_not_mem_map_sent, hmem⟩

variable [Transport T]

theorem idle_finish (e : FixEngine T) (app : A) (phase : Phase)
    : Idle ⟨e, app, phase⟩ (finish e app) [] where
  app := rfl
  parser := rfl
  sendBuf := rfl
  config := rfl
  inbound := rfl
  unread := (List.append_nil _).symm
  log := (List.append_nil _).symm
  events := by simp
  state := .inl rfl
  running := fun h => absurd h not_running_of_returned

theorem idle_receive {e : FixEngine T} (app : A) (hstop : e.shouldStop = false)
    : ∃ evs, Idle ⟨e, app, .poll⟩ (receive e app) evs := by
  have hrunning : Running ⟨e, app, .poll⟩ := .inr ⟨rfl, hstop⟩
  unfold receive
  cases Transport.recv e.ctx.transport 8192 with
  | mk res transport =>
    cases res with
    | ok data =>
      dsimp only
      split
      . refine ⟨[], ⟨rfl, rfl, rfl, rfl, rfl, ?_, ?_, by simp, .inl rfl, ?_⟩⟩
        . exact (List.append_nil _).symm
        . exact (List.append_nil _).symm
        . simp [hrunning]
      . refine ⟨[.received data], ⟨rfl, rfl, rfl, rfl, rfl, ?_, rfl, ?_, .inl rfl, ?_⟩⟩
        . simp [received, Event.chunk, FixEngine.record]
        . simp [Event.IsIdle]
        . simp [hrunning]
    | error err =>
      dsimp only
      split
      . refine ⟨[.disconnected], ⟨rfl, rfl, rfl, rfl, rfl, ?_, rfl, ?_, .inr ⟨rfl, ?_⟩, ?_⟩⟩
        . simp [received, Event.chunk, finish, FixEngine.disconnect, FixEngine.record,
            FixEngine.modifySession]
        . simp [Event.IsIdle]
        . exact not_running_of_returned
        . exact fun h => absurd h not_running_of_returned
      . refine ⟨[], ⟨rfl, rfl, rfl, rfl, rfl, ?_, ?_, by simp, .inl rfl, ?_⟩⟩
        . exact (List.append_nil _).symm
        . exact (List.append_nil _).symm
        . exact fun h => absurd h not_running_of_returned

omit [Transport T] in
theorem timer_sends (e : FixEngine T)
    : e.Sends (timer e).2 ∧ (timer e).2.ctx.session.state = e.ctx.session.state
        ∧ (timer e).2.ctx.log = e.ctx.log := by
  obtain ⟨hconfig, hstate, -, hinbound⟩ := e.ctx.session.checkHeartbeat_fields e.ctx.clock.now
  exact ⟨⟨⟨rfl, rfl, rfl, hconfig, hinbound⟩, rfl, [], (List.append_nil _).symm⟩, hstate, rfl⟩

theorem idle_poll (e : FixEngine T) (app : A)
    : ∃ evs, Idle ⟨e, app, .poll⟩ (poll e app) evs := by
  unfold poll
  split
  . exact ⟨[], idle_finish e app .poll⟩
  . next hstop =>
    rw [Bool.not_eq_true] at hstop
    rcases timer_sends e with ⟨hsends, hstate, hlog⟩
    have hlog' : (timer e).2.ctx.log = e.ctx.log ++ List.map Event.sent [] := by simp [hlog]
    have hstop' : (timer e).2.shouldStop = false := hsends.shouldStop.trans hstop
    cases htimer : timer e with
    | mk action e1 =>
      rw [htimer] at hsends hstate hlog' hstop'
      have hreceive : ∃ evs, Idle ⟨e, app, .poll⟩ (receive e1 app) evs := by
        rcases idle_receive app hstop' with ⟨evs, hidle⟩
        exact ⟨_, .of_sends hsends hstate hlog' hidle⟩
      cases action with
      | none => exact hreceive
      | disconnect =>
        exact ⟨_, .of_halted not_running_of_returned rfl
          ⟨hsends.parser, hsends.recv, hsends.sendBuf, hsends.config, hsends.inbound⟩ hstate hlog'⟩
      | send data =>
        dsimp only
        split
        . have hsends1 := hsends.trans e1.sendHeartbeat_sends
          have hstate1 := e1.sendHeartbeat_state.trans hstate
          rcases hsends1.log with ⟨msgs, hlog1⟩
          cases hsent : e1.sendHeartbeat with
          | next e2 =>
            rw [hsent] at hsends1 hstate1 hlog1
            rcases idle_receive app (hsends1.shouldStop.trans hstop) with ⟨evs, hidle⟩
            exact ⟨_, .of_sends hsends1 hstate1 hlog1 hidle⟩
          | halt reason e2 =>
            rw [hsent] at hsends1 hstate1 hlog1
            exact ⟨_, .of_halted not_running_halted rfl hsends1.toKeeps hstate1 hlog1⟩
        . exact hreceive

theorem idle_endBatch (e : FixEngine T) (app : A)
    : ∃ evs, Idle ⟨e, app, .process⟩ (settleEngine .poll app e.endBatch) evs := by
  have hprocess : Running ⟨e, app, .process⟩ := .inl rfl
  unfold FixEngine.endBatch
  split
  . refine ⟨[], ⟨rfl, rfl, rfl, rfl, rfl, ?_, ?_, by simp, .inl rfl, ?_⟩⟩
    . exact (List.append_nil _).symm
    . exact (List.append_nil _).symm
    . simp [hprocess]
  . next hlogout =>
    have hsends := (e.sendBuilt_sends FixEngine.logoutMessage).1
    have hstate := (e.sendBuilt_sends FixEngine.logoutMessage).2
    rcases hsends.log with ⟨msgs, hlog⟩
    have hdisconnect (e1 : FixEngine T) (hsends : e.Sends e1)
        (hlog : e1.ctx.log = e.ctx.log ++ msgs.map Event.sent)
        : Idle ⟨e, app, .process⟩ ⟨{ e1.disconnect with shouldStop := true }, app, .poll⟩
            (msgs.map Event.sent ++ [.disconnected]) := by
      refine ⟨rfl, hsends.parser, hsends.sendBuf, hsends.config, hsends.inbound, ?_, ?_, ?_,
        .inr ⟨rfl, ?_⟩, ?_⟩
      . rw [received_append, received_map_sent]
        change e1.recv.unread = _
        rw [hsends.recv]
        exact (List.append_nil _).symm
      . change e1.ctx.log ++ [Event.disconnected] = _
        rw [hlog, List.append_assoc]
      . intro ev hev
        rw [List.mem_append, List.mem_singleton] at hev
        rcases hev with hev | rfl
        . exact isIdle_map_sent ev hev
        . trivial
      . simp [Running]
      . simp [Running]
    cases hsent : e.sendBuilt FixEngine.logoutMessage with
    | next e1 =>
      rw [hsent] at hsends hlog
      exact ⟨_, hdisconnect e1 hsends hlog⟩
    | halt reason e1 =>
      rw [hsent] at hsends hstate hlog
      cases reason with
      | error err => exact ⟨_, hdisconnect e1 hsends hlog⟩
      | panic => exact ⟨_, .of_halted not_running_halted rfl hsends.toKeeps hstate hlog⟩
  . exact ⟨[], ⟨rfl, rfl, rfl, rfl, rfl, (List.append_nil _).symm, (List.append_nil _).symm,
      by simp, .inl rfl, by simp [hprocess]⟩⟩

theorem processMessage_of_rejected (app : FixApp A) {e : FixEngine T} (a : A) {frame : Bytes}
    (hparser : e.parser = .new) (h : accepted frame = none)
    : FixEngine.processMessage app e a frame = .next (e, a) := by
  unfold accepted at h
  unfold FixEngine.processMessage
  rw [hparser]
  split at h
  . contradiction
  . next err herr => rw [herr]

theorem processMessage_of_accepted (app : FixApp A) {e : FixEngine T} (a : A) {frame : Bytes}
    {view : MessageView} (hparser : e.parser = .new) (h : accepted frame = some view)
    : FixEngine.processMessage app e a frame
        = FixEngine.dispatch app (e.validated view) a view e.ctx.session.inboundSeqNum := by
  unfold accepted at h
  unfold FixEngine.processMessage
  rw [hparser]
  split at h
  . next view' n hparse =>
    rw [Option.some.injEq] at h
    rw [hparse, ← h]
    rfl
  . contradiction

theorem took_process {app : FixApp A} {e : FixEngine T} (a : A) {frame : Bytes} {recv : RecvBuffer}
    (hparser : e.parser = .new) (htake : e.recv.takeFrame = some (frame, recv))
    : ∃ evs, Took ⟨e, a, .process⟩ (process app e a) frame evs := by
  let e1 := ({ e with recv } : FixEngine T).record (.taken frame)
  have hparser1 : e1.parser = .new := hparser
  have hprocess : process app e a = settle .process (FixEngine.processMessage app e1 a frame) := by
    simp only [process, htake, e1]
  rw [hprocess]
  cases haccepted : accepted frame with
  | none =>
    refine ⟨[], ?_⟩
    rw [processMessage_of_rejected app a hparser1 haccepted]
    refine ⟨rfl, rfl, rfl, rfl, ⟨recv, htake, rfl⟩, rfl, fun _ => ⟨rfl, rfl, rfl⟩, ?_⟩
    intro view hview
    rw [haccepted] at hview
    contradiction
  | some view =>
    rcases e1.validated_fields view with ⟨hp, hr, hb, hs, hc, -, -, hl⟩
    rcases FixEngine.dispatch_handled app (e1.validated view) a view e1.ctx.session.inboundSeqNum
      with ⟨evs, hhandled, hlog⟩
    rw [← processMessage_of_accepted app a hparser1 haccepted, ← settle_engine] at hhandled hlog
    have hkeeps := hhandled.keeps
    have himp := hhandled.imp not_running_settle
    refine ⟨evs, rfl, hkeeps.parser.trans hp, ?_, hkeeps.config.trans hc,
      ⟨recv, htake, hkeeps.recv.trans hr⟩, ?_, ?_, ?_⟩
    . rw [hkeeps.sendBuf, hb]
      rfl
    . rw [hlog, hl, FixEngine.record_log, List.append_assoc]
      rfl
    . intro hnone
      rw [haccepted] at hnone
      contradiction
    . intro view' hview
      rw [haccepted, Option.some.injEq] at hview
      subst hview
      exact ⟨e1.validated view, e1.validated_control view, hc, hs, himp⟩

-- A step of a run either takes a frame or is idle.
theorem step_cases (app : FixApp A) {s : RunState T A} (hparser : s.engine.parser = .new)
    : (∃ evs, s.Idle (step app s) evs) ∨ (∃ frame evs, s.Took (step app s) frame evs) := by
  rcases s with ⟨e, a, phase⟩
  cases phase with
  | poll => exact .inl (idle_poll e a)
  | process =>
    cases htake : e.recv.takeFrame with
    | none =>
      have hprocess : step app ⟨e, a, .process⟩ = settleEngine .poll a e.endBatch := by
        simp only [step, process, htake]
      rw [hprocess]
      exact .inl (idle_endBatch e a)
    | some res => exact .inr ⟨res.1, took_process a hparser htake⟩
  | returned res => exact .inl ⟨[], .refl _⟩
  | panicked => exact .inl ⟨[], .refl _⟩

theorem step_fields (app : FixApp A) {s : RunState T A} (hparser : s.engine.parser = .new)
    : (step app s).engine.parser = s.engine.parser
        ∧ (step app s).engine.sendBuf.length = s.engine.sendBuf.length := by
  cases step_cases app hparser with
  | inl hidle =>
    rcases hidle with ⟨evs, hidle⟩
    exact ⟨hidle.parser, hidle.sendBuf⟩
  | inr htook =>
    rcases htook with ⟨frame, evs, htook⟩
    exact ⟨htook.parser, htook.sendBuf⟩

end RunState

-- The state a session is in when the loop is entered.
def Entry.state (entry : Entry) (session : Session) : SessionState :=
  match entry with
  | .runInitiator => (session.onConnected 0 0).state
  | .runAcceptor => session.state
  | .handleInboundLogon => .active

def Entry.events : Entry → List Event
  | .runInitiator => []
  | .runAcceptor => []
  | .handleInboundLogon => [.handledLogon]

structure Entry.Started (entry : Entry) (session : Session) (s : RunState T A) : Prop where
  parser : s.engine.parser = .new
  sendBuf : s.engine.sendBuf.length = 4096
  config : s.engine.ctx.session.config = session.config
  inbound : s.engine.ctx.session.inboundSeqNum = session.inboundSeqNum
  unread : s.engine.recv.unread = []
  state : s.engine.ctx.session.state = entry.state session
  log : ∃ msgs : List Outbound, s.engine.ctx.log = entry.events ++ msgs.map Event.sent

theorem Entry.Started.taken_log {entry : Entry} {session : Session} {s : RunState T A}
    (h : entry.Started session s)
    : taken s.engine.ctx.log = [] ∧ received s.engine.ctx.log = [] := by
  rcases h.log with ⟨msgs, hlog⟩
  rw [hlog, taken_append, taken_map_sent, received_append, received_map_sent]
  cases entry
  all_goals exact ⟨rfl, rfl⟩

-- The frames taken so far and the unread bytes are those of the stream received so far.
def RunState.Framed (s : RunState T A) : Prop :=
  FixParser.framer.frames (received s.engine.ctx.log)
    = (taken s.engine.ctx.log ++ (FixParser.framer.frames s.engine.recv.unread).1,
      (FixParser.framer.frames s.engine.recv.unread).2)

theorem RunState.Idle.taken_eq {s s' : RunState T A} {evs : List Event} (h : s.Idle s' evs)
    : taken s'.engine.ctx.log = taken s.engine.ctx.log := by
  rw [h.log, taken_append, taken_eq_nil h.events, List.append_nil]

theorem RunState.Idle.framed {s s' : RunState T A} {evs : List Event} (h : s.Idle s' evs)
    (hs : s.Framed)
    : s'.Framed := by
  unfold Framed at hs ⊢
  rw [h.taken_eq, h.log, h.unread, received_append,
    FixParser.framer.frames_append, FixParser.framer.frames_append s.engine.recv.unread, hs,
    List.append_assoc]

theorem RunState.Took.taken_received {s s' : RunState T A} {frame : Bytes} {evs : List Event}
    (h : s.Took s' frame evs)
    : taken s'.engine.ctx.log = taken s.engine.ctx.log ++ [frame]
        ∧ received s'.engine.ctx.log = received s.engine.ctx.log := by
  have hevs : taken evs = [] ∧ received evs = [] := by
    cases haccepted : accepted frame with
    | none =>
      rw [(h.rejected haccepted).1]
      exact ⟨rfl, rfl⟩
    | some view =>
      rcases h.handled view haccepted with ⟨e, -, -, -, hhandled⟩
      exact taken_of_handled hhandled
  rw [h.log, taken_append, received_append]
  constructor
  . change _ ++ (frame :: taken evs) = _
    rw [hevs.1]
  . change _ ++ received evs = _
    rw [hevs.2, List.append_nil]

-- A frame with the expected number leaves the state to what its message is handled with.
theorem RunState.Took.handled_expected {s s' : RunState T A} {frame : Bytes} {evs : List Event}
    (h : s.Took s' frame evs) {view : MessageView} (hview : accepted frame = some view)
    (hseq : view.msgSeqNum = some s.engine.ctx.session.inboundSeqNum)
    : ∃ e : FixEngine T, e.ctx.session.state = s.engine.ctx.session.state
        ∧ e.ctx.session.config = s.engine.ctx.session.config
        ∧ s'.engine.ctx.session.inboundSeqNum = s.engine.ctx.session.inboundSeqNum + 1
        ∧ FixEngine.Handled view s.engine.ctx.session.inboundSeqNum e s'.engine (¬ s'.Running)
          evs := by
  rcases h.handled view hview with ⟨e, hcontrol, hconfig, -, hhandled⟩
  simp only [Control.receive, hseq] at hcontrol
  have hinbound : e.ctx.session.inboundSeqNum = s.engine.ctx.session.inboundSeqNum + 1 := by
    have hexpected := congrArg Control.expected hcontrol
    simpa [Control.receiveSeq, Session.control] using hexpected
  refine ⟨e, ?_, hconfig, hhandled.keeps.inbound.trans hinbound, hhandled⟩
  exact (congrArg Control.state hcontrol).trans (Control.state_receiveSeq_of_le (UInt64.le_refl _))

theorem RunState.Took.framed {s s' : RunState T A} {frame : Bytes} {evs : List Event}
    (h : s.Took s' frame evs) (hs : s.Framed)
    : s'.Framed := by
  unfold Framed at hs ⊢
  rcases h.recv with ⟨recv, htake, hrecv⟩
  rcases RecvBuffer.exists_of_takeFrame htake with ⟨n, hcut, hframe, hunread⟩
  rw [h.taken_received.1, h.taken_received.2, hs, FixParser.framer.frames_of_cut_some hcut, hrecv,
    hunread, ← hframe, List.append_assoc]
  rfl

theorem RunState.Framed.taken_isPrefix {s : RunState T A} (hs : s.Framed) {stream : Bytes}
    (h : received s.engine.ctx.log <+: stream)
    : taken s.engine.ctx.log <+: (FixParser.framer.frames stream).1 := by
  rcases h with ⟨rest, rfl⟩
  unfold Framed at hs
  rw [FixParser.framer.frames_append, hs]
  dsimp only
  rw [List.append_assoc]
  exact List.prefix_append _ _

section Runs

variable [Transport T] (app : FixApp A)

theorem runFor_succ (n : Nat) (s : RunState T A)
    : runFor app (n + 1) s = RunState.step app (runFor app n s) :=
  Function.iterate_succ_apply' _ _ _

-- What holds at the start and survives every idle and every taking step holds throughout a run.
theorem runFor_invariant {I : RunState T A → Prop} {s : RunState T A}
    (hparser : s.engine.parser = .new) (hstart : I s)
    (hidle : ∀ {s s' : RunState T A} {evs : List Event}, s.Idle s' evs → I s → I s')
    (htook : ∀ {s s' : RunState T A} {frame : Bytes} {evs : List Event},
      s.Took s' frame evs → I s → I s')
    (n : Nat)
    : I (runFor app n s) := by
  have hboth : (runFor app n s).engine.parser = .new ∧ I (runFor app n s) := by
    induction n with
    | zero => exact ⟨hparser, hstart⟩
    | succ n ih =>
      rw [runFor_succ]
      rcases RunState.step_cases app ih.1 with ⟨evs, hstep⟩ | ⟨frame, evs, hstep⟩
      . exact ⟨hstep.parser.trans ih.1, hidle hstep ih.2⟩
      . exact ⟨hstep.parser.trans ih.1, htook hstep ih.2⟩
  exact hboth.2

-- The same for what depends on the frames taken since the start.
theorem runFor_history {I : List Bytes → RunState T A → Prop} {s : RunState T A}
    (hparser : s.engine.parser = .new) (hstart : I [] s)
    (hidle : ∀ {s s' : RunState T A} {frames : List Bytes} {evs : List Event},
      s.Idle s' evs → I frames s → I frames s')
    (htook : ∀ {s s' : RunState T A} {frames : List Bytes} {frame : Bytes} {evs : List Event},
      s.Took s' frame evs → I frames s → I (frames ++ [frame]) s')
    (n : Nat)
    : ∃ frames, taken (runFor app n s).engine.ctx.log = taken s.engine.ctx.log ++ frames
        ∧ I frames (runFor app n s) := by
  let J (s' : RunState T A) : Prop :=
    ∃ frames, taken s'.engine.ctx.log = taken s.engine.ctx.log ++ frames ∧ I frames s'
  change J (runFor app n s)
  apply runFor_invariant app hparser
  . exact ⟨[], (List.append_nil _).symm, hstart⟩
  . intro s1 s2 evs hstep hs
    rcases hs with ⟨frames, htaken, hI⟩
    refine ⟨frames, ?_, hidle hstep hI⟩
    rw [hstep.taken_eq, htaken]
  . intro s1 s2 frame evs hstep hs
    rcases hs with ⟨frames, htaken, hI⟩
    refine ⟨frames ++ [frame], ?_, htook hstep hI⟩
    rw [hstep.taken_received.1, htaken, List.append_assoc]

theorem runFor_add (m n : Nat) (s : RunState T A)
    : runFor app (m + n) s = runFor app n (runFor app m s) := by
  unfold runFor
  rw [Nat.add_comm, Function.iterate_add_apply]

def runOf (a : A) (transport : T) (session : Session) (clock : Clock) (entry : Entry) (n : Nat)
    : RunState T A :=
  runFor app n (entry.start (.new transport session clock) a)

omit [Transport T] in
theorem settleEngine_engine (phase : Phase) (a : A) (o : Outcome (FixEngine T))
    : (RunState.settleEngine phase a o).engine = o.state := by
  cases o with
  | next e => rfl
  | halt reason e => rfl

theorem start_started (a : A) (transport : T) (session : Session) (clock : Clock) (entry : Entry)
    : entry.Started session (entry.start (.new transport session clock) a) := by
  cases entry with
  | runAcceptor => exact ⟨rfl, List.length_replicate, rfl, rfl, RecvBuffer.unread_new, rfl, [], rfl⟩
  | runInitiator =>
    have hconnect := FixEngine.sends_connect (.new transport session clock)
    have hsends := hconnect.trans (FixEngine.sendLogon_sends _)
    have hstate := FixEngine.sendLogon_state (FixEngine.connect (.new transport session clock))
    simp only [Entry.start]
    constructor
    all_goals rw [settleEngine_engine]
    . exact hsends.parser
    . exact hsends.sendBuf.trans List.length_replicate
    . exact hsends.config
    . exact hsends.inbound
    . rw [hsends.recv]
      exact RecvBuffer.unread_new
    . exact hstate.trans (session.state_onConnected _ _ _ _)
    . exact hsends.log
  | handleInboundLogon =>
    have hconnect := FixEngine.sends_connect (.new transport session clock)
    have hlogon := hconnect.trans (FixEngine.sends_onLogon _)
    rcases hlogon.log with ⟨msgs, hlog⟩
    let e1 := ((FixEngine.connect (.new transport session clock)).atInstant .onLogon).record
      .handledLogon
    have hsends := e1.sendLogon_sends
    have hstate := e1.sendLogon_state
    rcases hsends.log with ⟨msgs', hlog'⟩
    simp only [Entry.start]
    constructor
    all_goals rw [settleEngine_engine]
    . exact hsends.parser.trans hlogon.parser
    . exact (hsends.sendBuf.trans hlogon.sendBuf).trans List.length_replicate
    . exact hsends.config.trans hlogon.config
    . exact hsends.inbound.trans hlogon.inbound
    . change e1.sendLogon.state.recv.unread = []
      rw [hsends.recv]
      exact RecvBuffer.unread_new
    . exact hstate
    . exact ⟨msgs', hlog'⟩

theorem runOf_succ (a : A) (transport : T) (session : Session) (clock : Clock) (entry : Entry)
    (n : Nat)
    : runOf app a transport session clock entry (n + 1)
        = RunState.step app (runOf app a transport session clock entry n) :=
  runFor_succ app n _

theorem run_fields (a : A) (transport : T) (session : Session) (clock : Clock) (entry : Entry)
    (n : Nat)
    : (runOf app a transport session clock entry n).engine.parser = .new
        ∧ (runOf app a transport session clock entry n).engine.sendBuf.length = 4096
        ∧ (runOf app a transport session clock entry n).engine.ctx.session.config
          = session.config := by
  have hstarted := start_started a transport session clock entry
  let I (s : RunState T A) : Prop := s.engine.parser = .new ∧ s.engine.sendBuf.length = 4096
    ∧ s.engine.ctx.session.config = session.config
  change I (runOf app a transport session clock entry n)
  apply runFor_invariant app hstarted.parser
  . exact ⟨hstarted.parser, hstarted.sendBuf, hstarted.config⟩
  . intro s s' evs hstep hs
    exact ⟨hstep.parser.trans hs.1, hstep.sendBuf.trans hs.2.1, hstep.config.trans hs.2.2⟩
  . intro s s' frame evs hstep hs
    exact ⟨hstep.parser.trans hs.1, hstep.sendBuf.trans hs.2.1, hstep.config.trans hs.2.2⟩

theorem run_framed (a : A) (transport : T) (session : Session) (clock : Clock) (entry : Entry)
    (n : Nat)
    : (runOf app a transport session clock entry n).Framed := by
  have hstarted := start_started a transport session clock entry
  apply runFor_invariant app hstarted.parser
  . unfold RunState.Framed
    rw [hstarted.taken_log.1, hstarted.taken_log.2, hstarted.unread]
    rfl
  . intro s s' evs hstep hs
    exact hstep.framed hs
  . intro s s' frame evs hstep hs
    exact hstep.framed hs

-- The frames a run takes are the first frames of every stream that it receives a prefix of.
theorem taken_isPrefix (a : A) (transport : T) (session : Session) (clock : Clock) (entry : Entry)
    (n : Nat) {stream : Bytes}
    (h : received (runOf app a transport session clock entry n).engine.ctx.log <+: stream)
    : taken (runOf app a transport session clock entry n).engine.ctx.log
        <+: (FixParser.framer.frames stream).1 :=
  (run_framed app a transport session clock entry n).taken_isPrefix h

end Runs

end Velocitas
