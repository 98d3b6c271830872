import VelocitasFix.Engine.Speech

/-!
This module contains the induction principle for what an application does: a relation between its
state, the messages that it was handed and those that it sent holds in every run if it survives each
callback. The views that a callback gets are those that the parser made of a frame.
-/

namespace Velocitas

variable {T A : Type}

-- The application is called to act, or sends something.
def Event.isApp : Event → Bool
  | .onLogon => true
  | .onMessage _ _ _ => true
  | .sent (.raw _) => true
  | _ => false

def appLog (log : List Event) : List Event := log.filter Event.isApp

@[simp]
theorem appLog_append (log log' : List Event) : appLog (log ++ log') = appLog log ++ appLog log' :=
  List.filter_append _ _

theorem sentByApp_appLog (log : List Event) : sentByApp (appLog log) = sentByApp log := by
  unfold sentByApp sentOf appLog
  rw [List.filterMap_filterMap, List.filterMap_filterMap, List.filterMap_filter]
  apply List.filterMap_congr
  intro event _
  rcases event with _ | _ | (_ | _) | _ | _ | _ | _ | _ <;> rfl

theorem delivered_appLog (log : List Event) : delivered (appLog log) = delivered log := by
  unfold delivered appLog
  rw [List.filterMap_filter]
  apply congrArg
  apply List.filterMap_congr
  intro event _
  rcases event with _ | _ | (_ | _) | _ | _ | _ | _ | _ <;> rfl

-- The application has no part in what happened between the two engines.
structure FixEngine.Unaware (e e' : FixEngine T) : Prop where
  config : e'.ctx.session.config = e.ctx.session.config
  log : appLog e'.ctx.log = appLog e.ctx.log

namespace FixEngine

theorem Unaware.trans {e1 e2 e3 : FixEngine T} (h : e1.Unaware e2) (h' : e2.Unaware e3)
    : e1.Unaware e3 where
  config := h'.config.trans h.config
  log := h'.log.trans h.log

theorem unaware_record (e : FixEngine T) {event : Event} (h : event.isApp = false)
    : e.Unaware (e.record event) where
  config := rfl
  log := by
    rw [record_log, appLog_append]
    simp [appLog, h]

theorem unaware_disconnect (e : FixEngine T) : e.Unaware e.disconnect where
  config := rfl
  log := by
    change appLog (e.ctx.log ++ [.disconnected]) = _
    rw [appLog_append]
    exact List.append_nil _

theorem unaware_connect (e : FixEngine T) : e.Unaware e.connect where
  config := (e.ctx.session.onConnected_fields _ _).1
  log := rfl

theorem unaware_validated (e : FixEngine T) (view : MessageView)
    : e.Unaware (e.validated view) := by
  rcases e.validated_fields view with ⟨_, _, _, _, hconfig, _, _, hlog⟩
  exact ⟨hconfig, by rw [hlog]⟩

variable [Transport T]

theorem unaware_sendBuilt (e : FixEngine T) (message : Builder)
    : e.Unaware (e.sendBuilt message).state where
  config := (e.sendBuilt_sends message).1.config
  log := by
    cases e.sendBuilt_log message with
    | inl hpanic =>
      obtain ⟨e', hpanic, hlog⟩ := hpanic
      rw [hpanic]
      exact congrArg _ hlog
    | inr hsent =>
      rw [hsent.2, appLog_append]
      exact List.append_nil _

theorem unaware_sendBuilt_bind (e : FixEngine T) (message : Builder)
    {f : FixEngine T → FixEngine T} (hf : ∀ e : FixEngine T, e.Unaware (f e))
    : e.Unaware ((e.sendBuilt message).bind (fun e => .next (f e)) id).state := by
  have hbuilt := e.unaware_sendBuilt message
  cases hsent : e.sendBuilt message with
  | next e' =>
    rw [hsent] at hbuilt
    exact hbuilt.trans (hf e')
  | halt reason e' =>
    rw [hsent] at hbuilt
    exact hbuilt

theorem unaware_sendLogon (e : FixEngine T) : e.Unaware e.sendLogon.state :=
  e.unaware_sendBuilt_bind logonMessage fun _ => ⟨rfl, rfl⟩

theorem unaware_sendHeartbeat (e : FixEngine T) : e.Unaware e.sendHeartbeat.state :=
  e.unaware_sendBuilt_bind heartbeatMessage fun _ => ⟨rfl, rfl⟩

theorem unaware_sendLogout (e : FixEngine T) : e.Unaware e.sendLogout.state :=
  e.unaware_sendBuilt_bind logoutMessage fun _ => ⟨rfl, rfl⟩

theorem unaware_endBatch (e : FixEngine T) : e.Unaware e.endBatch.state := by
  unfold endBatch
  split
  . exact ⟨rfl, rfl⟩
  . have hbuilt := e.unaware_sendBuilt logoutMessage
    have hstopped := hbuilt.trans (unaware_disconnect _)
    cases hsent : e.sendBuilt logoutMessage with
    | next e' =>
      rw [hsent] at hstopped
      exact ⟨hstopped.config, hstopped.log⟩
    | halt reason e' =>
      rw [hsent] at hbuilt hstopped
      cases reason with
      | error err => exact ⟨hstopped.config, hstopped.log⟩
      | panic => exact hbuilt
  . exact ⟨rfl, rfl⟩

end FixEngine

variable [Transport T]

open FixEngine (unaware_record)

theorem RunState.unaware_receive (e : FixEngine T) (a : A)
    : e.Unaware (receive e a).engine ∧ (receive e a).app = a := by
  unfold receive
  cases Transport.recv e.ctx.transport 8192 with
  | mk res transport =>
    cases res with
    | ok data =>
      dsimp only
      split
      . exact ⟨⟨rfl, rfl⟩, rfl⟩
      . refine ⟨⟨rfl, ?_⟩, rfl⟩
        change appLog (e.ctx.log ++ [.received data]) = _
        rw [appLog_append]
        exact List.append_nil _
    | error err =>
      dsimp only
      split
      . refine ⟨⟨rfl, ?_⟩, rfl⟩
        change appLog (e.ctx.log ++ [.disconnected]) = _
        rw [appLog_append]
        exact List.append_nil _
      . exact ⟨⟨rfl, rfl⟩, rfl⟩

theorem RunState.unaware_poll (e : FixEngine T) (a : A)
    : e.Unaware (poll e a).engine ∧ (poll e a).app = a := by
  unfold poll
  split
  . exact ⟨⟨rfl, rfl⟩, rfl⟩
  . have htimer : e.Unaware (timer e).2 := by
      obtain ⟨hsends, -, hlog⟩ := timer_sends e
      exact ⟨hsends.config, by rw [hlog]⟩
    cases htimed : timer e with
    | mk action e1 =>
      rw [htimed] at htimer
      have hreceived (e2 : FixEngine T) (he2 : e1.Unaware e2)
          : e.Unaware (receive e2 a).engine ∧ (receive e2 a).app = a := by
        obtain ⟨hunaware, happ⟩ := unaware_receive e2 a
        exact ⟨(htimer.trans he2).trans hunaware, happ⟩
      cases action with
      | none => exact hreceived e1 ⟨rfl, rfl⟩
      | disconnect => exact ⟨htimer.trans ⟨rfl, rfl⟩, rfl⟩
      | send data =>
        dsimp only
        split
        . have hbeat := e1.unaware_sendHeartbeat
          cases hsent : e1.sendHeartbeat with
          | next e2 =>
            rw [hsent] at hbeat
            exact hreceived e2 hbeat
          | halt reason e2 =>
            rw [hsent] at hbeat
            exact ⟨htimer.trans hbeat, rfl⟩
        . exact hreceived e1 ⟨rfl, rfl⟩

-- A relation between the application and the log, for the sessions with this configuration.
def Holds (config : SessionConfig) (R : A → List Event → Prop) (s : FixEngine T × A) : Prop :=
  s.1.ctx.session.config = config ∧ R s.2 (appLog s.1.ctx.log)

omit [Transport T] in
theorem Holds.of_unaware {config : SessionConfig} {R : A → List Event → Prop} {e e' : FixEngine T}
    {a : A} (h : Holds config R (e, a)) (hunaware : e.Unaware e')
    : Holds config R (e', a) := by
  refine ⟨hunaware.config.trans h.1, ?_⟩
  rw [hunaware.log]
  exact h.2

-- A callback that returns an error ends the run.
def Returned (R E : A → List Event → Prop)
    : (Except ErrorKind Unit × A) × EngineContext T → Prop
  | ((.ok _, a), ctx) => R a (appLog ctx.log)
  | ((.error _, a), ctx) => E a (appLog ctx.log)

def Upheld (config : SessionConfig) (R E : A → List Event → Prop)
    : Outcome (FixEngine T × A) → Prop
  | .next s => Holds config R s
  | .halt _ s => Holds config E s

-- What the callbacks have to preserve: `R` as long as the run goes on, and `E` once it has ended.
structure FixApp.Upholds (T : Type) [Transport T] (app : FixApp A) (config : SessionConfig)
    (R E : A → List Event → Prop) : Prop where
  ended : ∀ (a : A) (log : List Event), R a log → E a log
  onLogon : ∀ (a : A) (ctx : EngineContext T), ctx.session.config = config →
    R a (appLog ctx.log) → Returned R E ((app.onLogon a).run (ctx.record .onLogon))
  onMessage : ∀ (a : A) (msgType : Bytes) (view : MessageView) (expected : UInt64)
    (ctx : EngineContext T), ctx.session.config = config → view.Parsed msgType →
    R a (appLog ctx.log) →
    Returned R E
      ((app.onMessage a msgType view).run (ctx.record (.onMessage msgType view expected)))
  onLogout : ∀ (a : A) (ctx : EngineContext T), R a (appLog ctx.log) →
    Returned R E (app.onLogout a, ctx)

theorem FixApp.upholds_true (app : FixApp A) (config : SessionConfig)
    : app.Upholds T config (fun _ _ => True) (fun _ _ => True) := by
  have hall (res : (Except ErrorKind Unit × A) × EngineContext T)
      : Returned (fun _ _ => True) (fun _ _ => True) res := by
    rcases res with ⟨⟨res, a⟩, ctx⟩
    cases res with
    | error err => trivial
    | ok _ => trivial
  exact ⟨fun _ _ _ => trivial, fun _ _ _ _ => hall _, fun _ _ _ _ _ _ _ _ => hall _,
    fun _ _ _ => hall _⟩

namespace FixApp.Upholds

variable {app : FixApp A} {config : SessionConfig} {R E : A → List Event → Prop}

theorem holds_ended (h : app.Upholds T config R E) {s : FixEngine T × A} (hs : Holds config R s)
    : Holds config E s :=
  ⟨hs.1, h.ended _ _ hs.2⟩

theorem callback {e : FixEngine T} {prog : AppProg (Except ErrorKind Unit × A)}
    (hconfig : e.ctx.session.config = config) (hreturned : Returned R E (prog.run e.ctx))
    : Upheld config R E (e.callback prog) := by
  have hsends := (e.callback_sends prog).1.config.trans hconfig
  unfold FixEngine.callback at hsends ⊢
  cases hrun : prog.run e.ctx with
  | mk res ctx =>
    rw [hrun] at hreturned hsends
    rcases res with ⟨res, a⟩
    cases res with
    | error err => exact ⟨hsends, hreturned⟩
    | ok _ => exact ⟨hsends, hreturned⟩

-- The engine sends a message of its own before it goes on.
theorem upheld_bind (h : app.Upholds T config R E) {a : A} {o : Outcome (FixEngine T)}
    {f : FixEngine T → Outcome (FixEngine T × A)} (ho : Holds config R (o.state, a))
    (hf : ∀ e, o = .next e → Upheld config R E (f e))
    : Upheld config R E (o.bind f (·, a)) := by
  cases o with
  | next e => exact hf e rfl
  | halt reason e => exact h.holds_ended ho

theorem acceptLogon (h : app.Upholds T config R E) {e : FixEngine T} {a : A}
    (hs : Holds config R (e, a))
    : Upheld config R E (FixEngine.acceptLogon app e a) := by
  apply callback
  . exact hs.1
  . exact h.onLogon a e.ctx hs.1 hs.2

theorem handleLogon (h : app.Upholds T config R E) {e : FixEngine T} {a : A}
    (hs : Holds config R (e, a))
    : Upheld config R E (FixEngine.handleLogon app e a) := by
  unfold FixEngine.handleLogon
  dsimp only
  split
  . generalize he1 : (if e.ctx.session.state = .disconnected then e.connect else e) = e1
    have hs1 : Holds config R (e1, a) := by
      rw [← he1]
      split
      . exact hs.of_unaware e.unaware_connect
      . exact hs
    have hs2 : Holds config R (e1.atInstant .onLogon, a) := hs1.of_unaware ⟨rfl, rfl⟩
    have hs3 := hs2.of_unaware (e1.atInstant .onLogon).unaware_sendLogon
    apply h.upheld_bind hs3
    intro e2 hsent
    rw [hsent] at hs3
    exact h.acceptLogon hs3
  . split
    . have hs1 : Holds config R (e.atInstant .onLogon, a) := hs.of_unaware ⟨rfl, rfl⟩
      exact h.acceptLogon hs1
    . exact hs

theorem handleLogout (h : app.Upholds T config R E) {e : FixEngine T} {a : A}
    (hs : Holds config R (e, a))
    : Upheld config R E (FixEngine.handleLogout app e a) := by
  obtain ⟨hconfig, hR⟩ := hs.of_unaware (@unaware_record _ e .onLogout rfl)
  have hreturned := h.onLogout a (e.record .onLogout).ctx hR
  unfold FixEngine.handleLogout
  dsimp only
  cases hout : app.onLogout a with
  | mk res a' =>
    rw [hout] at hreturned
    cases res with
    | error err => exact ⟨hconfig, hreturned⟩
    | ok _ =>
      have hs1 : Holds config R (e.record .onLogout, a') := ⟨hconfig, hreturned⟩
      have hsent : Holds config R ((if (e.record .onLogout).ctx.session.state ≠ .logoutSent then
          (e.record .onLogout).sendLogout else .next (e.record .onLogout)).state, a') := by
        split
        . exact hs1.of_unaware (e.record .onLogout).unaware_sendLogout
        . exact hs1
      apply h.upheld_bind hsent
      intro e2 hnext
      rw [hnext] at hsent
      obtain ⟨hconfig2, hlog2⟩ := e2.unaware_disconnect
      exact hsent.of_unaware ⟨hconfig2, hlog2⟩

theorem dispatch (h : app.Upholds T config R E) {e : FixEngine T} {a : A} {view : MessageView}
    (hview : accepted view.buffer = some view) (expected : UInt64) (hs : Holds config R (e, a))
    : Upheld config R E (FixEngine.dispatch app e a view expected) := by
  unfold FixEngine.dispatch
  cases htype : view.msgType with
  | none => exact hs
  | some msgType =>
    dsimp only
    split
    . exact h.handleLogon hs
    . split
      . exact hs
      . split
        . have hs1 := hs.of_unaware e.unaware_sendHeartbeat
          apply h.upheld_bind hs1
          intro e1 hsent
          rw [hsent] at hs1
          exact hs1
        . split
          . exact h.handleLogout hs
          . apply callback
            . exact hs.1
            . exact h.onMessage a msgType view expected e.ctx hs.1 ⟨hview, htype⟩ hs.2

-- A state of the loop: `R` holds as long as it is running.
structure Keeping (config : SessionConfig) (R E : A → List Event → Prop) (s : RunState T A)
    : Prop where
  ended : Holds config E (s.engine, s.app)
  running : s.phase = .poll ∨ s.phase = .process → Holds config R (s.engine, s.app)

theorem keeping_of_holds (h : app.Upholds T config R E) {s : RunState T A}
    (hs : Holds config R (s.engine, s.app))
    : Keeping config R E s :=
  ⟨h.holds_ended hs, fun _ => hs⟩

theorem keeping_settle (h : app.Upholds T config R E) {phase : Phase}
    {o : Outcome (FixEngine T × A)} (ho : Upheld config R E o)
    : Keeping config R E (.settle phase o) := by
  cases o with
  | next s => exact h.keeping_of_holds ho
  | halt reason s =>
    refine ⟨ho, ?_⟩
    intro hrunning
    cases reason with
    | error err => simp [RunState.settle, RunState.halted] at hrunning
    | panic => simp [RunState.settle, RunState.halted] at hrunning

theorem keeping_settleEngine (h : app.Upholds T config R E) {phase : Phase} {a : A}
    {o : Outcome (FixEngine T)} (ho : Holds config R (o.state, a))
    : Keeping config R E (.settleEngine phase a o) := by
  cases o with
  | next e => exact h.keeping_of_holds ho
  | halt reason e => exact h.keeping_of_holds ho

theorem start (h : app.Upholds T config R E) (entry : Entry) {e : FixEngine T} {a : A}
    (hs : Holds config R (e, a))
    : Keeping config R E (entry.start e a) := by
  have hconnect := hs.of_unaware e.unaware_connect
  cases entry with
  | runInitiator =>
    apply h.keeping_settleEngine
    exact hconnect.of_unaware e.connect.unaware_sendLogon
  | runAcceptor => exact h.keeping_of_holds hs
  | handleInboundLogon =>
    apply h.keeping_settleEngine
    have hlogon : Holds config R (e.connect.atInstant .onLogon, a) :=
      hconnect.of_unaware ⟨rfl, rfl⟩
    have hhandled := hlogon.of_unaware (@unaware_record _ _ .handledLogon rfl)
    exact hhandled.of_unaware (FixEngine.unaware_sendLogon _)

theorem step (h : app.Upholds T config R E) {s : RunState T A} (hparser : s.engine.parser = .new)
    (hs : Keeping config R E s)
    : Keeping config R E (s.step app) := by
  rcases s with ⟨e, a, phase⟩
  cases phase with
  | poll =>
    obtain ⟨hunaware, happ⟩ := RunState.unaware_poll e a
    have hs1 : Holds config R (e, a) := hs.running (.inl rfl)
    apply h.keeping_of_holds
    change Holds config R ((RunState.poll e a).engine, (RunState.poll e a).app)
    rw [happ]
    exact hs1.of_unaware hunaware
  | returned res => exact hs
  | panicked => exact hs
  | process =>
    have hs1 : Holds config R (e, a) := hs.running (.inr rfl)
    change Keeping config R E (RunState.process app e a)
    unfold RunState.process
    cases htake : e.recv.takeFrame with
    | none =>
      apply h.keeping_settleEngine
      have hs2 := hs1.of_unaware e.unaware_endBatch
      exact hs2
    | some res =>
      obtain ⟨frame, recv⟩ := res
      apply h.keeping_settle
      let e1 := ({ e with recv } : FixEngine T).record (.taken frame)
      have hparser1 : e1.parser = .new := hparser
      have hs0 : Holds config R (({ e with recv } : FixEngine T), a) := hs1
      have hs2 : Holds config R (e1, a) :=
        hs0.of_unaware (@unaware_record _ { e with recv } (.taken frame) rfl)
      cases haccepted : accepted frame with
      | none =>
        rw [RunState.processMessage_of_rejected app a hparser1 haccepted]
        exact hs2
      | some view =>
        rw [RunState.processMessage_of_accepted app a hparser1 haccepted]
        apply h.dispatch _ _ (hs2.of_unaware (e1.unaware_validated view))
        rw [buffer_of_accepted haccepted]
        exact haccepted

end FixApp.Upholds

-- The application in the states in which it is meant to run; in the others it does nothing.
def FixApp.guarded (I : A → Prop) [DecidablePred I] (app : FixApp A) : FixApp A where
  onLogon a := if I a then app.onLogon a else .done (.ok (), a)
  onMessage a msgType view := if I a then app.onMessage a msgType view else .done (.ok (), a)
  onLogout a := if I a then app.onLogout a else (.ok (), a)

section Guarded

variable {I : A → Prop} [DecidablePred I] {app : FixApp A} {config : SessionConfig}

omit [Transport T] in
theorem FixApp.same_guarded {a : A} (h : I a) : app.Same (app.guarded I) a where
  onLogon := (if_pos h).symm
  onMessage := fun _ _ _ => (if_pos h).symm
  onLogout := (if_pos h).symm

theorem FixApp.converses_guarded
    (h : ∀ a, I a → ∀ ctx : EngineContext T, ctx.session.config = config →
      (app.onLogon a).Conveys ctx ∧ ∀ (msgType : Bytes) (view : MessageView),
        view.Parsed msgType → (app.onMessage a msgType view).Conveys ctx)
    : (app.guarded I).Converses T config := by
  intro a ctx hconfig
  unfold guarded
  dsimp only
  split
  . next ha => exact h a ha ctx hconfig
  . exact ⟨trivial, fun _ _ _ => trivial⟩

theorem FixApp.Upholds.guarded {R E : A → List Event → Prop} (h : app.Upholds T config R E)
    (hI : ∀ a log, R a log → I a)
    : (app.guarded I).Upholds T config R E where
  ended := h.ended
  onLogon := by
    intro a ctx hconfig hR
    rw [← (same_guarded (hI a _ hR)).onLogon]
    exact h.onLogon a ctx hconfig hR
  onMessage := by
    intro a msgType view expected ctx hconfig hview hR
    rw [← (same_guarded (hI a _ hR)).onMessage msgType view hview]
    exact h.onMessage a msgType view expected ctx hconfig hview hR
  onLogout := by
    intro a ctx hR
    rw [← (same_guarded (hI a _ hR)).onLogout]
    exact h.onLogout a ctx hR

end Guarded

-- The number of calls of `on_logon`.
def Event.isLogon : Event → Bool
  | .onLogon => true
  | _ => false

def logons (log : List Event) : Nat := log.countP Event.isLogon

omit [Transport T] in
theorem logons_eq_zero {evs : List Event} (h : .onLogon ∉ evs) : logons evs = 0 := by
  apply List.countP_eq_zero.mpr
  intro event hevent hlogon
  cases event with
  | onLogon => exact h hevent
  | _ => contradiction

-- An initiator is logged on once: it never comes back to the state in which it waits for the Logon.
structure RunState.LogsOnOnce (s : RunState T A) : Prop where
  role : s.engine.ctx.session.config.role = .initiator
  waiting : s.engine.ctx.session.state = .logonSent → logons s.engine.ctx.log = 0
  once : logons s.engine.ctx.log ≤ 1

namespace RunState.LogsOnOnce

variable {s s' : RunState T A} {evs : List Event} {frame : Bytes}

omit [Transport T] in
theorem append (h : s.LogsOnOnce)
    (hconfig : s'.engine.ctx.session.config = s.engine.ctx.session.config)
    (hlog : s'.engine.ctx.log = s.engine.ctx.log ++ evs) (hevs : .onLogon ∉ evs)
    (hstate : s'.engine.ctx.session.state = .logonSent → s.engine.ctx.session.state = .logonSent)
    : s'.LogsOnOnce := by
  have hsame : logons s'.engine.ctx.log = logons s.engine.ctx.log := by
    rw [hlog, logons, List.countP_append]
    exact Nat.add_eq_left.mpr (logons_eq_zero hevs)
  refine ⟨hconfig ▸ h.role, ?_, ?_⟩
  . intro hsent
    rw [hsame]
    exact h.waiting (hstate hsent)
  . rw [hsame]
    exact h.once

omit [Transport T] in
theorem idle (h : s.LogsOnOnce) (hidle : s.Idle s' evs) : s'.LogsOnOnce := by
  apply h.append hidle.config hidle.log
  . intro hmem
    exact hidle.events _ hmem
  . intro hsent
    cases hidle.state with
    | inl hstate => exact hstate ▸ hsent
    | inr hstate =>
      rw [hstate.1] at hsent
      contradiction

omit [Transport T] in
theorem took (h : s.LogsOnOnce) (htook : s.Took s' frame evs) : s'.LogsOnOnce := by
  cases haccepted : accepted frame with
  | none =>
    obtain ⟨hevs, hsession, -⟩ := htook.rejected haccepted
    apply h.append htook.config htook.log
    . rw [hevs]
      simp
    . rw [hsession]
      exact id
  | some view =>
    obtain ⟨e, hcontrol, hconfig, -, hhandled⟩ := htook.handled view haccepted
    have hback : e.ctx.session.state = .logonSent → s.engine.ctx.session.state = .logonSent := by
      intro hsent
      have hstate : e.ctx.session.state = (s.engine.ctx.session.control.receive view).state :=
        congrArg Control.state hcontrol
      cases s.engine.ctx.session.control.state_receive view with
      | inl hsame =>
        rw [hstate, hsame] at hsent
        exact hsent
      | inr hresending =>
        rw [hstate, hresending] at hsent
        contradiction
    have hwaits (hwaiting : Waiting e.ctx.session.config.role e.ctx.session.state)
        : s.engine.ctx.session.state = .logonSent := by
      rw [hconfig, h.role] at hwaiting
      cases hwaiting with
      | inl hacceptor => exact absurd hacceptor.1 (by decide)
      | inr hsent => exact hback hsent
    have hquiet (hevs : .onLogon ∉ evs)
        (hstate : s'.engine.ctx.session.state = .logonSent → e.ctx.session.state = .logonSent)
        : s'.LogsOnOnce := by
      apply h.append htook.config htook.log
      . rw [List.mem_cons, not_or]
        exact ⟨by simp, hevs⟩
      . exact fun hsent => hback (hstate hsent)
    have hnever {state : SessionState} (hstate : s'.engine.ctx.session.state = state)
        (hne : state ≠ .logonSent) (hsent : s'.engine.ctx.session.state = .logonSent)
        : e.ctx.session.state = .logonSent :=
      absurd (hstate.symm.trans hsent) hne
    cases hhandled with
    | ignored heq => exact hquiet (by simp) (heq ▸ id)
    | logonFailed msgs _ _ _ _ hstate => exact hquiet (by simp) (hnever hstate (by decide))
    | logon msgs msgs' _ hwaiting _ _ hstate =>
      have hnone := h.waiting (hwaits hwaiting)
      have hlogons : logons s'.engine.ctx.log = 1 := by
        have hsent (ms : List Outbound) : (ms.map Event.sent).countP Event.isLogon = 0 :=
          logons_eq_zero (by simp)
        unfold logons at hnone ⊢
        rw [htook.log]
        simp only [List.countP_append, List.countP_cons, hnone, hsent, Event.isLogon]
        rfl
      refine ⟨htook.config ▸ h.role, ?_, Nat.le_of_eq hlogons⟩
      intro hsent
      cases hstate with
      | inl hactive => exact absurd (hactive.symm.trans hsent) (by decide)
      | inr hlogout => exact absurd (hlogout.symm.trans hsent) (by decide)
    | testRequest msgs _ _ _ hstate => exact hquiet (by simp) (fun hsent => hstate ▸ hsent)
    | logoutFailed msgs _ _ hstate => exact hquiet (by simp) (fun hsent => hstate ▸ hsent)
    | logout msgs _ _ _ hstate => exact hquiet (by simp) (hnever hstate (by decide))
    | message msgType msgs _ _ _ _ hstate =>
      apply hquiet (by simp)
      intro hsent
      cases hstate with
      | inl hsame => exact hsame ▸ hsent
      | inr hlogout => exact hnever hlogout (by decide) hsent

theorem step (app : FixApp A) (hparser : s.engine.parser = .new) (h : s.LogsOnOnce)
    : (s.step app).LogsOnOnce := by
  rcases step_cases app hparser with ⟨evs, hidle⟩ | ⟨frame, evs, htook⟩
  . exact h.idle hidle
  . exact h.took htook

theorem start {e : FixEngine T} (a : A) (hrole : e.ctx.session.config.role = .initiator)
    (hlog : e.ctx.log = [])
    : (Entry.runInitiator.start e a).LogsOnOnce := by
  have hsends := e.sends_connect.trans e.connect.sendLogon_sends
  obtain ⟨msgs, hmsgs⟩ := hsends.log
  have hnone : logons (Entry.runInitiator.start e a).engine.ctx.log = 0 := by
    change logons (RunState.settleEngine .poll a e.connect.sendLogon).engine.ctx.log = 0
    rw [settleEngine_engine, hmsgs, hlog]
    exact logons_eq_zero (by simp)
  refine ⟨?_, fun _ => hnone, by omega⟩
  change (RunState.settleEngine .poll a e.connect.sendLogon).engine.ctx.session.config.role = _
  rw [settleEngine_engine, hsends.config]
  exact hrole

end RunState.LogsOnOnce

end Velocitas
