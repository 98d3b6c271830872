import VelocitasFix.Engine.Run

/-!
This module contains the induction principle for properties of what an engine sends: a property of
the context that survives every message built by the engine, every callback and everything that sends
nothing is preserved by each operation of the loop.
-/

namespace Velocitas

variable {T A : Type}

abbrev Builder : Type := SessionConfig → UInt64 → Bytes → OutMessage

def Event.outbound : Event → Option Outbound
  | .sent message => some message
  | _ => none

def sentOf (log : List Event) : List Outbound := log.filterMap Event.outbound

@[simp]
theorem sentOf_append (log log' : List Event) : sentOf (log ++ log') = sentOf log ++ sentOf log' := by
  simp [sentOf]

-- Nothing is sent, and what the next message depends on is as before.
structure EngineContext.Quiet (ctx ctx' : EngineContext T) : Prop where
  transport : ctx'.transport = ctx.transport
  config : ctx'.session.config = ctx.session.config
  outbound : ctx'.session.outboundSeqNum = ctx.session.outboundSeqNum
  sent : sentOf ctx'.log = sentOf ctx.log

namespace FixEngine

theorem quiet_atInstant (e : FixEngine T) {f : Session → Instant → Session}
    (hconfig : ∀ s now, (f s now).config = s.config)
    (houtbound : ∀ s now, (f s now).outboundSeqNum = s.outboundSeqNum)
    : e.ctx.Quiet (e.atInstant f).ctx where
  transport := rfl
  config := hconfig _ _
  outbound := houtbound _ _
  sent := rfl

theorem quiet_onMessageSent (e : FixEngine T) : e.ctx.Quiet (e.atInstant .onMessageSent).ctx :=
  e.quiet_atInstant (fun _ _ => rfl) (fun _ _ => rfl)

theorem quiet_onLogon (e : FixEngine T) : e.ctx.Quiet (e.atInstant .onLogon).ctx :=
  e.quiet_atInstant (fun _ _ => rfl) (fun _ _ => rfl)

theorem quiet_record (e : FixEngine T) {event : Event} (h : event.outbound = none)
    : e.ctx.Quiet (e.record event).ctx where
  transport := rfl
  config := rfl
  outbound := rfl
  sent := by
    rw [record_log, sentOf_append]
    simp [sentOf, h]

theorem quiet_connect (e : FixEngine T) : e.ctx.Quiet e.connect.ctx where
  transport := rfl
  config := (e.ctx.session.onConnected_fields _ _).1
  outbound := (e.ctx.session.onConnected_fields _ _).2.1
  sent := rfl

theorem quiet_disconnect (e : FixEngine T) : e.ctx.Quiet e.disconnect.ctx where
  transport := rfl
  config := rfl
  outbound := rfl
  sent := by
    change sentOf (e.ctx.log ++ [Event.disconnected]) = _
    rw [sentOf_append]
    exact List.append_nil _

theorem quiet_validated (e : FixEngine T) (view : MessageView)
    : e.ctx.Quiet (e.validated view).ctx := by
  rcases e.validated_fields view with ⟨_, _, _, _, hconfig, houtbound, htransport, hlog⟩
  exact ⟨htransport, hconfig, houtbound, by rw [hlog]⟩

end FixEngine

variable [Transport T]

-- What a callback changes when it sends something and the transport takes it.
structure EngineContext.RawSent (ctx ctx' : EngineContext T) (data : Bytes) : Prop where
  transport : ctx'.transport = (Transport.send ctx.transport data).2
  config : ctx'.session.config = ctx.session.config
  state : ctx'.session.state = ctx.session.state
  outbound : ctx'.session.outboundSeqNum = ctx.session.outboundSeqNum + 1
  log : ctx'.log = ctx.log ++ [.sent (.raw data)]

theorem EngineContext.sendRaw_of_ok (ctx : EngineContext T) {data : Bytes} {k : Nat}
    (h : (Transport.send ctx.transport data).1 = .ok k)
    : ctx.RawSent (ctx.sendRaw data).2 data := by
  unfold sendRaw send
  cases hres : Transport.send ctx.transport data with
  | mk res transport =>
    rw [hres] at h
    dsimp only at h
    subst h
    constructor
    . rw [hres]
      rfl
    all_goals rfl

-- A message is handed to the transport if it fits the send buffer, and the engine panics if not.
theorem FixEngine.sendBuilt_log (e : FixEngine T) (message : Builder)
    : (∃ e', e.sendBuilt message = .halt .panic e' ∧ e'.ctx.log = e.ctx.log)
        ∨ ((e.nextMessage message).bytes.length ≤ e.sendBuf.length
          ∧ (e.sendBuilt message).state.ctx.log
            = e.ctx.log ++ [.sent (.built (e.nextMessage message))]) := by
  by_cases hfits : (e.nextMessage message).bytes.length ≤ e.sendBuf.length
  . rcases FixSerializer.serialize_of_le hfits with ⟨ser, hser, -, -⟩
    right
    refine ⟨hfits, ?_⟩
    unfold sendBuilt
    dsimp [Session.nextOutboundSeqNum]
    change FixSerializer.serialize e.sendBuf (message _ _ _) = _ at hser
    rw [hser]
    simp only [transmit, EngineContext.send]
    split
    all_goals
      next heq =>
        injection heq with _ heq
        rw [← heq]
        rfl
  . have hcases := e.sendBuilt_cases message
    generalize e.sendBuilt message = o at hcases ⊢
    cases hcases with
    | panicked e' _ _ _ _ _ hlog => exact .inl ⟨e', rfl, hlog⟩
    | failed _ _ hle => exact absurd hle hfits
    | sent _ _ hle => exact absurd hle hfits

theorem EngineContext.sendRaw_log (ctx : EngineContext T) (data : Bytes)
    : (ctx.sendRaw data).2.log = ctx.log ++ [.sent (.raw data)] := by
  unfold sendRaw send
  cases Transport.send ctx.transport data with
  | mk res transport =>
    cases res with
    | error err => rfl
    | ok k => rfl

theorem FixEngine.sendBuilt_clock (e : FixEngine T) (message : Builder)
    : (e.sendBuilt message).state.ctx.clock = e.ctx.clock.tick := by
  unfold sendBuilt
  dsimp [Session.nextOutboundSeqNum]
  unfold transmit
  split
  . rfl
  . simp only [EngineContext.send]
    split
    all_goals
      next heq =>
        injection heq with _ heq
        rw [← heq]
        rfl

structure Preserved (app : FixApp A) (kinds : List Builder) (P : EngineContext T → Prop) : Prop where
  quiet : ∀ {ctx ctx' : EngineContext T}, ctx.Quiet ctx' → P ctx → P ctx'
  built : ∀ message ∈ kinds, ∀ e : FixEngine T, e.sendBuf.length = 4096 → P e.ctx →
    P (e.sendBuilt message).state.ctx
  onLogon : ∀ (a : A) (ctx : EngineContext T), P ctx → P ((app.onLogon a).run ctx).2
  onMessage : ∀ (a : A) (msgType : Bytes) (view : MessageView) (ctx : EngineContext T), P ctx →
    P ((app.onMessage a msgType view).run ctx).2

namespace Preserved

variable {app : FixApp A} {kinds : List Builder} {P : EngineContext T → Prop}

open FixEngine

theorem built_bind (h : Preserved app kinds P) {message : Builder} (hkind : message ∈ kinds)
    {f : FixEngine T → FixEngine T} (hf : ∀ e : FixEngine T, e.ctx.Quiet (f e).ctx)
    {e : FixEngine T} (hlen : e.sendBuf.length = 4096) (hP : P e.ctx)
    : P ((e.sendBuilt message).bind (fun e => .next (f e)) id).state.ctx := by
  have hbuilt := h.built message hkind e hlen hP
  cases hsent : e.sendBuilt message with
  | next e' =>
    rw [hsent] at hbuilt
    exact h.quiet (hf e') hbuilt
  | halt reason e' =>
    rw [hsent] at hbuilt
    exact hbuilt

theorem sendLogon (h : Preserved app kinds P) (hkind : logonMessage ∈ kinds) {e : FixEngine T}
    (hlen : e.sendBuf.length = 4096) (hP : P e.ctx)
    : P e.sendLogon.state.ctx :=
  h.built_bind hkind quiet_onMessageSent hlen hP

theorem sendHeartbeat (h : Preserved app kinds P) (hkind : heartbeatMessage ∈ kinds)
    {e : FixEngine T} (hlen : e.sendBuf.length = 4096) (hP : P e.ctx)
    : P e.sendHeartbeat.state.ctx :=
  h.built_bind hkind quiet_onMessageSent hlen hP

theorem sendLogout (h : Preserved app kinds P) (hkind : logoutMessage ∈ kinds) {e : FixEngine T}
    (hlen : e.sendBuf.length = 4096) (hP : P e.ctx)
    : P e.sendLogout.state.ctx :=
  h.built_bind (f := fun e => (e.modifySession .onLogoutSent).atInstant .onMessageSent) hkind
    (fun _ => ⟨rfl, rfl, rfl, rfl⟩) hlen hP

theorem callback_state (e : FixEngine T) (prog : AppProg (Except ErrorKind Unit × A))
    : (e.callback prog).state.1.ctx = (prog.run e.ctx).2 := by
  unfold callback
  cases prog.run e.ctx with
  | mk res ctx =>
    rcases res with ⟨res, a⟩
    cases res with
    | error err => rfl
    | ok _ => rfl

theorem acceptLogon (h : Preserved app kinds P) {e : FixEngine T} (a : A) (hP : P e.ctx)
    : P (acceptLogon app e a).state.1.ctx := by
  unfold FixEngine.acceptLogon
  rw [callback_state]
  apply h.onLogon
  apply h.quiet _ hP
  exact e.quiet_record rfl

theorem handleLogon (h : Preserved app kinds P) (hkind : logonMessage ∈ kinds) {e : FixEngine T}
    (a : A) (hlen : e.sendBuf.length = 4096) (hP : P e.ctx)
    : P (handleLogon app e a).state.1.ctx := by
  have hlogon (e : FixEngine T) (hP : P e.ctx) : P (e.atInstant .onLogon).ctx :=
    h.quiet e.quiet_onLogon hP
  unfold FixEngine.handleLogon
  dsimp only
  split
  . generalize he1 : (if e.ctx.session.state = .disconnected then e.connect else e) = e1
    have he1P : P e1.ctx ∧ e1.sendBuf.length = 4096 := by
      rw [← he1]
      split
      . exact ⟨h.quiet e.quiet_connect hP, hlen⟩
      . exact ⟨hP, hlen⟩
    have hsent := h.sendLogon (e := e1.atInstant .onLogon) hkind he1P.2 (hlogon e1 he1P.1)
    cases hout : (e1.atInstant .onLogon).sendLogon with
    | next e2 =>
      rw [hout] at hsent
      exact h.acceptLogon a hsent
    | halt reason e2 =>
      rw [hout] at hsent
      exact hsent
  . split
    . exact h.acceptLogon a (hlogon e hP)
    . exact hP

theorem handleLogout (h : Preserved app kinds P) (hkind : logoutMessage ∈ kinds) {e : FixEngine T}
    (a : A) (hlen : e.sendBuf.length = 4096) (hP : P e.ctx)
    : P (handleLogout app e a).state.1.ctx := by
  have hrecord : P (e.record .onLogout).ctx := h.quiet (e.quiet_record rfl) hP
  unfold FixEngine.handleLogout
  dsimp only
  cases app.onLogout a with
  | mk res a =>
    cases res with
    | error err => exact hrecord
    | ok _ =>
      dsimp only
      split
      . have hsent := h.sendLogout hkind (e := e.record .onLogout) hlen hrecord
        cases hout : (e.record .onLogout).sendLogout with
        | next e1 =>
          rw [hout] at hsent
          exact h.quiet e1.quiet_disconnect hsent
        | halt reason e1 =>
          rw [hout] at hsent
          exact hsent
      . exact h.quiet (e.record .onLogout).quiet_disconnect hrecord

-- Only an inbound Logout makes the dispatch send one.
theorem dispatch (h : Preserved app kinds P) (hlogon : logonMessage ∈ kinds)
    (hheartbeat : heartbeatMessage ∈ kinds) {e : FixEngine T} (a : A) {view : MessageView}
    (hlogout : view.msgType = some MsgType.logout → logoutMessage ∈ kinds) (expected : UInt64)
    (hlen : e.sendBuf.length = 4096) (hP : P e.ctx)
    : P (dispatch app e a view expected).state.1.ctx := by
  unfold FixEngine.dispatch
  cases htype : view.msgType with
  | none => exact hP
  | some msgType =>
    dsimp only
    split
    . exact h.handleLogon hlogon a hlen hP
    . split
      . exact hP
      . split
        . have hsent := h.sendHeartbeat hheartbeat hlen hP
          cases hout : e.sendHeartbeat with
          | next e1 =>
            rw [hout] at hsent
            exact hsent
          | halt reason e1 =>
            rw [hout] at hsent
            exact hsent
        . split
          . next heq =>
            rw [htype, heq] at hlogout
            exact h.handleLogout (hlogout rfl) a hlen hP
          . rw [callback_state]
            apply h.onMessage
            apply h.quiet _ hP
            exact e.quiet_record rfl

theorem endBatch (h : Preserved app kinds P) {e : FixEngine T}
    (hlogout : e.ctx.session.state = .logoutSent → logoutMessage ∈ kinds)
    (hlen : e.sendBuf.length = 4096) (hP : P e.ctx)
    : P e.endBatch.state.ctx := by
  unfold FixEngine.endBatch
  split
  . exact hP
  . next hstate =>
    have hsent := h.built logoutMessage (hlogout hstate) e hlen hP
    cases hout : e.sendBuilt logoutMessage with
    | next e1 =>
      rw [hout] at hsent
      exact h.quiet e1.quiet_disconnect hsent
    | halt reason e1 =>
      rw [hout] at hsent
      cases reason with
      | panic => exact hsent
      | error err => exact h.quiet e1.quiet_disconnect hsent
  . exact hP

theorem process (h : Preserved app kinds P) (hlogon : logonMessage ∈ kinds)
    (hheartbeat : heartbeatMessage ∈ kinds) {e : FixEngine T} (a : A) {frame : Bytes}
    {recv : RecvBuffer} (hparser : e.parser = .new)
    (htake : e.recv.takeFrame = some (frame, recv))
    (hlogout : ∀ view, accepted frame = some view → view.msgType = some MsgType.logout →
      logoutMessage ∈ kinds)
    (hlen : e.sendBuf.length = 4096) (hP : P e.ctx)
    : P (RunState.process app e a).engine.ctx := by
  let e1 := ({ e with recv } : FixEngine T).record (.taken frame)
  have hparser1 : e1.parser = .new := hparser
  have hP1 : P e1.ctx := h.quiet (({ e with recv } : FixEngine T).quiet_record rfl) hP
  have hprocess : RunState.process app e a
      = .settle .process (FixEngine.processMessage app e1 a frame) := by
    simp only [RunState.process, htake, e1]
  rw [hprocess, RunState.settle_engine]
  cases haccepted : accepted frame with
  | none =>
    rw [RunState.processMessage_of_rejected app a hparser1 haccepted]
    exact hP1
  | some view =>
    rw [RunState.processMessage_of_accepted app a hparser1 haccepted]
    apply h.dispatch hlogon hheartbeat a (hlogout view haccepted)
    . rw [(e1.validated_fields view).2.2.1]
      exact hlen
    . exact h.quiet (e1.quiet_validated view) hP1

theorem timer (h : Preserved app kinds P) {e : FixEngine T} (hP : P e.ctx)
    : P (RunState.timer e).2.ctx := by
  apply h.quiet _ hP
  have hsends := RunState.timer_sends e
  constructor
  . rfl
  . exact hsends.1.config
  . exact (e.ctx.session.checkHeartbeat_fields e.ctx.clock.now).2.2.1
  . rw [hsends.2.2]

end Preserved

-- What the loop does before it reads the transport: the timer, and the heartbeat that is due.
inductive RunState.Polled (P : EngineContext T → Prop) (e : FixEngine T) (a : A)
    : RunState T A → Prop where
  | finished (e' : FixEngine T) (hkeeps : e.Keeps e') (hlog : e'.ctx.log = e.ctx.log)
    (hP : P e'.ctx) : Polled P e a (finish e' a)
  | halted (reason : Halt) (e' : FixEngine T) (hsends : e.Sends e') (hP : P e'.ctx)
    : Polled P e a ⟨e', a, halted reason⟩
  | received (e' : FixEngine T) (hstop : e.shouldStop = false) (hsends : e.Sends e')
    (hstate : e'.ctx.session.state = e.ctx.session.state) (hP : P e'.ctx)
    : Polled P e a (receive e' a)

-- The transport is read and closed without an effect on the property.
structure Preserved.Passive (P : EngineContext T → Prop) : Prop where
  received : ∀ (ctx : EngineContext T) (n : Nat), P ctx →
    P { ctx with transport := (Transport.recv ctx.transport n).2 }
  closed : ∀ ctx : EngineContext T, P ctx →
    P { ctx with transport := (Transport.close ctx.transport).2 }

namespace Preserved

variable {app : FixApp A} {kinds : List Builder} {P : EngineContext T → Prop}

theorem receive (h : Preserved app kinds P) (hpassive : Passive P) {e : FixEngine T} (a : A)
    (hP : P e.ctx)
    : P (RunState.receive e a).engine.ctx := by
  have hreceived := hpassive.received e.ctx 8192 hP
  unfold RunState.receive
  cases hrecv : Transport.recv e.ctx.transport 8192 with
  | mk res transport =>
    rw [hrecv] at hreceived
    let e1 : FixEngine T := { e with ctx := { e.ctx with transport } }
    cases res with
    | ok data =>
      dsimp only
      split
      . exact hreceived
      . exact h.quiet (e1.quiet_record rfl) hreceived
    | error err =>
      dsimp only
      split
      . exact hpassive.closed _ (h.quiet e1.quiet_disconnect hreceived)
      . exact hreceived

theorem polled (h : Preserved app kinds P) (hheartbeat : FixEngine.heartbeatMessage ∈ kinds)
    {e : FixEngine T} (a : A) (hlen : e.sendBuf.length = 4096) (hP : P e.ctx)
    : RunState.Polled P e a (RunState.poll e a) := by
  unfold RunState.poll
  split
  . exact .finished e (.refl e) rfl hP
  . next hstop =>
    rw [Bool.not_eq_true] at hstop
    have htimer := h.timer hP
    obtain ⟨hsends, hstate, hlog⟩ := RunState.timer_sends e
    cases htimed : RunState.timer e with
    | mk action e1 =>
      rw [htimed] at htimer hsends hstate hlog
      have hreceived : RunState.Polled P e a (RunState.receive e1 a) :=
        .received e1 hstop hsends hstate htimer
      cases action with
      | none => exact hreceived
      | disconnect =>
        exact .finished _
          ⟨hsends.parser, hsends.recv, hsends.sendBuf, hsends.config, hsends.inbound⟩ hlog htimer
      | send data =>
        dsimp only
        split
        . have hsent := h.sendHeartbeat hheartbeat (hsends.sendBuf.trans hlen) htimer
          have hsends1 := hsends.trans e1.sendHeartbeat_sends
          have hstate1 := e1.sendHeartbeat_state.trans hstate
          cases hout : e1.sendHeartbeat with
          | next e2 =>
            rw [hout] at hsent hsends1 hstate1
            exact .received e2 hstop hsends1 hstate1 hsent
          | halt reason e2 =>
            rw [hout] at hsent hsends1
            exact .halted reason e2 hsends1 hsent
        . exact hreceived

theorem poll (h : Preserved app kinds P) (hpassive : Passive P)
    (hheartbeat : FixEngine.heartbeatMessage ∈ kinds) {e : FixEngine T} (a : A)
    (hlen : e.sendBuf.length = 4096) (hP : P e.ctx)
    : P (RunState.poll e a).engine.ctx := by
  have hpolled := h.polled hheartbeat a hlen hP
  generalize RunState.poll e a = s at hpolled
  cases hpolled with
  | finished e' _ _ hP' => exact hpassive.closed _ hP'
  | halted reason e' _ hP' => exact hP'
  | received e' _ _ _ hP' => exact h.receive hpassive a hP'

def allKinds : List Builder :=
  [FixEngine.logonMessage, FixEngine.heartbeatMessage, FixEngine.logoutMessage]

theorem step (h : Preserved app allKinds P) (hpassive : Passive P) {s : RunState T A}
    (hparser : s.engine.parser = .new) (hlen : s.engine.sendBuf.length = 4096)
    (hP : P s.engine.ctx)
    : P (RunState.step app s).engine.ctx := by
  cases s with
  | mk e a phase =>
    cases phase with
    | poll => exact h.poll hpassive (by simp [allKinds]) a hlen hP
    | process =>
      cases htake : e.recv.takeFrame with
      | none =>
        have hprocess : RunState.step app ⟨e, a, .process⟩ = .settleEngine .poll a e.endBatch := by
          simp only [RunState.step, RunState.process, htake]
        rw [hprocess, settleEngine_engine]
        exact h.endBatch (fun _ => by simp [allKinds]) hlen hP
      | some res =>
        exact h.process (by simp [allKinds]) (by simp [allKinds]) a hparser htake
          (fun _ _ _ => by simp [allKinds]) hlen hP
    | returned res => exact hP
    | panicked => exact hP

end Preserved

end Velocitas
