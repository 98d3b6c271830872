import VelocitasFix.Engine.Impl
import VelocitasFix.Serializer.Message
import VelocitasFix.Session.Lemmas

/-!
This module contains what each operation of the engine can do to the session and to the log, with
one lemma for each sender, for callbacks and for the handling of an inbound message.
-/

namespace Velocitas

variable {T A : Type}

def Outcome.Left {S : Type} : Outcome S → Prop
  | .next _ => False
  | .halt _ _ => True

-- What no operation on behalf of a message changes, once the number of the message is validated.
structure FixEngine.Keeps (e e' : FixEngine T) : Prop where
  parser : e'.parser = e.parser
  recv : e'.recv = e.recv
  sendBuf : e'.sendBuf.length = e.sendBuf.length
  config : e'.ctx.session.config = e.ctx.session.config
  inbound : e'.ctx.session.inboundSeqNum = e.ctx.session.inboundSeqNum

-- Between the two engines nothing happened but messages being handed to the transport.
structure FixEngine.Sends (e e' : FixEngine T) : Prop extends e.Keeps e' where
  shouldStop : e'.shouldStop = e.shouldStop
  log : ∃ msgs : List Outbound, e'.ctx.log = e.ctx.log ++ msgs.map Event.sent

namespace FixEngine

theorem Keeps.refl (e : FixEngine T) : e.Keeps e :=
  ⟨rfl, rfl, rfl, rfl, rfl⟩

theorem Keeps.trans {e1 e2 e3 : FixEngine T} (h : e1.Keeps e2) (h' : e2.Keeps e3)
    : e1.Keeps e3 where
  parser := h'.parser.trans h.parser
  recv := h'.recv.trans h.recv
  sendBuf := h'.sendBuf.trans h.sendBuf
  config := h'.config.trans h.config
  inbound := h'.inbound.trans h.inbound

theorem Sends.refl (e : FixEngine T) : e.Sends e :=
  ⟨.refl e, rfl, [], by simp⟩

theorem Sends.trans {e1 e2 e3 : FixEngine T} (h : e1.Sends e2) (h' : e2.Sends e3)
    : e1.Sends e3 := by
  rcases h.log with ⟨msgs, hlog⟩
  rcases h'.log with ⟨msgs', hlog'⟩
  refine ⟨h.toKeeps.trans h'.toKeeps, h'.shouldStop.trans h.shouldStop, msgs ++ msgs', ?_⟩
  rw [hlog', hlog]
  simp

@[simp]
theorem record_log (e : FixEngine T) (event : Event)
    : (e.record event).ctx.log = e.ctx.log ++ [event] := rfl

@[simp]
theorem record_session (e : FixEngine T) (event : Event)
    : (e.record event).ctx.session = e.ctx.session := rfl

@[simp]
theorem atInstant_log (e : FixEngine T) (f : Session → Instant → Session)
    : (e.atInstant f).ctx.log = e.ctx.log := rfl

theorem sends_atInstant (e : FixEngine T) {f : Session → Instant → Session}
    (hconfig : ∀ s now, (f s now).config = s.config)
    (hinbound : ∀ s now, (f s now).inboundSeqNum = s.inboundSeqNum)
    : e.Sends (e.atInstant f) :=
  ⟨⟨rfl, rfl, rfl, hconfig _ _, hinbound _ _⟩, rfl, [], by simp⟩

theorem sends_onMessageSent (e : FixEngine T) : e.Sends (e.atInstant .onMessageSent) :=
  e.sends_atInstant (fun _ _ => rfl) (fun _ _ => rfl)

theorem sends_onLogon (e : FixEngine T) : e.Sends (e.atInstant .onLogon) :=
  e.sends_atInstant (fun _ _ => rfl) (fun _ _ => rfl)

theorem sends_connect (e : FixEngine T) : e.Sends e.connect := by
  have hfields := e.ctx.session.onConnected_fields e.ctx.clock.now e.ctx.clock.tick.now
  refine ⟨⟨rfl, rfl, rfl, hfields.1, hfields.2.2⟩, rfl, [], ?_⟩
  simp [connect, modifySession, EngineContext.modifySession]

-- The message a sender builds, with the outbound number and the time it finds.
def nextMessage (e : FixEngine T) (message : SessionConfig → UInt64 → Bytes → OutMessage)
    : OutMessage :=
  message e.ctx.session.config e.ctx.session.outboundSeqNum e.ctx.clock.timestamp

variable [Transport T]

inductive SendBuilt (e : FixEngine T) (m : OutMessage) : Outcome (FixEngine T) → Prop where
  | panicked (e' : FixEngine T) (hfits : e.sendBuf.length < m.bytes.length) (hsends : e.Sends e')
    (hstate : e'.ctx.session.state = e.ctx.session.state)
    (hsession : e'.ctx.session = e.ctx.session.nextOutboundSeqNum.2)
    (htransport : e'.ctx.transport = e.ctx.transport) (hlog : e'.ctx.log = e.ctx.log)
    : SendBuilt e m (.halt .panic e')
  | failed (e' : FixEngine T) (err : ErrorKind) (hfits : m.bytes.length ≤ e.sendBuf.length)
    (hsend : (Transport.send e.ctx.transport m.bytes).1 = .error err) (hsends : e.Sends e')
    (hstate : e'.ctx.session.state = e.ctx.session.state)
    : SendBuilt e m (.halt (.error err) e')
  | sent (e' : FixEngine T) (k : Nat) (hfits : m.bytes.length ≤ e.sendBuf.length)
    (hsend : (Transport.send e.ctx.transport m.bytes).1 = .ok k) (hsends : e.Sends e')
    (hstate : e'.ctx.session.state = e.ctx.session.state)
    (hlog : e'.ctx.log = e.ctx.log ++ [.sent (.built m)])
    (hsession : e'.ctx.session = e.ctx.session.nextOutboundSeqNum.2)
    (htransport : e'.ctx.transport = (Transport.send e.ctx.transport m.bytes).2)
    : SendBuilt e m (.next e')

theorem sendBuilt_cases (e : FixEngine T) (message : SessionConfig → UInt64 → Bytes → OutMessage)
    : SendBuilt e (e.nextMessage message) (e.sendBuilt message) := by
  unfold sendBuilt
  dsimp [Session.nextOutboundSeqNum]
  change SendBuilt e (e.nextMessage message) (transmit _ (e.nextMessage message) _)
  by_cases hfits : (e.nextMessage message).bytes.length ≤ e.sendBuf.length
  . rcases FixSerializer.serialize_of_le hfits with ⟨ser, hser, hlen, hbytes⟩
    change FixSerializer.serialize e.sendBuf (message _ _ _) = _ at hser
    rw [hser]
    simp only [transmit, EngineContext.send, hbytes]
    cases hsend : Transport.send e.ctx.transport (e.nextMessage message).bytes with
    | mk res transport =>
      cases res with
      | error err =>
        apply SendBuilt.failed _ _ hfits
        . rw [hsend]
        . exact ⟨⟨rfl, rfl, hlen, rfl, rfl⟩, rfl, [_], rfl⟩
        . rfl
      | ok k =>
        apply SendBuilt.sent _ k hfits
        . rw [hsend]
        . exact ⟨⟨rfl, rfl, hlen, rfl, rfl⟩, rfl, [_], rfl⟩
        . rfl
        . rfl
        . rfl
        . rw [hsend]
          rfl
  . have hnone := FixSerializer.serialize_of_lt (Nat.lt_of_not_le hfits)
    change FixSerializer.serialize e.sendBuf (message _ _ _) = _ at hnone
    rw [hnone]
    apply SendBuilt.panicked _ (Nat.lt_of_not_le hfits)
    . exact ⟨⟨rfl, rfl, rfl, rfl, rfl⟩, rfl, [], by simp⟩
    . rfl
    . rfl
    . rfl
    . rfl

-- A message that fits the buffer and that the transport takes.
theorem exists_sendBuilt_of_ok {e : FixEngine T}
    {message : SessionConfig → UInt64 → Bytes → OutMessage} {k : Nat}
    (hfits : (e.nextMessage message).bytes.length ≤ e.sendBuf.length)
    (hsend : (Transport.send e.ctx.transport (e.nextMessage message).bytes).1 = .ok k)
    : ∃ e', e.sendBuilt message = .next e' ∧ e.Sends e'
        ∧ e'.ctx.log = e.ctx.log ++ [.sent (.built (e.nextMessage message))]
        ∧ e'.ctx.session = e.ctx.session.nextOutboundSeqNum.2
        ∧ e'.ctx.transport = (Transport.send e.ctx.transport (e.nextMessage message).bytes).2 := by
  have hcases := e.sendBuilt_cases message
  generalize e.sendBuilt message = o at hcases
  cases hcases with
  | panicked e' hpanic => omega
  | failed e' err _ hfailed =>
    rw [hsend] at hfailed
    contradiction
  | sent e' _ _ _ hsends _ hlog hsession htransport =>
    exact ⟨e', rfl, hsends, hlog, hsession, htransport⟩

theorem sendBuilt_sends (e : FixEngine T) (message : SessionConfig → UInt64 → Bytes → OutMessage)
    : e.Sends (e.sendBuilt message).state
        ∧ (e.sendBuilt message).state.ctx.session.state = e.ctx.session.state := by
  have hcases := e.sendBuilt_cases message
  generalize e.sendBuilt message = o at hcases
  cases hcases with
  | panicked e' _ hsends hstate => exact ⟨hsends, hstate⟩
  | failed e' err _ _ hsends hstate => exact ⟨hsends, hstate⟩
  | sent e' k _ _ hsends hstate => exact ⟨hsends, hstate⟩

theorem sendBuilt_bind_sends (e : FixEngine T)
    (message : SessionConfig → UInt64 → Bytes → OutMessage) {f : FixEngine T → FixEngine T}
    (hf : ∀ e : FixEngine T, e.Sends (f e))
    : e.Sends ((e.sendBuilt message).bind (fun e => .next (f e)) id).state := by
  have hsends := (e.sendBuilt_sends message).1
  cases hbuilt : e.sendBuilt message with
  | next e' =>
    rw [hbuilt] at hsends
    exact hsends.trans (hf e')
  | halt reason e' =>
    rw [hbuilt] at hsends
    exact hsends

theorem sendLogon_sends (e : FixEngine T) : e.Sends e.sendLogon.state :=
  e.sendBuilt_bind_sends logonMessage fun e => e.sends_onMessageSent

theorem sendHeartbeat_sends (e : FixEngine T) : e.Sends e.sendHeartbeat.state :=
  e.sendBuilt_bind_sends heartbeatMessage fun e => e.sends_onMessageSent

theorem sendLogout_sends (e : FixEngine T) : e.Sends e.sendLogout.state := by
  apply e.sendBuilt_bind_sends logoutMessage
  intro e
  have hlogout : e.Sends (e.modifySession .onLogoutSent) :=
    ⟨⟨rfl, rfl, rfl, rfl, rfl⟩, rfl, [], by simp [modifySession, EngineContext.modifySession]⟩
  exact hlogout.trans (sends_onMessageSent _)

theorem sendLogout_state_of_halt {e e' : FixEngine T} {reason : Halt}
    (h : e.sendLogout = .halt reason e')
    : e'.ctx.session.state = e.ctx.session.state := by
  have hstate := (e.sendBuilt_sends logoutMessage).2
  unfold sendLogout at h
  cases hbuilt : e.sendBuilt logoutMessage with
  | next e1 =>
    rw [hbuilt] at h
    contradiction
  | halt reason1 e1 =>
    rw [hbuilt] at h hstate
    injection h with _ heq
    rw [← heq]
    exact hstate

theorem sendBuilt_bind_state (e : FixEngine T)
    (message : SessionConfig → UInt64 → Bytes → OutMessage) {f : FixEngine T → FixEngine T}
    (hf : ∀ e : FixEngine T, (f e).ctx.session.state = e.ctx.session.state)
    : ((e.sendBuilt message).bind (fun e => .next (f e)) id).state.ctx.session.state
        = e.ctx.session.state := by
  have hstate := (e.sendBuilt_sends message).2
  cases hbuilt : e.sendBuilt message with
  | next e' =>
    rw [hbuilt] at hstate
    exact (hf e').trans hstate
  | halt reason e' =>
    rw [hbuilt] at hstate
    exact hstate

theorem sendLogon_state (e : FixEngine T)
    : e.sendLogon.state.ctx.session.state = e.ctx.session.state :=
  e.sendBuilt_bind_state logonMessage fun _ => rfl

theorem sendHeartbeat_state (e : FixEngine T)
    : e.sendHeartbeat.state.ctx.session.state = e.ctx.session.state :=
  e.sendBuilt_bind_state heartbeatMessage fun _ => rfl

end FixEngine

-- What a callback can do through its context.
structure EngineContext.AppActs (ctx ctx' : EngineContext T) : Prop where
  config : ctx'.session.config = ctx.session.config
  inbound : ctx'.session.inboundSeqNum = ctx.session.inboundSeqNum
  state : ctx'.session.state = ctx.session.state ∨ ctx'.session.state = .logoutSent
  log : ∃ msgs : List Outbound, ctx'.log = ctx.log ++ msgs.map Event.sent

namespace EngineContext

theorem AppActs.refl (ctx : EngineContext T) : ctx.AppActs ctx :=
  ⟨rfl, rfl, .inl rfl, [], by simp⟩

theorem AppActs.trans {ctx1 ctx2 ctx3 : EngineContext T} (h : ctx1.AppActs ctx2)
    (h' : ctx2.AppActs ctx3)
    : ctx1.AppActs ctx3 := by
  rcases h.log with ⟨msgs, hlog⟩
  rcases h'.log with ⟨msgs', hlog'⟩
  refine ⟨h'.config.trans h.config, h'.inbound.trans h.inbound, ?_, msgs ++ msgs', ?_⟩
  . rcases h'.state with hstate | hstate
    . rw [hstate]
      exact h.state
    . exact .inr hstate
  . rw [hlog', hlog]
    simp

theorem appActs_requestStop (ctx : EngineContext T) : ctx.AppActs ctx.requestStop :=
  ⟨rfl, rfl, .inr rfl, [], by simp [requestStop, modifySession]⟩

variable [Transport T]

theorem appActs_sendRaw (ctx : EngineContext T) (data : Bytes)
    : ctx.AppActs (ctx.sendRaw data).2 := by
  unfold sendRaw send
  cases Transport.send ctx.transport data with
  | mk res transport =>
    cases res with
    | error err => exact ⟨rfl, rfl, .inl rfl, [_], rfl⟩
    | ok k => exact ⟨rfl, rfl, .inl rfl, [_], rfl⟩

theorem appActs_run {α : Type} (prog : AppProg α) (ctx : EngineContext T)
    : ctx.AppActs (prog.run ctx).2 := by
  induction prog generalizing ctx with
  | done result => exact .refl ctx
  | sendRaw data next ih => exact (ctx.appActs_sendRaw data).trans (ih _ _)
  | session next ih => exact ih _ ctx
  | requestStop next ih => exact ctx.appActs_requestStop.trans (ih _)

end EngineContext

namespace FixEngine

variable [Transport T]

theorem callback_sends (e : FixEngine T) (prog : AppProg (Except ErrorKind Unit × A))
    : e.Sends (e.callback prog).state.1
        ∧ ((e.callback prog).state.1.ctx.session.state = e.ctx.session.state
          ∨ (e.callback prog).state.1.ctx.session.state = .logoutSent) := by
  have hacts := EngineContext.appActs_run prog e.ctx
  unfold callback
  cases hrun : prog.run e.ctx with
  | mk res ctx =>
    rw [hrun] at hacts
    rcases res with ⟨res, a⟩
    cases res with
    | error err => exact ⟨⟨⟨rfl, rfl, rfl, hacts.config, hacts.inbound⟩, rfl, hacts.log⟩, hacts.state⟩
    | ok _ => exact ⟨⟨⟨rfl, rfl, rfl, hacts.config, hacts.inbound⟩, rfl, hacts.log⟩, hacts.state⟩

end FixEngine

-- The part of a session that the numbers of inbound messages act on.
structure Control where
  state : SessionState
  expected : UInt64
  deriving DecidableEq

def Session.control (s : Session) : Control := ⟨s.state, s.inboundSeqNum⟩

def Control.receiveSeq (c : Control) (seq : UInt64) : Control :=
  if seq = c.expected then
    { c with expected := c.expected + 1 }
  else if seq > c.expected then
    { c with state := .resending }
  else
    c

def Control.receive (c : Control) (view : MessageView) : Control :=
  match view.msgSeqNum with
  | none => c
  | some seq => c.receiveSeq seq

theorem Control.state_receiveSeq_of_le {c : Control} {seq : UInt64} (h : seq ≤ c.expected)
    : (c.receiveSeq seq).state = c.state := by
  unfold receiveSeq
  split
  . rfl
  . rw [if_neg (UInt64.not_lt.mpr h)]

theorem Control.state_receiveSeq_of_gt {c : Control} {seq : UInt64} (h : c.expected < seq)
    : (c.receiveSeq seq).state = .resending := by
  unfold receiveSeq
  rw [if_neg (UInt64.ne_of_lt h).symm, if_pos h]

theorem Control.state_receive (c : Control) (view : MessageView)
    : (c.receive view).state = c.state ∨ (c.receive view).state = .resending := by
  unfold receive receiveSeq
  split
  . exact .inl rfl
  . split
    . exact .inl rfl
    . split
      . exact .inr rfl
      . exact .inl rfl

theorem Session.control_validateInboundSeq (s : Session) (seq : UInt64) (now : Instant)
    : (s.validateInboundSeq seq now).2.control = s.control.receiveSeq seq := by
  unfold validateInboundSeq Control.receiveSeq
  by_cases heq : seq = s.inboundSeqNum
  . simp [control, heq]
  . by_cases hgt : seq > s.inboundSeqNum
    . simp [control, heq, hgt]
    . simp [control, heq, hgt]

-- The session is in the state in which the loop answers a Logon.
def Waiting (role : SessionRole) (state : SessionState) : Prop :=
  (role = .acceptor ∧ (state = .disconnected ∨ state = .connecting)) ∨ state = .logonSent

instance (role : SessionRole) (state : SessionState) : Decidable (Waiting role state) :=
  inferInstanceAs (Decidable (_ ∨ _))

def MessageView.IsApplication (view : MessageView) : Prop :=
  ∃ msgType, view.msgType = some msgType
    ∧ msgType ∉ [MsgType.logon, MsgType.heartbeat, MsgType.testRequest, MsgType.logout]

theorem MessageView.IsApplication.msgType_ne {view : MessageView} (h : view.IsApplication)
    {other : Bytes}
    (hother : other ∈ [MsgType.logon, MsgType.heartbeat, MsgType.testRequest, MsgType.logout])
    : view.msgType ≠ some other := by
  rcases h with ⟨msgType, htype, hnot⟩
  rw [htype, ne_eq, Option.some.injEq]
  rintro rfl
  exact hnot hother

namespace FixEngine

-- The engine after the two operations that precede the dispatch.
def validated (e : FixEngine T) (view : MessageView) : FixEngine T :=
  (e.atInstant .onMessageReceived).validateSeq view

theorem validated_control (e : FixEngine T) (view : MessageView)
    : (e.validated view).ctx.session.control = e.ctx.session.control.receive view := by
  unfold validated validateSeq Control.receive
  cases view.msgSeqNum with
  | none => rfl
  | some seq => exact Session.control_validateInboundSeq _ _ _

theorem validated_fields (e : FixEngine T) (view : MessageView)
    : (e.validated view).parser = e.parser ∧ (e.validated view).recv = e.recv
        ∧ (e.validated view).sendBuf = e.sendBuf
        ∧ (e.validated view).shouldStop = e.shouldStop
        ∧ (e.validated view).ctx.session.config = e.ctx.session.config
        ∧ (e.validated view).ctx.session.outboundSeqNum = e.ctx.session.outboundSeqNum
        ∧ (e.validated view).ctx.transport = e.ctx.transport
        ∧ (e.validated view).ctx.log = e.ctx.log := by
  unfold validated validateSeq
  split
  . next seq hseq =>
    rcases Session.config_validateInboundSeq
      (e.ctx.session.onMessageReceived e.ctx.clock.now) seq e.ctx.clock.tick.now
      with ⟨hconfig, houtbound⟩
    exact ⟨rfl, rfl, rfl, rfl, hconfig, houtbound, rfl, rfl⟩
  . exact ⟨rfl, rfl, rfl, rfl, rfl, rfl, rfl, rfl⟩

/-
What the dispatch of a message can do: `e` is the engine before it, with the number of the message
validated, `e'` the engine after it, `left` holds if the loop is left, and `evs` are the events it
adds to the log.
-/
inductive Handled (view : MessageView) (expected : UInt64) (e e' : FixEngine T) (left : Prop)
    : List Event → Prop where
  | ignored (heq : e' = e)
      (htype : view.msgType = none ∨ view.msgType = some MsgType.heartbeat
        ∨ view.msgType = some MsgType.logon
          ∧ ¬ Waiting e.ctx.session.config.role e.ctx.session.state)
    : Handled view expected e e' left []
  | logonFailed (msgs : List Outbound) (htype : view.msgType = some MsgType.logon)
      (hwaiting : Waiting e.ctx.session.config.role e.ctx.session.state)
      (hkeeps : e.Keeps e') (hstop : e'.shouldStop = e.shouldStop)
      (hstate : e'.ctx.session.state = .active) (hleft : left)
    : Handled view expected e e' left (msgs.map Event.sent)
  | logon (msgs msgs' : List Outbound) (htype : view.msgType = some MsgType.logon)
      (hwaiting : Waiting e.ctx.session.config.role e.ctx.session.state)
      (hkeeps : e.Keeps e') (hstop : e'.shouldStop = e.shouldStop)
      (hstate : e'.ctx.session.state = .active ∨ e'.ctx.session.state = .logoutSent)
    : Handled view expected e e' left (msgs.map Event.sent ++ .onLogon :: msgs'.map Event.sent)
  | testRequest (msgs : List Outbound) (htype : view.msgType = some MsgType.testRequest)
      (hkeeps : e.Keeps e') (hstop : e'.shouldStop = e.shouldStop)
      (hstate : e'.ctx.session.state = e.ctx.session.state)
    : Handled view expected e e' left (msgs.map Event.sent)
  | logoutFailed (msgs : List Outbound) (htype : view.msgType = some MsgType.logout)
      (hkeeps : e.Keeps e') (hstate : e'.ctx.session.state = e.ctx.session.state) (hleft : left)
    : Handled view expected e e' left (.onLogout :: msgs.map Event.sent)
  | logout (msgs : List Outbound) (htype : view.msgType = some MsgType.logout)
      (hkeeps : e.Keeps e') (hstop : e'.shouldStop = true)
      (hstate : e'.ctx.session.state = .disconnected)
    : Handled view expected e e' left (.onLogout :: (msgs.map Event.sent ++ [.disconnected]))
  | message (msgType : Bytes) (msgs : List Outbound) (htype : view.msgType = some msgType)
      (happ : view.IsApplication) (hkeeps : e.Keeps e') (hstop : e'.shouldStop = e.shouldStop)
      (hstate : e'.ctx.session.state = e.ctx.session.state
        ∨ e'.ctx.session.state = .logoutSent)
    : Handled view expected e e' left (.onMessage msgType view expected :: msgs.map Event.sent)

theorem Handled.keeps {view : MessageView} {expected : UInt64} {e e' : FixEngine T} {left : Prop}
    {evs : List Event} (h : Handled view expected e e' left evs)
    : e.Keeps e' := by
  cases h with
  | ignored heq =>
    rw [heq]
    exact .refl e
  | logonFailed _ _ _ hkeeps => exact hkeeps
  | logon _ _ _ _ hkeeps => exact hkeeps
  | testRequest _ _ hkeeps => exact hkeeps
  | logoutFailed _ _ hkeeps => exact hkeeps
  | logout _ _ hkeeps => exact hkeeps
  | message _ _ _ _ hkeeps => exact hkeeps

theorem Handled.imp {view : MessageView} {expected : UInt64} {e e' : FixEngine T}
    {left left' : Prop} {evs : List Event} (h : Handled view expected e e' left evs)
    (himp : left → left')
    : Handled view expected e e' left' evs := by
  cases h with
  | ignored heq htype => exact .ignored heq htype
  | logonFailed msgs htype hwaiting hkeeps hstop hstate hleft =>
    exact .logonFailed msgs htype hwaiting hkeeps hstop hstate (himp hleft)
  | logon msgs msgs' htype hwaiting hkeeps hstop hstate =>
    exact .logon msgs msgs' htype hwaiting hkeeps hstop hstate
  | testRequest msgs htype hkeeps hstop hstate =>
    exact .testRequest msgs htype hkeeps hstop hstate
  | logoutFailed msgs htype hkeeps hstate hleft =>
    exact .logoutFailed msgs htype hkeeps hstate (himp hleft)
  | logout msgs htype hkeeps hstop hstate => exact .logout msgs htype hkeeps hstop hstate
  | message msgType msgs htype happ hkeeps hstop hstate =>
    exact .message msgType msgs htype happ hkeeps hstop hstate

theorem Handled.of_onMessage {view view' : MessageView} {expected expected' : UInt64}
    {e e' : FixEngine T} {left : Prop} {evs : List Event} {msgType : Bytes}
    (h : Handled view expected e e' left evs)
    (hmem : .onMessage msgType view' expected' ∈ evs)
    : view' = view ∧ expected' = expected ∧ view.IsApplication := by
  cases h with
  | message _ _ _ happ =>
    rw [List.mem_cons] at hmem
    rcases hmem with hmem | hmem
    . injection hmem with _ hview hexpected
      exact ⟨hview, hexpected, happ⟩
    . simp at hmem
  | _ => simp at hmem

theorem Handled.exists_onMessage {view : MessageView} {expected : UInt64} {e e' : FixEngine T}
    {left : Prop} {evs : List Event} (h : Handled view expected e e' left evs)
    (happ : view.IsApplication)
    : ∃ msgType, .onMessage msgType view expected ∈ evs := by
  have hne (other : Bytes)
      (hother : other ∈ [MsgType.logon, MsgType.heartbeat, MsgType.testRequest, MsgType.logout])
      : view.msgType ≠ some other :=
    happ.msgType_ne hother
  cases h with
  | ignored _ hkind =>
    rcases hkind with hkind | hkind | hkind
    . rcases happ with ⟨msgType, htype, -⟩
      rw [htype] at hkind
      contradiction
    . exact absurd hkind (hne _ (by simp))
    . exact absurd hkind.1 (hne _ (by simp))
  | logonFailed _ hkind => exact absurd hkind (hne _ (by simp))
  | logon _ _ hkind => exact absurd hkind (hne _ (by simp))
  | testRequest _ hkind => exact absurd hkind (hne _ (by simp))
  | logoutFailed _ hkind => exact absurd hkind (hne _ (by simp))
  | logout _ hkind => exact absurd hkind (hne _ (by simp))
  | message msgType' => exact ⟨msgType', by simp⟩

variable [Transport T]

theorem acceptLogon_spec (app : FixApp A) (e : FixEngine T) (a : A)
    : e.Keeps (acceptLogon app e a).state.1
        ∧ (acceptLogon app e a).state.1.shouldStop = e.shouldStop
        ∧ ((acceptLogon app e a).state.1.ctx.session.state = e.ctx.session.state
          ∨ (acceptLogon app e a).state.1.ctx.session.state = .logoutSent)
        ∧ ∃ msgs : List Outbound,
            (acceptLogon app e a).state.1.ctx.log
              = e.ctx.log ++ (.onLogon :: msgs.map Event.sent) := by
  rcases callback_sends (e.record .onLogon) (app.onLogon a) with ⟨hsends, hstate⟩
  rcases hsends.log with ⟨msgs, hlog⟩
  refine ⟨⟨hsends.parser, hsends.recv, hsends.sendBuf, hsends.config, hsends.inbound⟩,
    hsends.shouldStop, hstate, msgs, ?_⟩
  unfold acceptLogon
  rw [hlog]
  simp

theorem handled_acceptLogon {app : FixApp A} {e e1 : FixEngine T} {view : MessageView}
    {expected : UInt64} {left : Prop} {msgs : List Outbound} (a : A)
    (htype : view.msgType = some MsgType.logon)
    (hwaiting : Waiting e.ctx.session.config.role e.ctx.session.state)
    (hkeeps : e.Keeps e1) (hstop : e1.shouldStop = e.shouldStop)
    (hstate : e1.ctx.session.state = .active)
    (hlog : e1.ctx.log = e.ctx.log ++ msgs.map Event.sent)
    : ∃ evs, Handled view expected e (acceptLogon app e1 a).state.1 left evs
        ∧ (acceptLogon app e1 a).state.1.ctx.log = e.ctx.log ++ evs := by
  rcases acceptLogon_spec app e1 a with ⟨hkeeps', hstop', hstate', msgs', hlog'⟩
  refine ⟨_, .logon msgs msgs' htype hwaiting (hkeeps.trans hkeeps') (hstop'.trans hstop) ?_, ?_⟩
  . rw [hstate] at hstate'
    exact hstate'
  . rw [hlog', hlog, List.append_assoc]

theorem handleLogon_handled (app : FixApp A) (e : FixEngine T) (a : A) {view : MessageView}
    {expected : UInt64} (htype : view.msgType = some MsgType.logon)
    : ∃ evs, Handled view expected e (handleLogon app e a).state.1 (handleLogon app e a).Left evs
        ∧ (handleLogon app e a).state.1.ctx.log = e.ctx.log ++ evs := by
  unfold handleLogon
  dsimp only
  split
  . next hacceptor =>
    have hwaiting : Waiting e.ctx.session.config.role e.ctx.session.state := .inl hacceptor
    have hconnect : e.Sends (if e.ctx.session.state = .disconnected then e.connect else e) := by
      split
      . exact e.sends_connect
      . exact .refl e
    generalize (if e.ctx.session.state = .disconnected then e.connect else e) = e1 at hconnect
    have hlogon := hconnect.trans e1.sends_onLogon
    have hsends := hlogon.trans (sendLogon_sends (e1.atInstant .onLogon))
    have hstate := sendLogon_state (e1.atInstant .onLogon)
    rcases hsends.log with ⟨msgs, hlog⟩
    cases hsent : (e1.atInstant .onLogon).sendLogon with
    | next e2 =>
      rw [hsent] at hsends hstate hlog
      exact handled_acceptLogon a htype hwaiting hsends.toKeeps hsends.shouldStop hstate hlog
    | halt reason e2 =>
      rw [hsent] at hsends hstate hlog
      exact ⟨_, .logonFailed msgs htype hwaiting hsends.toKeeps hsends.shouldStop hstate trivial,
        hlog⟩
  . next hacceptor =>
    split
    . next hinitiator =>
      have hsends := e.sends_onLogon
      have hlog : (e.atInstant .onLogon).ctx.log = e.ctx.log ++ List.map Event.sent [] := by simp
      exact handled_acceptLogon a htype (.inr hinitiator) hsends.toKeeps hsends.shouldStop rfl hlog
    . next hinitiator =>
      refine ⟨[], .ignored rfl (.inr (.inr ⟨htype, ?_⟩)), (List.append_nil _).symm⟩
      intro hwaiting
      rcases hwaiting with hwaiting | hwaiting
      . exact hacceptor hwaiting
      . exact hinitiator hwaiting

theorem handleLogout_handled (app : FixApp A) (e : FixEngine T) (a : A) {view : MessageView}
    {expected : UInt64} (htype : view.msgType = some MsgType.logout)
    : ∃ evs, Handled view expected e (handleLogout app e a).state.1 (handleLogout app e a).Left evs
        ∧ (handleLogout app e a).state.1.ctx.log = e.ctx.log ++ evs := by
  have hrecord : e.Keeps (e.record .onLogout) := ⟨rfl, rfl, rfl, rfl, rfl⟩
  unfold handleLogout
  dsimp only
  cases app.onLogout a with
  | mk res a =>
    cases res with
    | error err => exact ⟨_, .logoutFailed [] htype hrecord rfl trivial, rfl⟩
    | ok _ =>
      dsimp only
      generalize hsent : (if (e.record .onLogout).ctx.session.state ≠ .logoutSent then
          (e.record .onLogout).sendLogout
        else
          .next (e.record .onLogout)) = o
      have hsends : (e.record .onLogout).Sends o.state := by
        rw [← hsent]
        split
        . exact sendLogout_sends _
        . exact .refl _
      rcases hsends.log with ⟨msgs, hlog⟩
      have hkeeps := hrecord.trans hsends.toKeeps
      cases o with
      | next e1 =>
        refine ⟨_, .logout msgs htype ?_ rfl rfl, ?_⟩
        . exact hkeeps.trans ⟨rfl, rfl, rfl, rfl, rfl⟩
        . change e1.ctx.log = _ at hlog
          change e1.ctx.log ++ [Event.disconnected] = _
          rw [hlog]
          simp
      | halt reason e1 =>
        have hstate : e1.ctx.session.state = e.ctx.session.state := by
          split at hsent
          . apply sendLogout_state_of_halt hsent
          . contradiction
        refine ⟨_, .logoutFailed msgs htype hkeeps hstate trivial, ?_⟩
        change e1.ctx.log = _ at hlog
        change e1.ctx.log = _
        rw [hlog]
        simp

theorem dispatch_handled (app : FixApp A) (e : FixEngine T) (a : A) (view : MessageView)
    (expected : UInt64)
    : ∃ evs, Handled view expected e (dispatch app e a view expected).state.1
          (dispatch app e a view expected).Left evs
        ∧ (dispatch app e a view expected).state.1.ctx.log = e.ctx.log ++ evs := by
  unfold dispatch
  cases htype : view.msgType with
  | none => exact ⟨[], .ignored rfl (.inl htype), (List.append_nil _).symm⟩
  | some msgType =>
    dsimp only
    by_cases hlogon : msgType = MsgType.logon
    . rw [if_pos hlogon]
      rw [hlogon] at htype
      exact handleLogon_handled app e a htype
    rw [if_neg hlogon]
    by_cases hheartbeat : msgType = MsgType.heartbeat
    . rw [if_pos hheartbeat]
      rw [hheartbeat] at htype
      exact ⟨[], .ignored rfl (.inr (.inl htype)), (List.append_nil _).symm⟩
    rw [if_neg hheartbeat]
    by_cases htest : msgType = MsgType.testRequest
    . rw [if_pos htest]
      rw [htest] at htype
      have hsends := e.sendHeartbeat_sends
      have hstate := e.sendHeartbeat_state
      rcases hsends.log with ⟨msgs, hlog⟩
      cases hsent : e.sendHeartbeat with
      | next e1 =>
        rw [hsent] at hsends hstate hlog
        exact ⟨_, .testRequest msgs htype hsends.toKeeps hsends.shouldStop hstate, hlog⟩
      | halt reason e1 =>
        rw [hsent] at hsends hstate hlog
        exact ⟨_, .testRequest msgs htype hsends.toKeeps hsends.shouldStop hstate, hlog⟩
    rw [if_neg htest]
    by_cases hlogout : msgType = MsgType.logout
    . rw [if_pos hlogout]
      rw [hlogout] at htype
      exact handleLogout_handled app e a htype
    rw [if_neg hlogout]
    have happ : view.IsApplication := ⟨msgType, htype, by simp [*]⟩
    rcases callback_sends (e.record (.onMessage msgType view expected))
      (app.onMessage a msgType view) with ⟨hsends, hstate⟩
    rcases hsends.log with ⟨msgs, hlog⟩
    refine ⟨_, .message msgType msgs htype happ ?_ hsends.shouldStop hstate, ?_⟩
    . exact ⟨hsends.parser, hsends.recv, hsends.sendBuf, hsends.config, hsends.inbound⟩
    . rw [hlog]
      simp

end FixEngine

end Velocitas
