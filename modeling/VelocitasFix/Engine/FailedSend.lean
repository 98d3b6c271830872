import VelocitasFix.Engine.Lemmas
import VelocitasFix.Transport.Socket

/-!
This module contains what is left behind when the transport refuses a message: bytes of the application
leave the session as it was, while a message of the engine has already used up its number.
-/

namespace Velocitas

variable {T : Type}

-- The ways in which the engine transmits.
inductive Sender where
  | logon
  | heartbeat
  | logout
  | raw (data : Bytes)
  deriving DecidableEq, Repr

namespace Sender

-- What is handed to the transport.
def data (e : FixEngine T) : Sender → Bytes
  | .logon => (e.nextMessage FixEngine.logonMessage).bytes
  | .heartbeat => (e.nextMessage FixEngine.heartbeatMessage).bytes
  | .logout => (e.nextMessage FixEngine.logoutMessage).bytes
  | .raw data => data

-- A message of the engine is built in the send buffer first.
def Fits (e : FixEngine T) : Sender → Prop
  | .raw _ => True
  | w => (w.data e).length ≤ e.sendBuf.length

variable [Transport T]

def run (e : FixEngine T) : Sender → Outcome (FixEngine T)
  | .logon => e.sendLogon
  | .heartbeat => e.sendHeartbeat
  | .logout => e.sendLogout
  | .raw data =>
    match e.ctx.sendRaw data with
    | (.error err, ctx) => .halt (.error err) { e with ctx }
    | (.ok _, ctx) => .next { e with ctx }

end Sender

namespace FixEngine

variable [Transport T]

-- The call fails exactly when the transport does, and leaves this session behind.
structure FailsAs (e : FixEngine T) (sent : Prop) (data : Bytes) (session : Session)
    (o : Outcome (FixEngine T)) : Prop where
  error_iff : ∀ err, (∃ e', o = .halt (.error err) e')
    ↔ sent ∧ (Transport.send e.ctx.transport data).1 = .error err
  session_eq : ∀ err e', o = .halt (.error err) e' → e'.ctx.session = session

theorem session_transmit {e e' : FixEngine T} {message : OutMessage}
    {built : Option (FixSerializer × Nat)} {reason : Halt}
    (h : e.transmit message built = .halt reason e')
    : e'.ctx.session = e.ctx.session := by
  unfold transmit EngineContext.send at h
  cases built with
  | none =>
    cases h
    rfl
  | some result =>
    cases result with
    | mk ser len =>
      dsimp only at h
      cases hsend : Transport.send e.ctx.transport (ser.buffer.take len) with
      | mk res transport =>
        rw [hsend] at h
        cases res with
        | error err =>
          cases h
          rfl
        | ok k => contradiction

-- The number is taken before the message is built and sent.
theorem session_sendBuilt {e e' : FixEngine T}
    {message : SessionConfig → UInt64 → Bytes → OutMessage} {reason : Halt}
    (h : e.sendBuilt message = .halt reason e')
    : e'.ctx.session = e.ctx.session.nextOutboundSeqNum.2 :=
  session_transmit h

theorem failsAs_sendBuilt (e : FixEngine T)
    (message : SessionConfig → UInt64 → Bytes → OutMessage) (f : FixEngine T → FixEngine T)
    : e.FailsAs ((e.nextMessage message).bytes.length ≤ e.sendBuf.length)
        (e.nextMessage message).bytes e.ctx.session.nextOutboundSeqNum.2
        ((e.sendBuilt message).bind (fun e => .next (f e)) id) := by
  have hcases := e.sendBuilt_cases message
  cases hbuilt : e.sendBuilt message with
  | next e' =>
    rw [hbuilt] at hcases
    cases hcases with
    | sent _ k hfits hsend _ _ _ _ _ =>
      constructor
      . intro err
        constructor
        . rintro ⟨_, heq⟩
          contradiction
        . rintro ⟨_, herr⟩
          rw [hsend] at herr
          contradiction
      . intro err _ heq
        contradiction
  | halt reason e' =>
    have hsession := session_sendBuilt hbuilt
    rw [hbuilt] at hcases
    cases hcases with
    | panicked _ hlong _ _ _ _ _ =>
      constructor
      . intro err
        constructor
        . rintro ⟨_, heq⟩
          cases heq
        . rintro ⟨hfits, _⟩
          omega
      . intro err _ heq
        cases heq
    | failed _ err hfits hsend _ _ =>
      constructor
      . intro err'
        constructor
        . rintro ⟨_, heq⟩
          cases heq
          exact ⟨hfits, hsend⟩
        . rintro ⟨_, herr⟩
          rw [hsend] at herr
          cases herr
          exact ⟨e', rfl⟩
      . intro err' e'' heq
        cases heq
        exact hsession

theorem run_raw_of_error {e : FixEngine T} {data : Bytes} {err : ErrorKind} {transport : T}
    (h : Transport.send e.ctx.transport data = (.error err, transport))
    : (Sender.raw data).run e = .halt (.error err)
        { e with ctx := { e.ctx with transport }.record (.sent (.raw data)) } := by
  simp only [Sender.run, EngineContext.sendRaw, EngineContext.send, h]

theorem run_raw_of_ok {e : FixEngine T} {data : Bytes} {k : Nat} {transport : T}
    (h : Transport.send e.ctx.transport data = (.ok k, transport))
    : ∃ e', (Sender.raw data).run e = .next e' := by
  simp only [Sender.run, EngineContext.sendRaw, EngineContext.send, h]
  exact ⟨_, rfl⟩

theorem failsAs_raw (e : FixEngine T) (data : Bytes)
    : e.FailsAs True data e.ctx.session ((Sender.raw data).run e) := by
  cases hsend : Transport.send e.ctx.transport data with
  | mk res transport =>
    cases res with
    | error err =>
      rw [run_raw_of_error hsend]
      constructor
      . intro err'
        rw [hsend, true_and]
        constructor
        . rintro ⟨_, heq⟩
          cases heq
          rfl
        . intro heq
          cases heq
          exact ⟨_, rfl⟩
      . intro err' e' heq
        cases heq
        rfl
    | ok k =>
      obtain ⟨e', hnext⟩ := run_raw_of_ok hsend
      rw [hnext]
      constructor
      . intro err'
        rw [hsend, true_and]
        constructor
        . rintro ⟨_, heq⟩
          contradiction
        . intro heq
          contradiction
      . intro err' e' heq
        contradiction

end FixEngine

namespace Sender

variable [Transport T]

-- The session that a failing call leaves behind.
def sessionAfter (s : Session) : Sender → Session
  | .raw _ => s
  | _ => s.nextOutboundSeqNum.2

theorem failsAs (e : FixEngine T) (w : Sender)
    : e.FailsAs (w.Fits e) (w.data e) (w.sessionAfter e.ctx.session) (w.run e) := by
  cases w with
  | logon => exact e.failsAs_sendBuilt FixEngine.logonMessage fun e => e.atInstant .onMessageSent
  | heartbeat =>
    exact e.failsAs_sendBuilt FixEngine.heartbeatMessage fun e => e.atInstant .onMessageSent
  | logout =>
    exact e.failsAs_sendBuilt FixEngine.logoutMessage
      fun e => (e.modifySession .onLogoutSent).atInstant .onMessageSent
  | raw data => exact e.failsAs_raw data

theorem sessionAfter_iff (s : Session) (w : Sender)
    : (w.sessionAfter s).outboundSeqNum = s.outboundSeqNum ∧ (w.sessionAfter s).state = s.state
        ↔ ∃ data, w = .raw data := by
  cases w with
  | raw data => exact iff_of_true ⟨rfl, rfl⟩ ⟨data, rfl⟩
  | logon | heartbeat | logout =>
    apply iff_of_false
    . intro h
      exact Session.add_one_ne s.outboundSeqNum h.1
    . rintro ⟨data, heq⟩
      contradiction

theorem failed_send_iff (e : FixEngine T) (w : Sender)
    : (∀ err, (∃ e', w.run e = .halt (.error err) e')
          ↔ w.Fits e ∧ (Transport.send e.ctx.transport (w.data e)).1 = .error err)
        ∧ ∀ err e', w.run e = .halt (.error err) e' →
          (e'.ctx.session.outboundSeqNum = e.ctx.session.outboundSeqNum
              ∧ e'.ctx.session.state = e.ctx.session.state
            ↔ ∃ data, w = .raw data) := by
  have hfails := failsAs e w
  refine ⟨hfails.error_iff, ?_⟩
  intro err e' hhalt
  rw [hfails.session_eq err e' hhalt]
  exact sessionAfter_iff e.ctx.session w

-- A Heartbeat on a connection that was closed.
theorem not_failed_send
    : ¬ ∀ (e e' : FixEngine (StdTcpTransport Socket)) (w : Sender) (err : ErrorKind),
        w.run e = .halt (.error err) e' →
        e'.ctx.session.outboundSeqNum = e.ctx.session.outboundSeqNum
          ∧ e'.ctx.session.state = e.ctx.session.state := by
  intro h
  let e : FixEngine (StdTcpTransport Socket) :=
    .new ⟨none, false, .kernelTcp⟩ (.new .default 0) ⟨fun _ => 0, fun _ => 0, 0⟩
  have hfits : (data e .heartbeat).length ≤ e.sendBuf.length := by decide +kernel
  obtain ⟨e', hhalt⟩ := ((failsAs e .heartbeat).error_iff .notConnected).mpr ⟨hfits, rfl⟩
  have hkept := h e e' .heartbeat .notConnected hhalt
  rw [(failsAs e .heartbeat).session_eq _ _ hhalt] at hkept
  exact Session.add_one_ne _ hkept.1

end Sender

end Velocitas
