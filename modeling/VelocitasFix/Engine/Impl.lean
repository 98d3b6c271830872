import VelocitasFix.Engine.Context
import VelocitasFix.Engine.RecvBuffer

/-!
This module contains the protocol engine: the senders of session messages, the dispatch of inbound
messages, and the loop as a machine that polls the transport and then processes the complete
messages it has received, one at a step.
-/

namespace Velocitas

inductive Halt where
  | error (e : ErrorKind)
  | panic
  deriving DecidableEq, Repr

-- An operation that may leave the loop, with the state in which it does.
inductive Outcome (S : Type) where
  | next (s : S)
  | halt (reason : Halt) (s : S)

namespace Outcome

variable {S R : Type}

def bind (o : Outcome S) (f : S → Outcome R) (g : S → R) : Outcome R :=
  match o with
  | .next s => f s
  | .halt reason s => .halt reason (g s)

def state : Outcome S → S
  | .next s => s
  | .halt _ s => s

end Outcome

structure FixEngine (T : Type) where
  ctx : EngineContext T
  parser : FixParser
  recv : RecvBuffer
  sendBuf : Bytes
  shouldStop : Bool

namespace MsgType

def heartbeat : Bytes := ascii "0"
def testRequest : Bytes := ascii "1"
def logout : Bytes := ascii "5"
def logon : Bytes := ascii "A"

end MsgType

namespace FixEngine

variable {T A : Type} [Transport T]

-- `new_initiator` and `new_acceptor` are the same function.
def new (transport : T) (session : Session) (clock : Clock) : FixEngine T where
  ctx := { transport, session, clock, log := [] }
  parser := .new
  recv := .new
  sendBuf := List.replicate 4096 0
  shouldStop := false

def record (e : FixEngine T) (event : Event) : FixEngine T := { e with ctx := e.ctx.record event }

def modifySession (e : FixEngine T) (f : Session → Session) : FixEngine T :=
  { e with ctx := e.ctx.modifySession f }

def atInstant (e : FixEngine T) (f : Session → Instant → Session) : FixEngine T :=
  { e with ctx := e.ctx.atInstant f }

def connect (e : FixEngine T) : FixEngine T :=
  let receivedNow := e.ctx.clock.now
  let sentNow := e.ctx.clock.tick.now
  let e := e.modifySession fun s => s.onConnected receivedNow sentNow
  { e with ctx := { e.ctx with clock := e.ctx.clock.tick.tick } }

def disconnect (e : FixEngine T) : FixEngine T :=
  (e.modifySession .onDisconnected).record .disconnected

-- `self.transport.send(&self.send_buf[..len])?` after a message was built in the send buffer
def transmit (e : FixEngine T) (message : OutMessage) (built : Option (FixSerializer × Nat))
    : Outcome (FixEngine T) :=
  match built with
  | none => .halt .panic e
  | some (ser, len) =>
    match e.ctx.send (.built message) (ser.buffer.take len) with
    | (.error err, ctx) => .halt (.error err) { e with ctx, sendBuf := ser.buffer }
    | (.ok _, ctx) => .next { e with ctx, sendBuf := ser.buffer }

-- The part the senders share: SendingTime, the next outbound number, building and sending.
def sendBuilt (e : FixEngine T) (message : SessionConfig → UInt64 → Bytes → OutMessage)
    : Outcome (FixEngine T) :=
  let time := e.ctx.clock.timestamp
  let (seq, session) := e.ctx.session.nextOutboundSeqNum
  let m := message session.config seq time
  transmit { e with ctx := { e.ctx with session, clock := e.ctx.clock.tick } } m
    (FixSerializer.serialize e.sendBuf m)

def logonMessage (config : SessionConfig) (seq : UInt64) (time : Bytes) : OutMessage :=
  .logon config.fixVersion config.senderCompId config.targetCompId seq time
    (Int64.ofNat config.heartbeatInterval.asSecs)

def heartbeatMessage (config : SessionConfig) (seq : UInt64) (time : Bytes) : OutMessage :=
  .heartbeat config.fixVersion config.senderCompId config.targetCompId seq time

def logoutMessage (config : SessionConfig) (seq : UInt64) (time : Bytes) : OutMessage :=
  .logout config.fixVersion config.senderCompId config.targetCompId seq time

def sendLogon (e : FixEngine T) : Outcome (FixEngine T) :=
  (e.sendBuilt logonMessage).bind (fun e => .next (e.atInstant .onMessageSent)) id

def sendHeartbeat (e : FixEngine T) : Outcome (FixEngine T) :=
  (e.sendBuilt heartbeatMessage).bind (fun e => .next (e.atInstant .onMessageSent)) id

def sendLogout (e : FixEngine T) : Outcome (FixEngine T) :=
  (e.sendBuilt logoutMessage).bind
    (fun e => .next ((e.modifySession .onLogoutSent).atInstant .onMessageSent)) id

def initiateLogout (e : FixEngine T) : Outcome (FixEngine T) := e.sendLogout

def handleInboundLogon (e : FixEngine T) : Outcome (FixEngine T) :=
  ((e.connect.atInstant .onLogon).record .handledLogon).sendLogon

def callback (e : FixEngine T) (prog : AppProg (Except ErrorKind Unit × A))
    : Outcome (FixEngine T × A) :=
  match prog.run e.ctx with
  | ((.error err, a), ctx) => .halt (.error err) ({ e with ctx }, a)
  | ((.ok (), a), ctx) => .next ({ e with ctx }, a)

def acceptLogon (app : FixApp A) (e : FixEngine T) (a : A) : Outcome (FixEngine T × A) :=
  (e.record .onLogon).callback (app.onLogon a)

def handleLogon (app : FixApp A) (e : FixEngine T) (a : A) : Outcome (FixEngine T × A) :=
  let session := e.ctx.session
  if session.config.role = .acceptor
      ∧ (session.state = .disconnected ∨ session.state = .connecting) then
    let e := if session.state = .disconnected then e.connect else e
    (e.atInstant .onLogon).sendLogon.bind (fun e => acceptLogon app e a) (·, a)
  else if session.state = .logonSent then
    acceptLogon app (e.atInstant .onLogon) a
  else
    .next (e, a)

def handleLogout (app : FixApp A) (e : FixEngine T) (a : A) : Outcome (FixEngine T × A) :=
  let e := e.record .onLogout
  match app.onLogout a with
  | (.error err, a) => .halt (.error err) (e, a)
  | (.ok (), a) =>
    let sent := if e.ctx.session.state ≠ .logoutSent then e.sendLogout else .next e
    sent.bind (fun e => .next ({ e.disconnect with shouldStop := true }, a)) (·, a)

def dispatch (app : FixApp A) (e : FixEngine T) (a : A) (view : MessageView) (expected : UInt64)
    : Outcome (FixEngine T × A) :=
  match view.msgType with
  | none => .next (e, a)
  | some msgType =>
    if msgType = MsgType.logon then
      handleLogon app e a
    else if msgType = MsgType.heartbeat then
      .next (e, a)
    else if msgType = MsgType.testRequest then
      e.sendHeartbeat.bind (fun e => .next (e, a)) (·, a)
    else if msgType = MsgType.logout then
      handleLogout app e a
    else
      (e.record (.onMessage msgType view expected)).callback (app.onMessage a msgType view)

def validateSeq (e : FixEngine T) (view : MessageView) : FixEngine T :=
  match view.msgSeqNum with
  | some seq => e.atInstant fun s now => (s.validateInboundSeq seq now).2
  | none => e

def processMessage (app : FixApp A) (e : FixEngine T) (a : A) (frame : Bytes)
    : Outcome (FixEngine T × A) :=
  match e.parser.parse frame with
  | .error _ => .next (e, a)
  | .ok (view, _) =>
    let expected := e.ctx.session.expectedInboundSeqNum
    dispatch app ((e.atInstant .onMessageReceived).validateSeq view) a view expected

-- The check after a batch: the session ended, or the application requested a stop.
def endBatch (e : FixEngine T) : Outcome (FixEngine T) :=
  match e.ctx.session.state with
  | .disconnected => .next { e with shouldStop := true }
  | .logoutSent =>
    match e.sendBuilt logoutMessage with
    | .halt .panic e => .halt .panic e
    | .halt (.error _) e => .next { e.disconnect with shouldStop := true }
    | .next e => .next { e.disconnect with shouldStop := true }
  | _ => .next e

end FixEngine

inductive Phase where
  | poll
  | process
  | returned (res : Except ErrorKind Unit)
  | panicked

structure RunState (T A : Type) where
  engine : FixEngine T
  app : A
  phase : Phase

namespace RunState

variable {T A : Type} [Transport T]

def halted : Halt → Phase
  | .error e => .returned (.error e)
  | .panic => .panicked

-- Continues in `phase` unless the operation left the loop.
def settle (phase : Phase) : Outcome (FixEngine T × A) → RunState T A
  | .next (engine, app) => { engine, app, phase }
  | .halt reason (engine, app) => { engine, app, phase := halted reason }

def settleEngine (phase : Phase) (app : A) : Outcome (FixEngine T) → RunState T A
  | .next engine => { engine, app, phase }
  | .halt reason engine => { engine, app, phase := halted reason }

def finish (e : FixEngine T) (app : A) : RunState T A :=
  let transport := (Transport.close e.ctx.transport).2
  { engine := { e with ctx := { e.ctx with transport } }, app, phase := .returned (.ok ()) }

def receive (e : FixEngine T) (app : A) : RunState T A :=
  match Transport.recv e.ctx.transport 8192 with
  | (.ok data, transport) =>
    let e := { e with ctx := { e.ctx with transport } }
    if data.length = 0 then
      { engine := e, app, phase := .poll }
    else
      let e := (e.record (.received data))
      { engine := { e with recv := e.recv.append data }, app, phase := .process }
  | (.error err, transport) =>
    let e := { e with ctx := { e.ctx with transport } }
    if err = .connectionReset ∨ err = .brokenPipe ∨ err = .unexpectedEof then
      finish { e.disconnect with shouldStop := true } app
    else
      { engine := e, app, phase := .returned (.error err) }

def timer (e : FixEngine T) : SessionAction × FixEngine T :=
  let (action, session) := e.ctx.session.checkHeartbeat e.ctx.clock.now
  (action, { e with ctx := { e.ctx with session, clock := e.ctx.clock.tick } })

def poll (e : FixEngine T) (app : A) : RunState T A :=
  if e.shouldStop then
    finish e app
  else
    match timer e with
    | (.send _, e) =>
      if e.ctx.session.state = .active then
        match e.sendHeartbeat with
        | .next e => receive e app
        | .halt reason e => { engine := e, app, phase := halted reason }
      else
        receive e app
    | (.disconnect, e) => finish { e with shouldStop := true } app
    | (.none, e) => receive e app

def process (app : FixApp A) (e : FixEngine T) (a : A) : RunState T A :=
  match e.recv.takeFrame with
  | none => settleEngine .poll a e.endBatch
  | some (frame, recv) =>
    settle .process (FixEngine.processMessage app (({ e with recv }).record (.taken frame)) a frame)

def step (app : FixApp A) (s : RunState T A) : RunState T A :=
  match s.phase with
  | .poll => poll s.engine s.app
  | .process => process app s.engine s.app
  | .returned _ => s
  | .panicked => s

end RunState

-- How the loop is entered; the last one is an acceptor whose Logon the server has read.
inductive Entry where
  | runInitiator
  | runAcceptor
  | handleInboundLogon
  deriving DecidableEq, Repr

namespace Entry

variable {T A : Type} [Transport T]

def start (entry : Entry) (e : FixEngine T) (a : A) : RunState T A :=
  match entry with
  | .runInitiator => .settleEngine .poll a e.connect.sendLogon
  | .runAcceptor => { engine := e, app := a, phase := .poll }
  | .handleInboundLogon => .settleEngine .poll a e.handleInboundLogon

end Entry

def runFor {T A : Type} [Transport T] (app : FixApp A) (n : Nat) (s : RunState T A)
    : RunState T A :=
  (RunState.step app)^[n] s

end Velocitas
