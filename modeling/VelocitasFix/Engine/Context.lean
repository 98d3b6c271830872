import VelocitasFix.Serializer.Impl
import VelocitasFix.Session.Impl
import VelocitasFix.Timestamp.Impl
import VelocitasFix.Message.Impl

/-!
This module contains the surroundings of the engine: the transport, the clocks, the application
with its callbacks, and the context through which a callback acts on the session.
-/

namespace Velocitas

inductive ErrorKind where
  | connectionReset
  | brokenPipe
  | unexpectedEof
  | wouldBlock
  | timedOut
  | notConnected
  | invalidInput
  | invalidData
  | permissionDenied
  | other (code : Nat)
  deriving DecidableEq, Repr

class Transport (T : Type) where
  send : T → Bytes → Except ErrorKind Nat × T
  recv : T → Nat → Except ErrorKind Bytes × T
  close : T → Except ErrorKind Unit × T
  -- A read returns at most as many bytes as the buffer holds.
  length_recv : ∀ {t t' n data}, recv t n = (.ok data, t') → data.length ≤ n

structure Clock where
  instants : Nat → Instant
  wall : Nat → UInt64
  reads : Nat

namespace Clock

def now (c : Clock) : Instant := c.instants c.reads

def timestamp (c : Clock) : Bytes := HrTimestamp.toFixTimestamp ⟨c.wall c.reads⟩

def tick (c : Clock) : Clock := { c with reads := c.reads + 1 }

end Clock

-- What is handed to the transport: a message the engine builds, or bytes of the application.
inductive Outbound where
  | built (message : OutMessage)
  | raw (data : Bytes)

-- The log is not part of the program: it records what a run does, in order.
inductive Event where
  | received (chunk : Bytes)
  | taken (frame : Bytes)
  | sent (message : Outbound)
  | handledLogon
  | onLogon
  | onMessage (msgType : Bytes) (view : MessageView) (expected : UInt64)
  | onLogout
  | disconnected

structure EngineContext (T : Type) where
  transport : T
  session : Session
  clock : Clock
  log : List Event

-- The part of a session that a callback can read.
structure SessionView where
  state : SessionState
  config : SessionConfig
  expectedInboundSeqNum : UInt64
  currentOutboundSeqNum : UInt64
  shouldReconnect : Bool

def Session.view (s : Session) : SessionView where
  state := s.state
  config := s.config
  expectedInboundSeqNum := s.expectedInboundSeqNum
  currentOutboundSeqNum := s.currentOutboundSeqNum
  shouldReconnect := s.shouldReconnect

-- A callback is a sequence of calls to the context that may depend on what the calls return.
inductive AppProg (α : Type) where
  | done (result : α)
  | sendRaw (data : Bytes) (next : Except ErrorKind Unit → AppProg α)
  | session (next : SessionView → AppProg α)
  | requestStop (next : AppProg α)

structure FixApp (A : Type) where
  onLogon : A → AppProg (Except ErrorKind Unit × A)
  onMessage : A → Bytes → MessageView → AppProg (Except ErrorKind Unit × A)
  onLogout : A → Except ErrorKind Unit × A

namespace EngineContext

variable {T : Type} [Transport T]

def record (ctx : EngineContext T) (e : Event) : EngineContext T :=
  { ctx with log := ctx.log ++ [e] }

def modifySession (ctx : EngineContext T) (f : Session → Session) : EngineContext T :=
  { ctx with session := f ctx.session }

-- Runs a session operation that reads the clock.
def atInstant (ctx : EngineContext T) (f : Session → Instant → Session) : EngineContext T :=
  { ctx with session := f ctx.session ctx.clock.now, clock := ctx.clock.tick }

def send (ctx : EngineContext T) (message : Outbound) (data : Bytes)
    : Except ErrorKind Nat × EngineContext T :=
  let (res, transport) := Transport.send ctx.transport data
  (res, { ctx with transport }.record (.sent message))

def sendRaw (ctx : EngineContext T) (data : Bytes) : Except ErrorKind Unit × EngineContext T :=
  match ctx.send (.raw data) data with
  | (.error e, ctx) => (.error e, ctx)
  | (.ok _, ctx) =>
    let ctx := ctx.atInstant .onMessageSent
    (.ok (), ctx.modifySession fun s => s.nextOutboundSeqNum.2)

def requestStop (ctx : EngineContext T) : EngineContext T := ctx.modifySession .onLogoutSent

end EngineContext

def AppProg.run {T α : Type} [Transport T] : AppProg α → EngineContext T → α × EngineContext T
  | .done result, ctx => (result, ctx)
  | .sendRaw data next, ctx =>
    match ctx.sendRaw data with
    | (res, ctx) => (next res).run ctx
  | .session next, ctx => (next ctx.session.view).run ctx
  | .requestStop next, ctx => next.run ctx.requestStop

end Velocitas
