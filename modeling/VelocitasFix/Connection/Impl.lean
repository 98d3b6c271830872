import VelocitasFix.Engine.Embedder
import VelocitasFix.Transport.Tcp

/-!
This module contains the client and a TCP connection between it and an acceptor. The network moves
bytes in order and as it pleases: it divides them into reads, makes them wait, and fails an
operation when it wants to, but after a write has failed, nothing more is written.
-/

namespace Velocitas

open Ascii

structure FixClientConfig where
  remoteHost : Bytes
  remotePort : UInt16
  senderCompId : Bytes
  targetCompId : Bytes
  fixVersion : Bytes
  heartbeatInterval : Duration
  reconnectAttempts : UInt32
  deriving DecidableEq, Repr

namespace FixClientConfig

def default : FixClientConfig where
  remoteHost := ascii "127.0.0.1"
  remotePort := 9878
  senderCompId := []
  targetCompId := []
  fixVersion := ascii "FIX.4.4"
  heartbeatInterval := Duration.fromSecs 30
  reconnectAttempts := 3

def sessionConfig (config : FixClientConfig) : SessionConfig where
  sessionId := config.senderCompId ++ ascii "-" ++ config.targetCompId
  fixVersion := config.fixVersion
  senderCompId := config.senderCompId
  targetCompId := config.targetCompId
  role := .initiator
  heartbeatInterval := config.heartbeatInterval
  reconnectInterval := Duration.fromSecs 1
  maxReconnectAttempts := config.reconnectAttempts
  sequenceResetPolicy := .daily
  validateCompIds := true
  maxMsgRate := 50000

end FixClientConfig

namespace FixClient

variable {S A : Type} [TcpStream S]

-- The engine of `connect_and_run`, before the call of `run_initiator` that ends it.
def connect (dial : Bytes → UInt16 → Except ErrorKind S) (config : FixClientConfig)
    (now : Instant) (clock : Clock)
    : Except ErrorKind (FixEngine (StdTcpTransport S)) :=
  match (StdTcpTransport.new .kernelTcp).connect dial config.remoteHost config.remotePort with
  | (.error e, _) => .error e
  | (.ok _, transport) => .ok (.new transport (.new config.sessionConfig now) clock)

end FixClient

-- What becomes of an operation: how many bytes it moves at most, or how many until it fails.
inductive Fate where
  | done (limit : Nat)
  | failed (limit : Nat) (e : ErrorKind)

-- One end of the connection: `inbox` has arrived and `outbox` waits for the network.
structure TcpEnd where
  inbox : Bytes
  outbox : Bytes
  finished : Bool
  broken : Option ErrorKind
  fates : Nat → Fate
  ops : Nat

namespace TcpEnd

def new (fates : Nat → Fate) : TcpEnd where
  inbox := []
  outbox := []
  finished := false
  broken := none
  fates := fates
  ops := 0

def fate (s : TcpEnd) : Fate := s.fates s.ops

def tick (s : TcpEnd) : TcpEnd := { s with ops := s.ops + 1 }

-- A read waits for at least one byte until it times out, or until the peer has closed its end.
def read (s : TcpEnd) (n : Nat) : Except ErrorKind Bytes × TcpEnd :=
  match s.fate with
  | .failed _ e => (.error e, s.tick)
  | .done limit =>
    if s.inbox = [] then
      (if s.finished then .ok [] else .error .wouldBlock, s.tick)
    else
      let k := min n (limit + 1)
      (.ok (s.inbox.take k), { s.tick with inbox := s.inbox.drop k })

def writeAll (s : TcpEnd) (data : Bytes) : Except ErrorKind Unit × TcpEnd :=
  match s.broken with
  | some e => (.error e, s.tick)
  | none =>
    match s.fate with
    | .failed limit e =>
      (.error e, { s.tick with outbox := s.outbox ++ data.take limit, broken := some e })
    | .done _ => (.ok (), { s.tick with outbox := s.outbox ++ data })

def arrive (s : TcpEnd) (data : Bytes) : TcpEnd := { s with inbox := s.inbox ++ data }

def finish (s : TcpEnd) : TcpEnd := { s with finished := true }

def flush (s : TcpEnd) : TcpEnd := { s with outbox := [] }

theorem length_read {s s' : TcpEnd} {n : Nat} {data : Bytes} (h : s.read n = (.ok data, s'))
    : data.length ≤ n := by
  unfold read at h
  split at h
  . exact nomatch congrArg Prod.fst h
  . split at h
    . injection h with h
      split at h
      . injection h with h
        rw [← h]
        exact Nat.zero_le n
      . contradiction
    . injection h with h
      injection h with h
      rw [← h, List.length_take]
      omega

instance : TcpStream TcpEnd where
  setNodelay := fun s _ => (.ok (), s)
  setReadTimeout := fun s _ => (.ok (), s)
  read := read
  writeAll := writeAll
  length_read := length_read

end TcpEnd

abbrev TcpEngine : Type := FixEngine (StdTcpTransport TcpEnd)

-- A process at one end of the connection.
structure Peer (A : Type) where
  started : Bool
  state : RunState (StdTcpTransport TcpEnd) A

namespace Peer

variable {A : Type}

def new (engine : TcpEngine) (a : A) : Peer A where
  started := false
  state := engine.atRest a

def ctx (p : Peer A) : EngineContext (StdTcpTransport TcpEnd) := p.state.engine.ctx

def stream (p : Peer A) : Option TcpEnd := p.ctx.transport.stream

def outbox (p : Peer A) : Bytes :=
  match p.stream with
  | none => []
  | some s => s.outbox

-- What the network does to an end, as long as the process has not closed it.
def mapStream (f : TcpEnd → TcpEnd) (p : Peer A) : Peer A :=
  let engine := p.state.engine
  let transport := { engine.ctx.transport with stream := p.stream.map f }
  let engine := { engine with ctx := { engine.ctx with transport } }
  { p with state := { p.state with engine } }

def advance (entry : Entry) (app : FixApp A) (p : Peer A) : Peer A :=
  if p.started then
    { p with state := p.state.step app }
  else
    { started := true, state := entry.start p.state.engine p.state.app }

end Peer

structure Connection (A B : Type) where
  client : Peer A
  server : Peer B
  toServer : Bytes
  toClient : Bytes

namespace Connection

variable {A B : Type}

-- A process runs, the next bytes of a direction arrive, or the end of a direction does.
inductive Move where
  | client
  | server
  | arriveAtServer (n : Nat)
  | arriveAtClient (n : Nat)
  | finishServer
  | finishClient

-- The connection is made, and neither process has done anything with it.
def establish (config : FixClientConfig) (config' : SessionConfig) (fates fates' : Nat → Fate)
    (now now' : Instant) (clock clock' : Clock) (a : A) (b : B)
    : Except ErrorKind (Connection A B) := do
  let client ← FixClient.connect (fun _ _ => .ok (TcpEnd.new fates)) config now clock
  let transport ← StdTcpTransport.fromStream (TcpEnd.new fates') .kernelTcp
  return {
    client := .new client a
    server := .new (.new transport (.new config' now') clock') b
    toServer := []
    toClient := [] }

def step (clientApp : FixApp A) (serverApp : FixApp B) (c : Connection A B)
    : Move → Connection A B
  | .client =>
    let client := c.client.advance .runInitiator clientApp
    { c with client := client.mapStream .flush, toServer := c.toServer ++ client.outbox }
  | .server =>
    let server := c.server.advance .runAcceptor serverApp
    { c with server := server.mapStream .flush, toClient := c.toClient ++ server.outbox }
  | .arriveAtServer n =>
    { c with
      server := c.server.mapStream (TcpEnd.arrive · (c.toServer.take n))
      toServer := c.toServer.drop n }
  | .arriveAtClient n =>
    { c with
      client := c.client.mapStream (TcpEnd.arrive · (c.toClient.take n))
      toClient := c.toClient.drop n }
  | .finishServer =>
    if c.client.stream.isNone ∧ c.toServer = [] then
      { c with server := c.server.mapStream .finish }
    else
      c
  | .finishClient =>
    if c.server.stream.isNone ∧ c.toClient = [] then
      { c with client := c.client.mapStream .finish }
    else
      c

def run (clientApp : FixApp A) (serverApp : FixApp B) (moves : List Move) (c : Connection A B)
    : Connection A B :=
  moves.foldl (step clientApp serverApp) c

end Connection

end Velocitas
