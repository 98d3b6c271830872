import VelocitasFix.Acceptor.Impl
import VelocitasFix.Engine.Embedder
import VelocitasFix.Transport.Tcp

/-!
This module contains the server: it listens, reads the Logon of each connection, registers it with the
shared acceptor and runs an engine for it. Every connection has a thread of its own, and the threads
take their steps in any order; a step touches the acceptor at most once.
-/

namespace Velocitas

open Ascii

structure FixServerConfig where
  senderCompId : Bytes
  fixVersion : Bytes
  heartbeatInterval : Duration
  allowedCompIds : List Bytes
  maxConnections : Nat
  connectionPoolSize : Nat
  deriving DecidableEq, Repr

namespace FixServerConfig

def default : FixServerConfig where
  senderCompId := ascii "VELOCITAS"
  fixVersion := ascii "FIX.4.4"
  heartbeatInterval := Duration.fromSecs 30
  allowedCompIds := []
  maxConnections := 256
  connectionPoolSize := 64

def acceptorConfig (config : FixServerConfig) : AcceptorConfig :=
  { AcceptorConfig.default with
    maxConnections := config.maxConnections
    connectionPoolSize := config.connectionPoolSize
    allowedCompIds := config.allowedCompIds }

def sessionConfig (config : FixServerConfig) (connId : Nat) (logonCompId : Bytes)
    : SessionConfig where
  sessionId := ascii "ACC-" ++ decimal connId
  fixVersion := config.fixVersion
  senderCompId := config.senderCompId
  targetCompId := logonCompId
  role := .acceptor
  heartbeatInterval := config.heartbeatInterval
  reconnectInterval := Duration.fromSecs 0
  maxReconnectAttempts := 0
  sequenceResetPolicy := .daily
  validateCompIds := true
  maxMsgRate := 50000

end FixServerConfig

-- The errors of a connection, each one for the text that the source gives it.
inductive HandleError where
  | io (e : ErrorKind)
  | closedBeforeLogon
  | parse (e : ParseError)
  | noMsgType
  | notLogon (msgType : Bytes)
  | noSenderCompId
  | denied (e : AcceptorError)
  deriving DecidableEq, Repr

def HandleError.kind : HandleError → ErrorKind
  | .io e => e
  | .closedBeforeLogon => .unexpectedEof
  | .parse _ => .invalidData
  | .noMsgType => .invalidData
  | .notLogon _ => .invalidData
  | .noSenderCompId => .invalidData
  | .denied _ => .permissionDenied

def FixParser.logonCompId (parser : FixParser) (frame : Bytes) : Except HandleError Bytes :=
  match parser.parse frame with
  | .error e => .error (.parse e)
  | .ok (view, _) =>
    match view.msgType with
    | none => .error .noMsgType
    | some msgType =>
      if msgType ≠ MsgType.logon then
        .error (.notLogon msgType)
      else
        match view.senderCompId with
        | none => .error .noSenderCompId
        | some compId => .ok compId

variable {S A : Type} [TcpStream S]

-- Reads until `pre`, what is read so far of the 4096 bytes of the buffer, has a message boundary.
def readLogon (parser : FixParser) (stream : S) (pre : Bytes) : Except HandleError Bytes × S :=
  match hread : TcpStream.read stream (4096 - pre.length) with
  | (.error e, stream) => (.error (.io e), stream)
  | (.ok data, stream) =>
    if data.length = 0 then
      (.error .closedBeforeLogon, stream)
    else
      match FixParser.findMessageBoundary (pre ++ data) with
      | some boundary => (parser.logonCompId ((pre ++ data).take boundary), stream)
      | none => readLogon parser stream (pre ++ data)
termination_by 4096 - pre.length
decreasing_by
  have hlen := TcpStream.length_read hread
  rw [List.length_append]
  omega

-- The thread of a connection: what `handle_connection` has done so far, and how it ended.
inductive Thread (S A : Type) where
  | connected (remote : Bytes) (stream : S)
  | logonRead (remote logonCompId : Bytes) (stream : S)
  | registered (connId : Nat) (logonCompId : Bytes) (stream : S)
  | running (connId : Nat) (s : RunState (StdTcpTransport S) A)
  | returned (connId : Option Nat) (res : Except HandleError Unit)
  | panicked (connId : Nat)

-- What a thread finds when it takes a step: the clocks, and the application the factory creates.
structure Env (A : Type) where
  nowMs : UInt64
  now : Instant
  clock : Clock
  app : A

namespace Thread

def preRead (remote : Bytes) (stream : S) : Thread S A :=
  match TcpStream.setNodelay stream true with
  | (.error e, _) => .returned none (.error (.io e))
  | (.ok _, stream) =>
    match TcpStream.setReadTimeout stream (some (.fromSecs 10)) with
    | (.error e, _) => .returned none (.error (.io e))
    | (.ok _, stream) =>
      match readLogon .new stream [] with
      | (.error e, _) => .returned none (.error e)
      | (.ok logonCompId, stream) => .logonRead remote logonCompId stream

def register (env : Env A) (acc : Acceptor) (remote logonCompId : Bytes) (stream : S)
    : Acceptor × Thread S A :=
  match acc.acceptConnection remote logonCompId env.nowMs env.now with
  | (.error e, acc) => (acc, .returned none (.error (.denied e)))
  | (.ok connId, acc) => (acc, .registered connId logonCompId stream)

-- Creates the engine and sends the Logon response.
def setUp (config : FixServerConfig) (env : Env A) (connId : Nat) (logonCompId : Bytes) (stream : S)
    : Thread S A :=
  match StdTcpTransport.fromStream stream .kernelTcp with
  | .error e => .returned (some connId) (.error (.io e))
  | .ok transport =>
    let session := Session.new (config.sessionConfig connId logonCompId) env.now
    match (FixEngine.new transport session env.clock).handleInboundLogon with
    | .halt (.error e) _ => .returned (some connId) (.error (.io e))
    | .halt .panic _ => .panicked connId
    | .next engine => .running connId (Call.runAcceptor.start engine env.app)

-- The connection is released after the loop has returned.
def run (app : FixApp A) (acc : Acceptor) (connId : Nat) (s : RunState (StdTcpTransport S) A)
    : Acceptor × Thread S A :=
  match s.phase with
  | .returned res => ((acc.releaseConnection connId).2, .returned (some connId) (res.mapError .io))
  | .panicked => (acc, .panicked connId)
  | _ => (acc, .running connId (s.step app))

def step (config : FixServerConfig) (app : FixApp A) (env : Env A) (acc : Acceptor)
    (thread : Thread S A)
    : Acceptor × Thread S A :=
  match thread with
  | .connected remote stream => (acc, preRead remote stream)
  | .logonRead remote logonCompId stream => register env acc remote logonCompId stream
  | .registered connId logonCompId stream => (acc, setUp config env connId logonCompId stream)
  | .running connId s => run app acc connId s
  | .returned connId res => (acc, .returned connId res)
  | .panicked connId => (acc, .panicked connId)

end Thread

structure FixServer (S A : Type) where
  acceptor : Acceptor
  threads : List (Thread S A)

namespace FixServer

inductive Move (S A : Type) where
  | accept (remote : Bytes) (stream : S)
  | advance (i : Nat) (env : Env A)

def new (config : FixServerConfig) : FixServer S A where
  acceptor := .new config.acceptorConfig
  threads := []

def step (config : FixServerConfig) (app : FixApp A) (server : FixServer S A) (move : Move S A)
    : FixServer S A :=
  match move with
  | .accept remote stream =>
    { server with threads := server.threads ++ [.connected remote stream] }
  | .advance i env =>
    match server.threads[i]? with
    | none => server
    | some thread =>
      let (acceptor, thread) := thread.step config app env server.acceptor
      { acceptor, threads := server.threads.set i thread }

def run (config : FixServerConfig) (app : FixApp A) (moves : List (Move S A)) : FixServer S A :=
  moves.foldl (step config app) (new config)

end FixServer

end Velocitas
