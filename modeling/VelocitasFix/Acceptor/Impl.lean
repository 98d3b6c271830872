import VelocitasFix.Data.Ascii
import VelocitasFix.Data.ModifyFirst
import VelocitasFix.Session.Impl
import Mathlib.Data.UInt

/-!
This module contains the acceptor: the pool of connection slots, and the operations that give a slot
to a counterparty and take it back.
-/

namespace Velocitas

open Ascii

structure AcceptorConfig where
  maxConnections : Nat
  connectionPoolSize : Nat
  allowedCompIds : List Bytes
  requireAuth : Bool
  defaultHeartbeatInterval : Duration
  defaultFixVersion : Bytes
  deriving DecidableEq, Repr

def AcceptorConfig.default : AcceptorConfig where
  maxConnections := 1024
  connectionPoolSize := 256
  allowedCompIds := []
  requireAuth := false
  defaultHeartbeatInterval := Duration.fromSecs 30
  defaultFixVersion := ascii "FIX.4.4"

inductive ConnectionState where
  | available
  | inUse
  | draining
  | closed
  deriving DecidableEq, Repr

structure PooledConnection where
  id : Nat
  state : ConnectionState
  session : Option Session
  remoteCompId : Bytes
  remoteAddress : Bytes
  connectedAtMs : UInt64
  lastActiveMs : UInt64
  bytesReceived : UInt64
  bytesSent : UInt64
  deriving DecidableEq, Repr

inductive AcceptorError where
  | poolExhausted
  | compIdNotAllowed (compId : Bytes)
  | alreadyConnected (compId : Bytes)
  | connectionNotFound (connId : Nat)
  | authRequired
  deriving DecidableEq, Repr

-- Connection ids and totals count the connections of one process; they do not reach 2^64.
structure Acceptor where
  config : AcceptorConfig
  connections : List PooledConnection
  nextConnId : Nat
  totalAccepted : Nat
  totalRejected : Nat
  deriving DecidableEq, Repr

structure AcceptorStats where
  activeConnections : Nat
  poolAvailable : Nat
  totalAccepted : Nat
  totalRejected : Nat
  totalBytesReceived : UInt64
  totalBytesSent : UInt64
  deriving DecidableEq, Repr

namespace PooledConnection

def empty (id : Nat) : PooledConnection where
  id := id
  state := .available
  session := none
  remoteCompId := []
  remoteAddress := []
  connectedAtMs := 0
  lastActiveMs := 0
  bytesReceived := 0
  bytesSent := 0

-- The slot keeps its id.
def clear (c : PooledConnection) : PooledConnection := empty c.id

def isActive (c : PooledConnection) : Bool := c.state = .inUse ∨ c.state = .draining

def drain (c : PooledConnection) : PooledConnection := { c with state := .draining }

-- The time since the last activity is zero when the clock reads less than at that activity.
def isIdle (c : PooledConnection) (maxIdleMs currentTimeMs : UInt64) : Bool :=
  let idleMs := if currentTimeMs < c.lastActiveMs then 0 else currentTimeMs - c.lastActiveMs
  c.state = .inUse ∧ idleMs > maxIdleMs

end PooledConnection

namespace Acceptor

def new (config : AcceptorConfig) : Acceptor where
  config := config
  connections := (List.range config.connectionPoolSize).map .empty
  nextConnId := config.connectionPoolSize
  totalAccepted := 0
  totalRejected := 0

def reject (acc : Acceptor) : Acceptor := { acc with totalRejected := acc.totalRejected + 1 }

def isCompIdAllowed (acc : Acceptor) (compId : Bytes) : Bool :=
  acc.config.allowedCompIds.isEmpty || acc.config.allowedCompIds.any (· = compId)

def findByCompId (acc : Acceptor) (compId : Bytes) : Option Nat :=
  (acc.connections.find? fun c => c.isActive && c.remoteCompId = compId).map (·.id)

def sessionConfig (acc : Acceptor) (connId : Nat) (compId : Bytes) : SessionConfig where
  sessionId := ascii "ACC-" ++ decimal connId
  fixVersion := acc.config.defaultFixVersion
  senderCompId := ascii "VELOCITAS"
  targetCompId := compId
  role := .acceptor
  heartbeatInterval := acc.config.defaultHeartbeatInterval
  reconnectInterval := Duration.fromSecs 0
  maxReconnectAttempts := 0
  sequenceResetPolicy := .daily
  validateCompIds := true
  maxMsgRate := 50000

-- The slot of an accepted connection; `now` is the clock reading of the new session.
def occupied (acc : Acceptor) (remoteAddr compId : Bytes) (currentTimeMs : UInt64) (now : Instant)
    : PooledConnection where
  id := acc.nextConnId
  state := .inUse
  session := some (.new (acc.sessionConfig acc.nextConnId compId) now)
  remoteCompId := compId
  remoteAddress := remoteAddr
  connectedAtMs := currentTimeMs
  lastActiveMs := currentTimeMs
  bytesReceived := 0
  bytesSent := 0

def acceptConnection (acc : Acceptor) (remoteAddr compId : Bytes) (currentTimeMs : UInt64)
    (now : Instant) : Except AcceptorError Nat × Acceptor :=
  if acc.config.requireAuth then
    (.error .authRequired, acc.reject)
  else if !acc.isCompIdAllowed compId then
    (.error (.compIdNotAllowed compId), acc.reject)
  else if (acc.findByCompId compId).isSome then
    (.error (.alreadyConnected compId), acc.reject)
  else
    match acc.connections.modifyFirst (fun c => c.state = .available)
        fun _ => acc.occupied remoteAddr compId currentTimeMs now with
    | none => (.error .poolExhausted, acc.reject)
    | some connections =>
      (.ok acc.nextConnId,
        { acc with
          connections
          nextConnId := acc.nextConnId + 1
          totalAccepted := acc.totalAccepted + 1 })

def releaseConnection (acc : Acceptor) (connId : Nat) : Except AcceptorError Unit × Acceptor :=
  match acc.connections.modifyFirst (fun c => c.id = connId ∧ c.state ≠ .available) .clear with
  | some connections => (.ok (), { acc with connections })
  | none => (.error (.connectionNotFound connId), acc)

def getSession (acc : Acceptor) (connId : Nat) : Option Session :=
  (acc.connections.find? fun c => c.id = connId).bind (·.session)

-- What the caller writes through the references to a session and to a slot.
def getSessionMut (acc : Acceptor) (connId : Nat) (write : Session → Session) : Acceptor :=
  let connections := acc.connections.modifyFirst (fun c => c.id = connId)
    fun c => { c with session := c.session.map write }
  { acc with connections := connections.getD acc.connections }

def getConnectionMut (acc : Acceptor) (connId : Nat) (lastActiveMs bytesReceived bytesSent : UInt64)
    : Acceptor :=
  let connections := acc.connections.modifyFirst (fun c => c.id = connId)
    fun c => { c with lastActiveMs, bytesReceived, bytesSent }
  { acc with connections := connections.getD acc.connections }

-- Only the first slot with the id is looked at, whatever its state is.
def drainConnection (acc : Acceptor) (connId : Nat) : Except AcceptorError Unit × Acceptor :=
  match acc.connections.find? fun c => c.id = connId with
  | some c =>
    if c.state = .inUse then
      let connections := acc.connections.modifyFirst (fun c => c.id = connId) .drain
      (.ok (), { acc with connections := connections.getD acc.connections })
    else
      (.error (.connectionNotFound connId), acc)
  | none => (.error (.connectionNotFound connId), acc)

def evictIdle (acc : Acceptor) (maxIdleMs currentTimeMs : UInt64) : Nat × Acceptor :=
  (acc.connections.countP (·.isIdle maxIdleMs currentTimeMs),
    { acc with
      connections := acc.connections.map fun c =>
        if c.isIdle maxIdleMs currentTimeMs then c.clear else c })

def activeCount (acc : Acceptor) : Nat := acc.connections.countP (·.isActive)

def stats (acc : Acceptor) : AcceptorStats where
  activeConnections := acc.activeCount
  poolAvailable := acc.connections.countP (·.state = .available)
  totalAccepted := acc.totalAccepted
  totalRejected := acc.totalRejected
  totalBytesReceived := (acc.connections.map (·.bytesReceived)).sum
  totalBytesSent := (acc.connections.map (·.bytesSent)).sum

end Acceptor

end Velocitas
