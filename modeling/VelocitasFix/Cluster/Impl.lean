import VelocitasFix.Data.KeyedTable
import VelocitasFix.Data.LengthPrefixed
import VelocitasFix.Data.Utf8

/-!
This module contains the implementation of a cluster node: elections, the replicated table of session
states, and the snapshots of that table.
-/

namespace Velocitas

inductive NodeRole where
  | leader
  | follower
  | candidate
  deriving DecidableEq, Repr

inductive NodeState where
  | joining
  | active
  | snapshotting
  | left
  deriving DecidableEq, Repr

structure NodeId where
  id : UInt32
  address : String
  port : UInt16
  deriving DecidableEq, Repr

structure ClusterConfig where
  nodeId : NodeId
  peers : List NodeId
  deriving DecidableEq, Repr

inductive LogEntryType where
  | sessionStateChange
  | sequenceUpdate
  | messageJournal
  | configuration
  | snapshot
  deriving DecidableEq, Repr

structure LogEntry where
  term : UInt64
  index : UInt64
  entryType : LogEntryType
  data : Bytes
  deriving DecidableEq, Repr

structure ReplicatedSessionState where
  sessionId : String
  senderCompId : String
  targetCompId : String
  outboundSeqNum : UInt64
  inboundSeqNum : UInt64
  state : UInt8
  lastUpdatedMs : UInt64
  deriving DecidableEq, Repr

namespace ReplicatedSessionState

-- `encode_session_state`; the length of a string is cut to a `u16`.
def encode (s : ReplicatedSessionState) : Bytes :=
  LengthPrefixed.write 2 (Utf8.encode s.sessionId)
    ++ LengthPrefixed.write 2 (Utf8.encode s.senderCompId)
    ++ LengthPrefixed.write 2 (Utf8.encode s.targetCompId)
    ++ LittleEndian.encode 8 s.outboundSeqNum.toNat
    ++ LittleEndian.encode 8 s.inboundSeqNum.toNat
    ++ [s.state]
    ++ LittleEndian.encode 8 s.lastUpdatedMs.toNat

-- The closure `read_str`: the string at an offset and the offset behind it.
def readStr (data : Bytes) (offset : Nat) : Option (String × Nat) := do
  let (piece, offset) ← LengthPrefixed.read 2 data offset
  let s ← Utf8.decode piece
  some (s, offset)

-- `decode_session_state`
def decode (data : Bytes) : Option ReplicatedSessionState := do
  let (sessionId, offset) ← readStr data 0
  let (senderCompId, offset) ← readStr data offset
  let (targetCompId, offset) ← readStr data offset
  if offset + 8 + 8 + 1 + 8 > data.length then
    none
  else
    let number (offset : Nat) : UInt64 :=
      UInt64.ofNat (LittleEndian.decode (slice data offset 8))
    some
      { sessionId, senderCompId, targetCompId,
        outboundSeqNum := number offset,
        inboundSeqNum := number (offset + 8),
        state := data.getD (offset + 16) 0,
        lastUpdatedMs := number (offset + 17) }

-- What an existing record takes over of a new one with the same session id.
def update (existing new : ReplicatedSessionState) : ReplicatedSessionState :=
  { existing with
    outboundSeqNum := new.outboundSeqNum
    inboundSeqNum := new.inboundSeqNum
    state := new.state
    lastUpdatedMs := new.lastUpdatedMs }

end ReplicatedSessionState

structure ClusterNode where
  config : ClusterConfig
  role : NodeRole
  state : NodeState
  currentTerm : UInt64
  votedFor : Option UInt32
  commitIndex : UInt64
  lastApplied : UInt64
  log : List LogEntry
  sessionStates : List ReplicatedSessionState
  leaderId : Option UInt32
  votesReceived : UInt32
  deriving DecidableEq, Repr

namespace ClusterNode

def new (config : ClusterConfig) : ClusterNode where
  config := config
  role := .follower
  state := .joining
  currentTerm := 0
  votedFor := none
  commitIndex := 0
  lastApplied := 0
  log := []
  sessionStates := []
  leaderId := none
  votesReceived := 0

def stepDown (n : ClusterNode) (newTerm : UInt64) : ClusterNode :=
  { n with
    role := .follower
    currentTerm := newTerm
    votedFor := none
    votesReceived := 0
    leaderId := none }

def becomeLeader (n : ClusterNode) : ClusterNode :=
  { n with
    role := .leader
    leaderId := some n.config.nodeId.id
    votesReceived := 0 }

def beginElection (n : ClusterNode) : ClusterNode :=
  let n :=
    { n with
      currentTerm := n.currentTerm + 1
      role := .candidate
      votedFor := some n.config.nodeId.id
      votesReceived := 1
      leaderId := none }
  if n.config.peers.isEmpty then n.becomeLeader else n

-- The log entries that are not committed.
def pendingEntries (n : ClusterNode) : UInt64 :=
  if n.log.isEmpty then
    0
  else
    let lastIndex := n.log.getLast?.elim 0 (·.index)
    if lastIndex > n.commitIndex then lastIndex - n.commitIndex else 0

def start (n : ClusterNode) : ClusterNode := { n with state := .active }.beginElection

-- The number of peers is cut to a `u32`.
def majority (config : ClusterConfig) : UInt32 :=
  let clusterSize := UInt32.ofNat config.peers.length + 1
  clusterSize / 2 + 1

-- The source does not look at the node that the vote comes from.
def receiveVote (n : ClusterNode) (_fromNode : UInt32) (term : UInt64) (granted : Bool)
    : ClusterNode :=
  if term > n.currentTerm then
    n.stepDown term
  else if n.role ≠ .candidate ∨ term ≠ n.currentTerm then
    n
  else if granted then
    let n := { n with votesReceived := n.votesReceived + 1 }
    if n.votesReceived ≥ majority n.config then n.becomeLeader else n
  else
    n

def replicateSessionState (n : ClusterNode) (state : ReplicatedSessionState) : ClusterNode :=
  let index := (n.log.getLast?.elim 0 (·.index)) + 1
  let entry : LogEntry :=
    { term := n.currentTerm, index, entryType := .sessionStateChange, data := state.encode }
  { n with log := n.log ++ [entry] }

-- The session state that an entry carries, if it carries one that can be decoded.
def change (entry : LogEntry) : Option ReplicatedSessionState :=
  if entry.entryType = .sessionStateChange then
    ReplicatedSessionState.decode entry.data
  else
    none

-- The record with the session id is updated, or the new record is pushed.
def upsert (states : List ReplicatedSessionState) (state : ReplicatedSessionState)
    : List ReplicatedSessionState :=
  KeyedTable.upsert ReplicatedSessionState.sessionId ReplicatedSessionState.update states state

def applyLogEntry (n : ClusterNode) (entry : LogEntry) : ClusterNode :=
  { n with
    sessionStates :=
      match change entry with
      | some state => upsert n.sessionStates state
      | none => n.sessionStates
    lastApplied := if entry.index > n.lastApplied then entry.index else n.lastApplied
    commitIndex := if entry.index > n.commitIndex then entry.index else n.commitIndex }

def getSessionState (n : ClusterNode) (sessionId : String) : Option ReplicatedSessionState :=
  n.sessionStates.find? (·.sessionId = sessionId)

-- The number of records and the length of each one are cut to a `u32`.
def createSnapshot (n : ClusterNode) : Bytes :=
  LittleEndian.encode 4 n.sessionStates.length
    ++ n.sessionStates.flatMap fun state => LengthPrefixed.write 4 state.encode

-- The loop of `restore_snapshot`: it ends at the first record that is cut off.
def restoreStates (data : Bytes)
    : Nat → Nat → List ReplicatedSessionState → List ReplicatedSessionState
  | 0, _, states => states
  | count + 1, offset, states =>
    match LengthPrefixed.read 4 data offset with
    | none => states
    | some (piece, offset) =>
      match ReplicatedSessionState.decode piece with
      | some state => restoreStates data count offset (states ++ [state])
      | none => restoreStates data count offset states

def restoreSnapshot (n : ClusterNode) (data : Bytes) : ClusterNode :=
  let n := { n with sessionStates := [] }
  if data.length < 4 then
    n
  else
    let count := LittleEndian.decode (slice data 0 4)
    { n with sessionStates := restoreStates data count 4 n.sessionStates, state := .active }

end ClusterNode

end Velocitas
