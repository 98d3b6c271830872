import VelocitasFix.Tags

/-!
This module contains the session state machine. Instants and durations are numbers of nanoseconds;
an operation that reads the monotonic clock takes the readings as arguments.
-/

namespace Velocitas

abbrev Instant := Nat
abbrev Duration := Nat

def Duration.fromSecs (secs : Nat) : Duration := secs * 1000000000

def Duration.asSecs (d : Duration) : Nat := d / 1000000000

def Instant.durationSince (now earlier : Instant) : Duration := now - earlier

inductive SessionState where
  | disconnected
  | connecting
  | logonSent
  | active
  | resending
  | logoutSent
  deriving DecidableEq, Repr

inductive SessionRole where
  | initiator
  | acceptor
  deriving DecidableEq, Repr

inductive SequenceResetPolicy where
  | always
  | daily
  | weekly
  | never
  deriving DecidableEq, Repr

structure SessionConfig where
  sessionId : Bytes
  fixVersion : Bytes
  senderCompId : Bytes
  targetCompId : Bytes
  role : SessionRole
  heartbeatInterval : Duration
  reconnectInterval : Duration
  maxReconnectAttempts : UInt32
  sequenceResetPolicy : SequenceResetPolicy
  validateCompIds : Bool
  maxMsgRate : UInt32
  deriving DecidableEq, Repr

def SessionConfig.default : SessionConfig where
  sessionId := []
  fixVersion := ascii "FIX.4.4"
  senderCompId := []
  targetCompId := []
  role := .initiator
  heartbeatInterval := Duration.fromSecs 30
  reconnectInterval := Duration.fromSecs 1
  maxReconnectAttempts := 0
  sequenceResetPolicy := .daily
  validateCompIds := true
  maxMsgRate := 50000

inductive SessionAction where
  | send (data : Bytes)
  | disconnect
  | none
  deriving DecidableEq, Repr

structure Session where
  config : SessionConfig
  state : SessionState
  outboundSeqNum : UInt64
  inboundSeqNum : UInt64
  lastSentTime : Instant
  lastReceivedTime : Instant
  testRequestPending : Bool
  testRequestSentTime : Option Instant
  reconnectAttempts : UInt32
  msgCountWindow : UInt32
  windowStart : Instant
  deriving DecidableEq, Repr

namespace Session

def new (config : SessionConfig) (now : Instant) : Session where
  config := config
  state := .disconnected
  outboundSeqNum := 1
  inboundSeqNum := 1
  lastSentTime := now
  lastReceivedTime := now
  testRequestPending := false
  testRequestSentTime := none
  reconnectAttempts := 0
  msgCountWindow := 0
  windowStart := now

def nextOutboundSeqNum (s : Session) : UInt64 × Session :=
  (s.outboundSeqNum, { s with outboundSeqNum := s.outboundSeqNum + 1 })

def expectedInboundSeqNum (s : Session) : UInt64 := s.inboundSeqNum

def currentOutboundSeqNum (s : Session) : UInt64 := s.outboundSeqNum

-- The operation reads the clock twice, first for the receive time.
def onConnected (s : Session) (receivedNow sentNow : Instant) : Session :=
  match s.state with
  | .disconnected | .connecting =>
    { s with
      state := if s.config.role = .initiator then .logonSent else .connecting
      lastReceivedTime := receivedNow
      lastSentTime := sentNow
      reconnectAttempts := 0 }
  | _ => s

def onLogon (s : Session) (now : Instant) : Session :=
  { s with state := .active, lastReceivedTime := now, testRequestPending := false }

def validateInboundSeq (s : Session) (receivedSeq : UInt64) (now : Instant)
    : Except (UInt64 × UInt64) Unit × Session :=
  if receivedSeq = s.inboundSeqNum then
    (.ok (), { s with inboundSeqNum := s.inboundSeqNum + 1, lastReceivedTime := now })
  else if receivedSeq > s.inboundSeqNum then
    (.error (s.inboundSeqNum, receivedSeq), { s with state := .resending })
  else
    (.ok (), s)

def onGapFilled (s : Session) (newSeq : UInt64) : Session :=
  { s with inboundSeqNum := newSeq, state := .active }

def onLogoutSent (s : Session) : Session := { s with state := .logoutSent }

def onDisconnected (s : Session) : Session :=
  { s with state := .disconnected, testRequestPending := false }

def checkHeartbeat (s : Session) (now : Instant) : SessionAction × Session :=
  if s.state ≠ .active then
    (.none, s)
  else
    let sinceSent := now.durationSince s.lastSentTime
    let sinceReceived := now.durationSince s.lastReceivedTime
    if sinceSent ≥ s.config.heartbeatInterval then
      (.send [], { s with lastSentTime := now })
    else
      let timeout := s.config.heartbeatInterval + Duration.fromSecs 5
      if sinceReceived ≥ timeout then
        if s.testRequestPending then
          (.disconnect, s)
        else
          (.send [], { s with testRequestPending := true, testRequestSentTime := some now })
      else
        (.none, s)

def onMessageSent (s : Session) (now : Instant) : Session := { s with lastSentTime := now }

def onMessageReceived (s : Session) (now : Instant) : Session :=
  { s with lastReceivedTime := now, testRequestPending := false }

def shouldReconnect (s : Session) : Bool :=
  if s.state ≠ .disconnected then
    false
  else if s.config.role ≠ .initiator then
    false
  else if s.config.maxReconnectAttempts > 0
      && s.reconnectAttempts ≥ s.config.maxReconnectAttempts then
    false
  else
    true

def onReconnectAttempt (s : Session) : Session :=
  { s with reconnectAttempts := s.reconnectAttempts + 1, state := .connecting }

def resetSequences (s : Session) : Session := { s with outboundSeqNum := 1, inboundSeqNum := 1 }

def checkRateLimit (s : Session) (now : Instant) : Bool × Session :=
  let elapsed := now.durationSince s.windowStart
  let s := if elapsed ≥ Duration.fromSecs 1 then { s with msgCountWindow := 0, windowStart := now } else s
  let s := { s with msgCountWindow := s.msgCountWindow + 1 }
  (s.msgCountWindow ≤ s.config.maxMsgRate, s)

end Session

end Velocitas
