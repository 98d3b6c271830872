import VelocitasFix.Message.Impl
import VelocitasFix.Session.Impl

/-!
This module contains the FIXT 1.1 session: a base session and beside it the version of the application
layer, which is negotiated in the Logon.
-/

namespace Velocitas

namespace Tags

abbrev defaultApplVerId : UInt32 := 1137
abbrev applVerId : UInt32 := 1128

end Tags

def fixtBeginString : Bytes := ascii "FIXT.1.1"

inductive ApplVerID where
  | fix27
  | fix30
  | fix40
  | fix41
  | fix42
  | fix43
  | fix44
  | fix50
  | fix50SP1
  | fix50SP2
  deriving DecidableEq, Repr

namespace ApplVerID

def fromBytes (bytes : Bytes) : Option ApplVerID :=
  if bytes = ascii "0" then some .fix27
  else if bytes = ascii "1" then some .fix30
  else if bytes = ascii "2" then some .fix40
  else if bytes = ascii "3" then some .fix41
  else if bytes = ascii "4" then some .fix42
  else if bytes = ascii "5" then some .fix43
  else if bytes = ascii "6" then some .fix44
  else if bytes = ascii "7" then some .fix50
  else if bytes = ascii "8" then some .fix50SP1
  else if bytes = ascii "9" then some .fix50SP2
  else none

def asBytes : ApplVerID → Bytes
  | .fix27 => ascii "0"
  | .fix30 => ascii "1"
  | .fix40 => ascii "2"
  | .fix41 => ascii "3"
  | .fix42 => ascii "4"
  | .fix43 => ascii "5"
  | .fix44 => ascii "6"
  | .fix50 => ascii "7"
  | .fix50SP1 => ascii "8"
  | .fix50SP2 => ascii "9"

theorem fromBytes_asBytes (v : ApplVerID) : fromBytes v.asBytes = some v := by
  cases v
  all_goals decide

end ApplVerID

structure FixtSessionConfig where
  base : SessionConfig
  defaultApplVerId : ApplVerID
  supportedVersions : List ApplVerID
  deriving DecidableEq, Repr

structure LogonField where
  tag : UInt32
  value : Bytes
  deriving DecidableEq, Repr

inductive FixtError where
  | missingDefaultApplVerID
  | unsupportedApplVerID (bytes : Bytes)
  | invalidApplVerID (bytes : Bytes)
  | missingApplVerID
  deriving DecidableEq, Repr

structure FixtSession where
  base : Session
  config : FixtSessionConfig
  negotiatedVersion : Option ApplVerID
  deriving DecidableEq, Repr

namespace FixtSession

def new (config : FixtSessionConfig) (now : Instant) : FixtSession :=
  let config := { config with base.fixVersion := fixtBeginString }
  let config :=
    if config.defaultApplVerId ∉ config.supportedVersions then
      { config with supportedVersions := config.supportedVersions ++ [config.defaultApplVerId] }
    else
      config
  { base := .new config.base now, config, negotiatedVersion := none }

def onLogonReceived (s : FixtSession) (msg : MessageView) (now : Instant)
    : Except FixtError Unit × FixtSession :=
  match msg.getField Tags.defaultApplVerId with
  | none => (.error .missingDefaultApplVerID, s)
  | some verBytes =>
    match ApplVerID.fromBytes verBytes with
    | none => (.error (.invalidApplVerID verBytes), s)
    | some ver =>
      if ver ∉ s.config.supportedVersions then
        (.error (.unsupportedApplVerID verBytes), s)
      else
        (.ok (), { s with negotiatedVersion := some ver, base := s.base.onLogon now })

def buildLogonFields (s : FixtSession) : List LogonField :=
  [{ tag := Tags.defaultApplVerId, value := s.config.defaultApplVerId.asBytes }]

-- A session level message has no version of its own.
def validateApplVer (s : FixtSession) (msg : MessageView) : Except FixtError ApplVerID :=
  if msg.msgTypeEnum.any MsgTypeEnum.isSessionLevel then
    .ok (s.negotiatedVersion.getD s.config.defaultApplVerId)
  else
    match msg.getField Tags.applVerId with
    | some verBytes =>
      match ApplVerID.fromBytes verBytes with
      | none => .error (.invalidApplVerID verBytes)
      | some ver =>
        if ver ∉ s.config.supportedVersions then
          .error (.unsupportedApplVerID verBytes)
        else
          .ok ver
    | none =>
      match s.negotiatedVersion with
      | some ver => .ok ver
      | none => .error .missingApplVerID

def state (s : FixtSession) : SessionState := s.base.state

def onConnected (s : FixtSession) (receivedNow sentNow : Instant) : FixtSession :=
  { s with base := s.base.onConnected receivedNow sentNow }

def onLogon (s : FixtSession) (now : Instant) : FixtSession := { s with base := s.base.onLogon now }

def validateInboundSeq (s : FixtSession) (receivedSeq : UInt64) (now : Instant)
    : Except (UInt64 × UInt64) Unit × FixtSession :=
  let (result, base) := s.base.validateInboundSeq receivedSeq now
  (result, { s with base })

def onGapFilled (s : FixtSession) (newSeq : UInt64) : FixtSession :=
  { s with base := s.base.onGapFilled newSeq }

def onLogoutSent (s : FixtSession) : FixtSession := { s with base := s.base.onLogoutSent }

def onDisconnected (s : FixtSession) : FixtSession :=
  { s with base := s.base.onDisconnected, negotiatedVersion := none }

def checkHeartbeat (s : FixtSession) (now : Instant) : SessionAction × FixtSession :=
  let (action, base) := s.base.checkHeartbeat now
  (action, { s with base })

def onMessageSent (s : FixtSession) (now : Instant) : FixtSession :=
  { s with base := s.base.onMessageSent now }

def onMessageReceived (s : FixtSession) (now : Instant) : FixtSession :=
  { s with base := s.base.onMessageReceived now }

def onReconnectAttempt (s : FixtSession) : FixtSession :=
  { s with base := s.base.onReconnectAttempt }

def resetSequences (s : FixtSession) : FixtSession := { s with base := s.base.resetSequences }

def nextOutboundSeqNum (s : FixtSession) : UInt64 × FixtSession :=
  let (seq, base) := s.base.nextOutboundSeqNum
  (seq, { s with base })

def checkRateLimit (s : FixtSession) (now : Instant) : Bool × FixtSession :=
  let (allowed, base) := s.base.checkRateLimit now
  (allowed, { s with base })

end FixtSession

end Velocitas
