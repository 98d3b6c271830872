import VelocitasFix.Tags

/-!
This module contains the flyweight view of a message: an index of the fields of a wire buffer, and
the accessors that read values through it.
-/

namespace Velocitas

def maxFields : Nat := 512

structure FieldEntry where
  tag : UInt32
  offset : UInt32
  length : UInt16
  deriving DecidableEq, Repr

structure MessageView where
  buffer : Bytes
  fields : List FieldEntry
  msgTypeIdx : Nat
  checksumValid : Bool
  deriving DecidableEq, Repr

namespace MessageView

def new (buffer : Bytes) : MessageView :=
  { buffer, fields := [], msgTypeIdx := 0, checksumValid := false }

def addField (view : MessageView) (tag offset : UInt32) (length : UInt16) : MessageView :=
  if view.fields.length < maxFields then
    { view with
      fields := view.fields ++ [⟨tag, offset, length⟩]
      msgTypeIdx := if tag = Tags.msgType then view.fields.length else view.msgTypeIdx }
  else
    view

def setChecksumValid (view : MessageView) (valid : Bool) : MessageView :=
  { view with checksumValid := valid }

def fieldCount (view : MessageView) : Nat := view.fields.length

def entryValue (view : MessageView) (e : FieldEntry) : Bytes :=
  slice view.buffer e.offset.toNat e.length.toNat

def getField (view : MessageView) (tag : UInt32) : Option Bytes :=
  (view.fields.find? (·.tag = tag)).map view.entryValue

def msgType (view : MessageView) : Option Bytes :=
  match view.fields[view.msgTypeIdx]? with
  | some e => if e.tag = Tags.msgType then some (view.entryValue e) else view.getField Tags.msgType
  | none => view.getField Tags.msgType

end MessageView

-- The enumeration `MsgType`; that name stands for the type values of the engine's dispatch.
inductive MsgTypeEnum where
  | heartbeat
  | testRequest
  | resendRequest
  | reject
  | sequenceReset
  | logout
  | logon
  | newOrderSingle
  | orderCancelRequest
  | orderCancelReplaceRequest
  | orderStatusRequest
  | executionReport
  | orderCancelReject
  | marketDataRequest
  | marketDataSnapshot
  | marketDataIncremental
  | quoteRequest
  | quote
  | tradeCaptureReport
  | unknown
  deriving DecidableEq, Repr

namespace MsgTypeEnum

def arms : List (Bytes × MsgTypeEnum) :=
  [(ascii "0", .heartbeat), (ascii "1", .testRequest), (ascii "2", .resendRequest),
    (ascii "3", .reject), (ascii "4", .sequenceReset), (ascii "5", .logout), (ascii "A", .logon),
    (ascii "D", .newOrderSingle), (ascii "F", .orderCancelRequest),
    (ascii "G", .orderCancelReplaceRequest), (ascii "H", .orderStatusRequest),
    (ascii "8", .executionReport), (ascii "9", .orderCancelReject), (ascii "V", .marketDataRequest),
    (ascii "W", .marketDataSnapshot), (ascii "X", .marketDataIncremental),
    (ascii "R", .quoteRequest), (ascii "S", .quote), (ascii "AE", .tradeCaptureReport)]

-- Every other value is `Unknown`.
def fromBytes (bytes : Bytes) : Option MsgTypeEnum :=
  match arms.find? (·.1 = bytes) with
  | some (_, msgType) => some msgType
  | none => some .unknown

def isSessionLevel : MsgTypeEnum → Bool
  | .heartbeat | .testRequest | .resendRequest | .reject | .sequenceReset | .logout | .logon => true
  | _ => false

end MsgTypeEnum

namespace MessageView

def msgTypeEnum (view : MessageView) : Option MsgTypeEnum :=
  view.msgType.bind MsgTypeEnum.fromBytes

def parseU64 (bytes : Bytes) : Option UInt64 :=
  if bytes.isEmpty then
    none
  else
    go bytes 0
where
  go : Bytes → UInt64 → Option UInt64
    | [], result => some result
    | b :: rest, result =>
      if b < 48 || b > 57 then
        none
      else
        go rest (result * 10 + (b - 48).toUInt64)

def parseI64 (bytes : Bytes) : Option Int64 :=
  if bytes.isEmpty then
    none
  else
    let (negative, start) := if bytes.head? = some 45 then (true, 1) else (false, 0)
    (go (bytes.drop start) 0).map fun result => if negative then -result else result
where
  go : Bytes → Int64 → Option Int64
    | [], result => some result
    | b :: rest, result =>
      if b < 48 || b > 57 then
        none
      else
        go rest (result * 10 + Int64.ofNat (b - 48).toNat)

-- The value as a string, when it is one.
def getFieldStr (view : MessageView) (tag : UInt32) : Option Bytes :=
  (view.getField tag).filter fun bytes => (ByteArray.mk bytes.toArray).validateUTF8

def senderCompId (view : MessageView) : Option Bytes :=
  view.getFieldStr Tags.senderCompId

def getFieldU64 (view : MessageView) (tag : UInt32) : Option UInt64 :=
  view.getField tag |>.bind parseU64

def getFieldI64 (view : MessageView) (tag : UInt32) : Option Int64 :=
  view.getField tag |>.bind parseI64

def msgSeqNum (view : MessageView) : Option UInt64 :=
  view.getFieldU64 Tags.msgSeqNum

end MessageView

end Velocitas
