import VelocitasFix.Checksum.Impl

/-!
This module contains the message serializer. It writes into a buffer of fixed size; an operation
that would write or index out of bounds panics, which is `none` here.
-/

namespace Velocitas

@[ext]
structure FixSerializer where
  buffer : Bytes
  pos : Nat
  bodyStart : Nat
  pos_le : pos ≤ buffer.length
  bodyStart_le : bodyStart ≤ pos

namespace FixSerializer

def new (buffer : Bytes) : FixSerializer :=
  { buffer, pos := 0, bodyStart := 0, pos_le := Nat.zero_le _, bodyStart_le := Nat.le_refl _ }

def asBytes (s : FixSerializer) : Bytes := s.buffer.take s.pos

def writeBytes (s : FixSerializer) (data : Bytes) : Option FixSerializer :=
  if h:s.pos + data.length ≤ s.buffer.length then
    some {
      buffer := overwrite s.buffer s.pos data
      pos := s.pos + data.length
      bodyStart := s.bodyStart
      pos_le := by
        rw [length_overwrite h]
        exact h
      bodyStart_le := Nat.le_trans s.bodyStart_le (Nat.le_add_right _ _)
    }
  else
    none

def writeByte (s : FixSerializer) (b : UInt8) : Option FixSerializer := s.writeBytes [b]

def digitPairs : Bytes :=
  ascii "0001020304050607080910111213141516171819"
    ++ ascii "2021222324252627282930313233343536373839"
    ++ ascii "4041424344454647484950515253545556575859"
    ++ ascii "6061626364656667686970717273747576777879"
    ++ ascii "8081828384858687888990919293949596979899"

def putPair (buf : Bytes) (i r : Nat) : Option (Bytes × Nat) :=
  if i < 2 then
    none
  else
    let buf := buf.set (i - 2) (digitPairs.getD (r * 2) 0)
    some (buf.set (i - 1) (digitPairs.getD (r * 2 + 1) 0), i - 2)

def putDigits (val : Nat) (buf : Bytes) (i : Nat) : Option (Bytes × Nat) :=
  if 100 ≤ val then
    match putPair buf i (val % 100) with
    | none => none
    | some (buf, i) => putDigits (val / 100) buf i
  else if 10 ≤ val then
    putPair buf i val
  else if i < 1 then
    none
  else
    some (buf.set (i - 1) (48 + UInt8.ofNat val), i - 1)
termination_by val

-- `write_u32` and `write_u64` are the same loop over a scratch buffer of `width` bytes.
def writeUnsigned (s : FixSerializer) (width val : Nat) : Option FixSerializer :=
  if val = 0 then
    s.writeByte 48
  else
    match putDigits val (List.replicate width 0) width with
    | none => none
    | some (buf, i) => s.writeBytes (buf.drop i)

def writeU32 (s : FixSerializer) (val : UInt32) : Option FixSerializer :=
  s.writeUnsigned 10 val.toNat

def writeU64 (s : FixSerializer) (val : UInt64) : Option FixSerializer :=
  s.writeUnsigned 20 val.toNat

def writeI64 (s : FixSerializer) (val : Int64) : Option FixSerializer :=
  if val < 0 then do
    let s ← s.writeByte 45
    s.writeU64 (-val).toUInt64
  else
    s.writeU64 val.toUInt64

def writeTag (s : FixSerializer) (tag : UInt32) : Option FixSerializer := do
  let s ← s.writeU32 tag
  s.writeByte Tags.equals

def writeTagValue (s : FixSerializer) (tag : UInt32) (value : Bytes) : Option FixSerializer := do
  let s ← s.writeTag tag
  let s ← s.writeBytes value
  s.writeByte Tags.soh

def markBody (s : FixSerializer) : FixSerializer :=
  { s with bodyStart := s.pos, bodyStart_le := Nat.le_refl _ }

def bodyLengthPlaceholder : Bytes := ascii "9=000000" ++ [Tags.soh]

def begin (s : FixSerializer) (beginString msgType : Bytes) : Option FixSerializer := do
  let s ← s.writeTagValue Tags.beginString beginString
  let s ← s.writeBytes bodyLengthPlaceholder
  s.markBody.writeTagValue Tags.msgType msgType

def addStr (s : FixSerializer) (tag : UInt32) (value : Bytes) : Option FixSerializer :=
  s.writeTagValue tag value

def addInt (s : FixSerializer) (tag : UInt32) (value : Int64) : Option FixSerializer := do
  let s ← s.writeTag tag
  let s ← s.writeI64 value
  s.writeByte Tags.soh

def addU64 (s : FixSerializer) (tag : UInt32) (value : UInt64) : Option FixSerializer := do
  let s ← s.writeTag tag
  let s ← s.writeU64 value
  s.writeByte Tags.soh

def writeU64ToBuf (val : Nat) (buf : Bytes) : Bytes × Nat :=
  if val = 0 then
    (buf.set 0 48, 1)
  else
    let (tmp, i) := go val (List.replicate 6 0) 6
    let len := 6 - i
    (overwrite buf 0 (tmp.drop i), len)
where
  go (val : Nat) (tmp : Bytes) : Nat → Bytes × Nat
    | 0 => (tmp, 0)
    | i + 1 =>
      if 0 < val then
        go (val / 10) (tmp.set i (48 + UInt8.ofNat (val % 10))) i
      else
        (tmp, i + 1)

def finalize (s : FixSerializer) : Option (FixSerializer × Nat) :=
  let bodyEnd := s.pos
  let bodyLength := bodyEnd - s.bodyStart
  if s.bodyStart < 7 then
    none
  else
    let blStart := s.bodyStart - 7
    let (blBuf, blLen) := writeU64ToBuf bodyLength (List.replicate 6 0)
    let blOffset := blStart + (6 - blLen)
    let buffer := overwrite s.buffer blStart (List.replicate 6 48)
    let buffer := overwrite buffer blOffset (blBuf.take blLen)
    let cs := Checksum.compute (buffer.take bodyEnd)
    let trailer := [49, 48, Tags.equals] ++ Checksum.format cs ++ [Tags.soh]
    if h:s.pos + 7 ≤ buffer.length then
      let s' : FixSerializer := {
        buffer := overwrite buffer s.pos trailer
        pos := s.pos + 7
        bodyStart := s.bodyStart
        pos_le := by
          rw [length_overwrite h]
          exact h
        bodyStart_le := Nat.le_trans s.bodyStart_le (Nat.le_add_right _ _)
      }
      some (s', s'.pos)
    else
      none

end FixSerializer

inductive FieldArg where
  | str (tag : UInt32) (value : Bytes)
  | int (tag : UInt32) (value : Int64)
  | u64 (tag : UInt32) (value : UInt64)

-- The calls that build one message: `begin`, the fields in order, `finalize`.
structure OutMessage where
  beginString : Bytes
  msgType : Bytes
  args : List FieldArg

namespace OutMessage

def heartbeat (beginString sender target : Bytes) (seqNum : UInt64) (sendingTime : Bytes)
    : OutMessage where
  beginString := beginString
  msgType := ascii "0"
  args := [.str Tags.senderCompId sender, .str Tags.targetCompId target, .u64 Tags.msgSeqNum seqNum,
    .str Tags.sendingTime sendingTime]

def logon (beginString sender target : Bytes) (seqNum : UInt64) (sendingTime : Bytes)
    (heartbeatInterval : Int64)
    : OutMessage where
  beginString := beginString
  msgType := ascii "A"
  args := [.str Tags.senderCompId sender, .str Tags.targetCompId target, .u64 Tags.msgSeqNum seqNum,
    .str Tags.sendingTime sendingTime, .int Tags.encryptMethod 0,
    .int Tags.heartbtInt heartbeatInterval]

def logout (beginString sender target : Bytes) (seqNum : UInt64) (sendingTime : Bytes)
    : OutMessage where
  beginString := beginString
  msgType := ascii "5"
  args := [.str Tags.senderCompId sender, .str Tags.targetCompId target, .u64 Tags.msgSeqNum seqNum,
    .str Tags.sendingTime sendingTime]

end OutMessage

namespace FixSerializer

def addField (s : FixSerializer) : FieldArg → Option FixSerializer
  | .str tag value => s.addStr tag value
  | .int tag value => s.addInt tag value
  | .u64 tag value => s.addU64 tag value

def serialize (buffer : Bytes) (m : OutMessage) : Option (FixSerializer × Nat) := do
  let s ← (new buffer).begin m.beginString m.msgType
  let s ← m.args.foldlM addField s
  s.finalize

def buildHeartbeat (buf beginString sender target : Bytes) (seqNum : UInt64) (sendingTime : Bytes)
    : Option (FixSerializer × Nat) :=
  serialize buf (.heartbeat beginString sender target seqNum sendingTime)

def buildLogon (buf beginString sender target : Bytes) (seqNum : UInt64) (sendingTime : Bytes)
    (heartbeatInterval : Int64)
    : Option (FixSerializer × Nat) :=
  serialize buf (.logon beginString sender target seqNum sendingTime heartbeatInterval)

def buildLogout (buf beginString sender target : Bytes) (seqNum : UInt64) (sendingTime : Bytes)
    : Option (FixSerializer × Nat) :=
  serialize buf (.logout beginString sender target seqNum sendingTime)

end FixSerializer

end Velocitas
