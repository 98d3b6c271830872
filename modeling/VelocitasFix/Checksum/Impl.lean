import VelocitasFix.Tags

/-!
This module contains the checksum of a message: its computation with four accumulators, its three
digit form and its validation against the trailer of a received message.
-/

namespace Velocitas

namespace Checksum

def compute (data : Bytes) : UInt8 :=
  go data 0 0 0 0
where
  go : Bytes → UInt32 → UInt32 → UInt32 → UInt32 → UInt8
    | b0 :: b1 :: b2 :: b3 :: rest, sum0, sum1, sum2, sum3 =>
      go rest (sum0 + b0.toUInt32) (sum1 + b1.toUInt32) (sum2 + b2.toUInt32) (sum3 + b3.toUInt32)
    | remainder, sum0, sum1, sum2, sum3 =>
      let sum0 := remainder.foldl (fun sum b => sum + b.toUInt32) sum0
      ((sum0 + sum1 + sum2 + sum3) % 256).toUInt8

def format (checksum : UInt8) : Bytes :=
  [48 + checksum / 100, 48 + checksum / 10 % 10, 48 + checksum % 10]

def trailerAt (msg : Bytes) (i : Nat) : Bool :=
  msg[i]? = some Tags.soh && msg[i + 1]? = some 49 && msg[i + 2]? = some 48
    && msg[i + 3]? = some Tags.equals

-- The backward search `for i in (0..n).rev()`: one past the last match below `n`, 0 without one.
def trailerStart (msg : Bytes) : Nat → Nat
  | 0 => 0
  | i + 1 => if trailerAt msg i then i + 1 else trailerStart msg i

def startsWithTrailer (msg : Bytes) : Bool :=
  msg[0]? = some 49 && msg[1]? = some 48 && msg[2]? = some Tags.equals

def stated (msg : Bytes) (offset : Nat) : UInt8 :=
  (msg.getD offset 0 - 48) * 100 + (msg.getD (offset + 1) 0 - 48) * 10
    + (msg.getD (offset + 2) 0 - 48)

def validate (msg : Bytes) : Bool :=
  let len := msg.length
  if len < 7 then
    false
  else
    let checksumStart := trailerStart msg (len - 4)
    if checksumStart = 0 && !startsWithTrailer msg then
      false
    else
      let computed := compute (msg.take checksumStart)
      let csOffset := checksumStart + 3
      if csOffset + 3 > len then
        false
      else
        computed = stated msg csOffset

end Checksum

end Velocitas
