import VelocitasFix.Data.Slice

/-!
This module contains the tag numbers and the two delimiters of the wire format.
-/

namespace Velocitas

namespace Tags

abbrev beginString : UInt32 := 8
abbrev bodyLength : UInt32 := 9
abbrev msgType : UInt32 := 35
abbrev senderCompId : UInt32 := 49
abbrev targetCompId : UInt32 := 56
abbrev msgSeqNum : UInt32 := 34
abbrev sendingTime : UInt32 := 52
abbrev checksum : UInt32 := 10
abbrev encryptMethod : UInt32 := 98
abbrev heartbtInt : UInt32 := 108
abbrev testReqId : UInt32 := 112

abbrev clOrdId : UInt32 := 11
abbrev orderId : UInt32 := 37
abbrev execId : UInt32 := 17
abbrev execType : UInt32 := 150
abbrev ordStatus : UInt32 := 39
abbrev symbol : UInt32 := 55
abbrev side : UInt32 := 54
abbrev orderQty : UInt32 := 38
abbrev ordType : UInt32 := 40
abbrev price : UInt32 := 44
abbrev transactTime : UInt32 := 60
abbrev lastQty : UInt32 := 32
abbrev lastPx : UInt32 := 31
abbrev leavesQty : UInt32 := 151
abbrev cumQty : UInt32 := 14
abbrev avgPx : UInt32 := 6
abbrev handlInst : UInt32 := 21

abbrev soh : UInt8 := 0x01
abbrev equals : UInt8 := 61

end Tags

def ascii (s : String) : Bytes :=
  s.toList.map fun c => c.toNat.toUInt8

end Velocitas
