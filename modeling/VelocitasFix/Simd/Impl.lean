import VelocitasFix.Data.Lanes
import VelocitasFix.Tags

/-!
This module contains the search for a byte and the count of a byte: byte by byte, and in blocks of
sixteen bytes with the instructions of the two instruction sets.
-/

namespace Velocitas

namespace Simd

def findByteScalar (buf : Bytes) (needle : UInt8) : Option Nat :=
  buf.findIdx? fun b => decide (b = needle)

def countByteScalar (buf : Bytes) (needle : UInt8) : Nat :=
  (buf.filter fun b => decide (b = needle)).length

-- The bytes behind the last whole block.
def findTail (buf : Bytes) (needle : UInt8) (i : Nat) : Option Nat :=
  if h : i < buf.length then
    if buf[i] = needle then
      some i
    else
      findTail buf needle (i + 1)
  else
    none
termination_by buf.length - i

def countTail (buf : Bytes) (needle : UInt8) (i total : Nat) : Nat :=
  if h : i < buf.length then
    if buf[i] = needle then
      countTail buf needle (i + 1) (total + 1)
    else
      countTail buf needle (i + 1) total
  else
    total
termination_by buf.length - i

-- Both instruction sets go through the blocks in the same way; they differ in what they do to one.
def findBlocks (first : U8x16 → Option Nat) (buf : Bytes) (needle : UInt8) (offset : Nat)
    : Option Nat :=
  if h : offset + 16 ≤ buf.length then
    match first (U8x16.load buf offset h) with
    | some i => some (offset + i)
    | none => findBlocks first buf needle (offset + 16)
  else
    findTail buf needle offset
termination_by buf.length - offset

def countBlocks (ones : U8x16 → Nat) (buf : Bytes) (needle : UInt8) (offset total : Nat) : Nat :=
  if h : offset + 16 ≤ buf.length then
    countBlocks ones buf needle (offset + 16) (total + ones (U8x16.load buf offset h))
  else
    countTail buf needle offset total
termination_by buf.length - offset

def firstSse2 (needle : UInt8) (chunk : U8x16) : Option Nat :=
  let cmp := chunk.cmpeq (.splat needle)
  let mask := cmp.movemask
  if mask ≠ 0 then some mask.ctz.toNat else none

def findByteSse2 (buf : Bytes) (needle : UInt8) : Option Nat :=
  findBlocks (firstSse2 needle) buf needle 0

def onesSse2 (needle : UInt8) (chunk : U8x16) : Nat :=
  let cmp := chunk.cmpeq (.splat needle)
  let mask := cmp.movemask
  mask.cpop.toNat

def countByteSse2 (buf : Bytes) (needle : UInt8) : Nat :=
  countBlocks (onesSse2 needle) buf needle 0 0

-- Each matching byte becomes 0xFF, so that an eighth of the trailing zeros is its index.
def firstNeon (needle : UInt8) (chunk : U8x16) : Option Nat :=
  let cmp := chunk.cmpeq (.splat needle)
  let lo := cmp.u64Lane 0
  let hi := cmp.u64Lane 1
  if lo ≠ 0 then
    some (lo.ctz.toNat / 8)
  else if hi ≠ 0 then
    some (8 + hi.ctz.toNat / 8)
  else
    none

def findByteNeon (buf : Bytes) (needle : UInt8) : Option Nat :=
  findBlocks (firstNeon needle) buf needle 0

def onesNeon (needle : UInt8) (chunk : U8x16) : Nat :=
  let cmp := chunk.cmpeq (.splat needle)
  let ones := cmp.shiftRight 7
  ones.addAcross.toNat

def countByteNeon (buf : Bytes) (needle : UInt8) : Nat :=
  countBlocks (onesNeon needle) buf needle 0 0

end Simd

end Velocitas
