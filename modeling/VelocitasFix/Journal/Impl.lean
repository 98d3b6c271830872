import VelocitasFix.Data.LittleEndian

/-!
This module contains the implementation of the message journal: a circular buffer in a memory map,
its entries protected by a CRC32.
-/

namespace Velocitas

structure JournalEntryHeader where
  sessionHash : UInt64
  seqNum : UInt64
  bodyLength : UInt32
  crc32 : UInt32
  deriving DecidableEq, Repr

def HEADER_SIZE : Nat := 24

namespace JournalEntryHeader

-- The `repr(C)` layout on a little-endian machine: the fields in order, no padding between them.
def encode (h : JournalEntryHeader) : Bytes :=
  LittleEndian.encode 8 h.sessionHash.toNat ++ LittleEndian.encode 8 h.seqNum.toNat
    ++ LittleEndian.encode 4 h.bodyLength.toNat ++ LittleEndian.encode 4 h.crc32.toNat

def decode (bytes : Bytes) : JournalEntryHeader where
  sessionHash := UInt64.ofNat (LittleEndian.decode (slice bytes 0 8))
  seqNum := UInt64.ofNat (LittleEndian.decode (slice bytes 8 8))
  bodyLength := UInt32.ofNat (LittleEndian.decode (slice bytes 16 4))
  crc32 := UInt32.ofNat (LittleEndian.decode (slice bytes 20 4))

end JournalEntryHeader

inductive SyncPolicy where
  | none
  | batch (milliseconds : UInt32)
  | everyMessage
  deriving DecidableEq, Repr

def crc32Step (crc : UInt32) : UInt32 :=
  if crc &&& 1 ≠ 0 then
    (crc >>> 1) ^^^ 0xEDB88320
  else
    crc >>> 1

def crc32Byte (crc : UInt32) (byte : UInt8) : UInt32 :=
  (List.range 8).foldl (fun crc _ => crc32Step crc) (crc ^^^ byte.toUInt32)

def crc32Simple (data : Bytes) : UInt32 :=
  data.foldl crc32Byte 0xFFFFFFFF ^^^ 0xFFFFFFFF

example : crc32Simple [49, 50, 51, 52, 53, 54, 55, 56, 57] = 0xCBF43926 := by decide +kernel

structure MmapMut (length : Nat) where
  bytes : Bytes
  length_eq : bytes.length = length

namespace MmapMut

variable {length : Nat}

theorem length_overwrite_bytes (m : MmapMut length) {offset : Nat} {data : Bytes}
    (h : offset + data.length ≤ length)
    : (overwrite m.bytes offset data).length = length := by
  rw [length_overwrite]
  . exact m.length_eq
  . rw [m.length_eq]
    exact h

-- `mmap[offset..offset + data.len()].copy_from_slice(data)`, `none` if the range is out of bounds.
def write (m : MmapMut length) (offset : Nat) (data : Bytes) : Option (MmapMut length) :=
  if h : offset + data.length ≤ length then
    some ⟨overwrite m.bytes offset data, m.length_overwrite_bytes h⟩
  else
    none

theorem write_of_le (m : MmapMut length) {offset : Nat} {data : Bytes}
    (h : offset + data.length ≤ length)
    : m.write offset data = some ⟨overwrite m.bytes offset data, m.length_overwrite_bytes h⟩ :=
  dif_pos h

theorem write_of_lt (m : MmapMut length) {offset : Nat} {data : Bytes}
    (h : length < offset + data.length)
    : m.write offset data = none :=
  dif_neg (Nat.not_le.mpr h)

end MmapMut

structure Journal where
  capacity : Nat
  mmap : MmapMut capacity
  writeOffset : Nat
  syncPolicy : SyncPolicy
  entryCount : UInt64

namespace Journal

-- `set_len`: a longer file is cut off, a shorter one is filled up with zeros.
def setLen (file : Bytes) (size : Nat) : Bytes :=
  file.take size ++ List.replicate (size - file.length) 0

theorem length_setLen (file : Bytes) (size : Nat) : (setLen file size).length = size := by
  simp only [setLen, List.length_append, List.length_take, List.length_replicate]
  omega

-- `Journal::open` once the file is open and mapped; `file` is what the file held before.
def openFile (file : Bytes) (sizeBytes : Nat) (syncPolicy : SyncPolicy) : Journal where
  capacity := sizeBytes
  mmap := ⟨setLen file sizeBytes, length_setLen file sizeBytes⟩
  writeOffset := 0
  syncPolicy := syncPolicy
  entryCount := 0

inductive AppendResult where
  | ok (offset : Nat)
  | flushFailed
  | panicked
  deriving DecidableEq, Repr

-- `flushed` is the result of the flush that `SyncPolicy::EveryMessage` asks for.
def append (j : Journal) (flushed : Bool) (sessionHash seqNum : UInt64) (message : Bytes) :
    Journal × AppendResult :=
  let totalSize := HEADER_SIZE + message.length
  let offset := if j.writeOffset + totalSize > j.capacity then 0 else j.writeOffset
  let header : JournalEntryHeader :=
    { sessionHash, seqNum,
      bodyLength := UInt32.ofNat message.length,
      crc32 := crc32Simple message }
  match j.mmap.write offset header.encode with
  | none => ({ j with writeOffset := offset }, .panicked)
  | some mmap =>
    match mmap.write (offset + HEADER_SIZE) message with
    | none => ({ j with mmap := mmap, writeOffset := offset }, .panicked)
    | some mmap =>
      let j' : Journal :=
        { j with
          mmap := mmap,
          writeOffset := offset + totalSize,
          entryCount := j.entryCount + 1 }
      if j.syncPolicy = .everyMessage ∧ ¬ flushed then
        (j', .flushFailed)
      else
        (j', .ok offset)

def readEntry (j : Journal) (offset : Nat) : Option (JournalEntryHeader × Bytes) :=
  if offset + HEADER_SIZE > j.capacity then
    none
  else
    let header := JournalEntryHeader.decode (slice j.mmap.bytes offset HEADER_SIZE)
    let bodyStart := offset + HEADER_SIZE
    let bodyEnd := bodyStart + header.bodyLength.toNat
    if bodyEnd > j.capacity then
      none
    else
      let body := slice j.mmap.bytes bodyStart (bodyEnd - bodyStart)
      if crc32Simple body ≠ header.crc32 then
        none
      else
        some (header, body)

end Journal

def fnv1aByte (hash : UInt64) (b : UInt8) : UInt64 := (hash ^^^ b.toUInt64) * 0x100000001b3

def sessionHash (sender target : Bytes) : UInt64 :=
  let hash := sender.foldl fnv1aByte 0xcbf29ce484222325
  let hash := fnv1aByte hash 124
  target.foldl fnv1aByte hash

end Velocitas
