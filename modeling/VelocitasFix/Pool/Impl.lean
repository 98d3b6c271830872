import VelocitasFix.Data.Slice
import Mathlib.Logic.Function.Basic

/-!
This module contains the buffer pool, the one thread that owns it, and the threads that share it. A
thread that runs `allocate` or `deallocate` among others takes one atomic step on `free_head` or
`free_list` at a time.
-/

namespace Velocitas

abbrev PoolHandle := UInt32

def END_OF_LIST : PoolHandle := 0xFFFFFFFF

structure BufferPool where
  freeList : List PoolHandle
  freeHead : PoolHandle
  deriving DecidableEq, Repr

namespace BufferPool

def new (capacity : UInt32) : BufferPool where
  freeList := (List.range capacity.toNat).map fun i =>
    if i + 1 < capacity.toNat then UInt32.ofNat (i + 1) else END_OF_LIST
  freeHead := 0

def link (pool : BufferPool) (slot : PoolHandle) : Option PoolHandle := pool.freeList[slot.toNat]?

-- While no other thread runs, `compare_exchange_weak` finds what was loaded but may still fail:
-- `spurious` is how often. An index out of bounds panics.
def allocate (pool : BufferPool) (spurious : Nat) : Option (Option PoolHandle × BufferPool) :=
  let head := pool.freeHead
  if head = END_OF_LIST then
    some (none, pool)
  else
    match pool.link head with
    | none => none
    | some next =>
      match spurious with
      | 0 => some (some head, { pool with freeHead := next })
      | spurious + 1 => pool.allocate spurious

def deallocate (pool : BufferPool) (handle : PoolHandle) (spurious : Nat) : Option BufferPool :=
  let head := pool.freeHead
  if handle.toNat < pool.freeList.length then
    let pool := { pool with freeList := pool.freeList.set handle.toNat head }
    match spurious with
    | 0 => some { pool with freeHead := handle }
    | spurious + 1 => pool.deallocate handle spurious
  else
    none

end BufferPool

def isizeMax : Nat := 2 ^ 63 - 1

-- The pool with its storage. The release build computes in `usize` without overflow checks.
structure SlabPool extends BufferPool where
  storage : Bytes
  slotSize : UInt64
  capacity : UInt32

namespace SlabPool

-- `vec!` panics beyond `isize::MAX` bytes.
def new (slotSize : UInt64) (capacity : UInt32) : Option SlabPool :=
  let totalBytes := slotSize * capacity.toUInt64
  if totalBytes.toNat ≤ isizeMax then
    some {
      toBufferPool := BufferPool.new capacity
      storage := List.replicate totalBytes.toNat 0
      slotSize
      capacity
    }
  else
    none

-- The part of the storage that `get` and `get_mut` index, as its offset and length.
def range (pool : SlabPool) (handle : PoolHandle) : Option (Nat × Nat) :=
  let offset := handle.toUInt64 * pool.slotSize
  let stop := offset + pool.slotSize
  if offset ≤ stop ∧ stop.toNat ≤ pool.storage.length then
    some (offset.toNat, stop.toNat - offset.toNat)
  else
    none

def get (pool : SlabPool) (handle : PoolHandle) : Option Bytes :=
  match pool.range handle with
  | some (offset, length) => some (slice pool.storage offset length)
  | none => none

-- `get_mut` and what the caller writes over the slice.
def getMut (pool : SlabPool) (handle : PoolHandle) (write : Bytes → Bytes) : Option SlabPool :=
  match pool.range handle with
  | some (offset, length) =>
    let data := write (slice pool.storage offset length)
    some { pool with storage := overwrite pool.storage offset (data.take length) }
  | none => none

end SlabPool

-- One thread and the handles that it holds: only these does it return.
structure Owner where
  pool : SlabPool
  held : List PoolHandle

namespace Owner

inductive Call where
  | allocate (spurious : Nat)
  | deallocate (handle : PoolHandle) (spurious : Nat)
  deriving DecidableEq, Repr

def new (pool : SlabPool) : Owner where
  pool := pool
  held := []

def call (o : Owner) : Call → Option Owner
  | .allocate spurious =>
    match o.pool.allocate spurious with
    | some (some handle, pool) =>
      some { pool := { o.pool with toBufferPool := pool }, held := handle :: o.held }
    | some (none, pool) => some { o with pool := { o.pool with toBufferPool := pool } }
    | none => none
  | .deallocate handle spurious =>
    if handle ∈ o.held then
      match o.pool.deallocate handle spurious with
      | some pool =>
        some { pool := { o.pool with toBufferPool := pool }, held := o.held.erase handle }
      | none => none
    else
      none

def run (o : Owner) : List Call → Option Owner
  | [] => some o
  | call :: calls =>
    match o.call call with
    | some o' => o'.run calls
    | none => none

end Owner

-- Where a thread is in the loop of `allocate` or of `deallocate`, with what it has loaded.
inductive Pc where
  | idle
  | allocate
  | allocateHead (head : PoolHandle)
  | allocateNext (head next : PoolHandle)
  | deallocate (slot : PoolHandle)
  | deallocateHead (slot head : PoolHandle)
  | deallocateNext (slot head : PoolHandle)
  deriving DecidableEq, Repr

inductive Action where
  | allocate
  | deallocate (slot : PoolHandle)
  | advance
  -- `compare_exchange_weak` may fail although `free_head` is what it expects.
  | fail
  deriving Repr

structure Machine (Tid : Type) where
  pool : BufferPool
  pc : Tid → Pc
  held : Tid → List PoolHandle

namespace Machine

variable {Tid : Type} [DecidableEq Tid]

def new (Tid : Type) (capacity : UInt32) : Machine Tid where
  pool := BufferPool.new capacity
  pc := fun _ => .idle
  held := fun _ => []

def goto (m : Machine Tid) (t : Tid) (pc : Pc) : Machine Tid :=
  { m with pc := Function.update m.pc t pc }

def hold (m : Machine Tid) (t : Tid) (slots : List PoolHandle) : Machine Tid :=
  { m with held := Function.update m.held t slots }

def storeHead (m : Machine Tid) (head : PoolHandle) : Machine Tid :=
  { m with pool := { m.pool with freeHead := head } }

def storeLink (m : Machine Tid) (slot next : PoolHandle) : Machine Tid :=
  { m with pool := { m.pool with freeList := m.pool.freeList.set slot.toNat next } }

-- An index out of bounds panics, which is no step.
def step (m : Machine Tid) (t : Tid) (action : Action) : Option (Machine Tid) :=
  match m.pc t, action with
  | .idle, .allocate => some (m.goto t .allocate)
  | .idle, .deallocate slot =>
    if slot ∈ m.held t then
      some ((m.hold t ((m.held t).erase slot)).goto t (.deallocate slot))
    else
      none
  | .allocate, .advance =>
    if m.pool.freeHead = END_OF_LIST then
      some (m.goto t .idle)
    else
      some (m.goto t (.allocateHead m.pool.freeHead))
  | .allocateHead head, .advance =>
    match m.pool.link head with
    | some next => some (m.goto t (.allocateNext head next))
    | none => none
  | .allocateNext head next, .advance =>
    if m.pool.freeHead = head then
      some (((m.storeHead next).hold t (head :: m.held t)).goto t .idle)
    else
      some (m.goto t .allocate)
  | .allocateNext _ _, .fail => some (m.goto t .allocate)
  | .deallocate slot, .advance => some (m.goto t (.deallocateHead slot m.pool.freeHead))
  | .deallocateHead slot head, .advance =>
    if slot.toNat < m.pool.freeList.length then
      some ((m.storeLink slot head).goto t (.deallocateNext slot head))
    else
      none
  | .deallocateNext slot head, .advance =>
    if m.pool.freeHead = head then
      some ((m.storeHead slot).goto t .idle)
    else
      some (m.goto t (.deallocate slot))
  | .deallocateNext slot _, .fail => some (m.goto t (.deallocate slot))
  | _, _ => none

def run (m : Machine Tid) : List (Tid × Action) → Option (Machine Tid)
  | [] => some m
  | (t, action) :: schedule =>
    match m.step t action with
    | some m' => m'.run schedule
    | none => none

end Machine

end Velocitas
