import VelocitasFix.Pool.Single

/-!
This module contains the pool with three tiers and the thread that writes to its buffers, and the
proof that a buffer keeps what was written to it, whatever happens to the other buffers of the pool.
-/

namespace Velocitas

namespace Owner

variable {slotSize : UInt64} {capacity : UInt32} {o o' : Owner}

def withStorage (o : Owner) (storage : Bytes) : Owner :=
  { o with pool := { o.pool with storage } }

-- No call looks at the storage.
theorem call_withStorage (o : Owner) (storage : Bytes) (c : Call)
    : (o.withStorage storage).call c = (o.call c).map (·.withStorage storage) := by
  cases c with
  | allocate spurious =>
    simp only [call, withStorage]
    cases o.pool.allocate spurious with
    | none => rfl
    | some res =>
      rcases res with ⟨handle, pool⟩
      cases handle with
      | none => rfl
      | some handle => rfl
  | deallocate handle spurious =>
    simp only [call, withStorage]
    by_cases hheld : handle ∈ o.held
    . simp only [hheld, if_true]
      cases o.pool.deallocate handle spurious with
      | none => rfl
      | some pool => rfl
    . simp only [hheld, if_false]
      rfl

-- Where a slice lies depends on the length of the storage only.
theorem range_withStorage {o : Owner} {storage : Bytes}
    (h : storage.length = o.pool.storage.length) (handle : PoolHandle)
    : (o.withStorage storage).pool.range handle = o.pool.range handle := by
  simp only [SlabPool.range, withStorage, h]

-- What the calls make of a new pool, with other bytes in the storage.
def Lent (slotSize : UInt64) (capacity : UInt32) (o : Owner) : Prop :=
  ∃ pool calls o', SlabPool.new slotSize capacity = some pool
    ∧ (Owner.new pool).run calls = some o' ∧ o = o'.withStorage o.pool.storage
    ∧ o.pool.storage.length = o'.pool.storage.length

namespace Lent

theorem new {pool : SlabPool} (h : SlabPool.new slotSize capacity = some pool)
    : Lent slotSize capacity (.new pool) :=
  ⟨pool, [], .new pool, h, rfl, rfl, rfl⟩

theorem call (h : Lent slotSize capacity o) {c : Call} (hcall : o.call c = some o')
    : Lent slotSize capacity o' := by
  obtain ⟨pool, calls, o₀, hnew, hrun, heq, hlength⟩ := h
  rw [heq, call_withStorage, Option.map_eq_some_iff] at hcall
  obtain ⟨o₁, hcall, rfl⟩ := hcall
  refine ⟨pool, calls ++ [c], o₁, hnew, (run_append hrun c).trans hcall, rfl, ?_⟩
  rw [(fixed_of_call hcall).1]
  exact hlength

theorem withStorage (h : Lent slotSize capacity o) {storage : Bytes}
    (hlength : storage.length = o.pool.storage.length)
    : Lent slotSize capacity (o.withStorage storage) := by
  obtain ⟨pool, calls, o₀, hnew, hrun, heq, hlength'⟩ := h
  refine ⟨pool, calls, o₀, hnew, hrun, ?_, hlength.trans hlength'⟩
  rw [heq]
  rfl

theorem fields (h : Lent slotSize capacity o)
    : o.pool.capacity = capacity ∧ o.pool.slotSize = slotSize := by
  obtain ⟨pool, calls, o₀, hnew, hrun, heq, -⟩ := h
  obtain ⟨hcap, hsize, -⟩ := fixed_of_new hnew hrun
  rw [heq]
  exact ⟨hcap, hsize⟩

variable (hcapacity : 0 < capacity)

include hcapacity

theorem represents (h : Lent slotSize capacity o)
    : ∃ free, o.Represents free ∧ o.pool.freeList.length = o.pool.capacity.toNat := by
  obtain ⟨pool, calls, o₀, hnew, hrun, heq, -⟩ := h
  obtain ⟨free, hrep⟩ := represents_of_run hcapacity hnew hrun
  obtain ⟨hlength, -⟩ := partition_of_run hcapacity hnew hrun
  rw [heq]
  refine ⟨free, ⟨hrep.chain, hrep.unique, hrep.nodup_free, hrep.nodup_held, hrep.free_lt,
    hrep.held_lt, hrep.apart, hrep.length⟩, ?_⟩
  change o₀.pool.freeList.length = o₀.pool.capacity.toNat
  rw [hlength, (fixed_of_new hnew hrun).1]

variable (hlt : slotSize.toNat * capacity.toNat < 2 ^ 64)

include hlt

theorem range (h : Lent slotSize capacity o) {handle : PoolHandle} (hheld : handle ∈ o.held)
    : o.pool.range handle = some (handle.toNat * slotSize.toNat, slotSize.toNat) := by
  obtain ⟨pool, calls, o₀, hnew, hrun, heq, hlength⟩ := h
  have hheld₀ : handle ∈ o₀.held := by
    rw [heq] at hheld
    exact hheld
  rw [heq, range_withStorage hlength]
  exact range_of_run hcapacity hnew hlt hrun hheld₀

theorem slicesApart (h : Lent slotSize capacity o) : o.SlicesApart := by
  obtain ⟨pool, calls, o₀, hnew, hrun, heq, hlength⟩ := h
  have hapart := slicesApart_of_run hcapacity hnew (.inl hlt) hrun
  intro a ha b hb hab i
  rw [heq] at ha hb
  rw [heq]
  unfold SlabPool.Covers
  rw [range_withStorage hlength, range_withStorage hlength]
  exact hapart a ha b hb hab i

-- A held handle has a slice of the size of a slot.
theorem exists_get (h : Lent slotSize capacity o) {handle : PoolHandle} (hheld : handle ∈ o.held)
    : ∃ bytes, o.pool.get handle = some bytes ∧ bytes.length = slotSize.toNat := by
  have hrange := h.range hcapacity hlt hheld
  refine ⟨_, by rw [SlabPool.get, hrange], ?_⟩
  exact length_slice (SlabPool.le_of_range hrange)

end Lent

end Owner

-- What the holder of a buffer does to it: `copy_from_slice` on the first bytes of `get_mut`.
def copyInto (data slice : Bytes) : Bytes := data ++ slice.drop data.length

-- What is written to a slice can be read back, and the slice of the handle stays where it is.
theorem SlabPool.exists_getMut {pool : SlabPool} {handle : PoolHandle} {offset length : Nat}
    (hrange : pool.range handle = some (offset, length)) {data : Bytes}
    (hdata : data.length ≤ length)
    : ∃ pool', pool.getMut handle (copyInto data) = some pool'
        ∧ pool' = { pool with storage := pool'.storage }
        ∧ pool'.storage.length = pool.storage.length
        ∧ ∃ bytes, pool'.get handle = some bytes ∧ data <+: bytes := by
  have hin := le_of_range hrange
  have hslice := length_slice hin
  let written := (copyInto data (slice pool.storage offset length)).take length
  have hlength : written.length = length := by
    change ((data ++ (slice pool.storage offset length).drop data.length).take length).length = _
    rw [List.length_take, List.length_append, List.length_drop, hslice]
    omega
  have hstorage : (overwrite pool.storage offset written).length = pool.storage.length :=
    length_overwrite (by omega)
  have hrange'
      : SlabPool.range { pool with storage := overwrite pool.storage offset written } handle
        = some (offset, length) := by
    rw [← hrange]
    simp only [range, hstorage]
  refine ⟨_, by rw [getMut, hrange], rfl, hstorage, written, ?_, ?_⟩
  . change SlabPool.get { pool with storage := overwrite pool.storage offset written } handle = _
    rw [get, hrange']
    have hself := @slice_overwrite_self pool.storage written offset (by omega)
    rw [hlength] at hself
    exact congrArg some hself
  . exact List.prefix_take_iff.mpr ⟨List.prefix_append _ _, hdata⟩

inductive Tier where
  | small
  | medium
  | large
  deriving DecidableEq, Repr

namespace Tier

def slotSize : Tier → UInt64
  | .small => 256
  | .medium => 4096
  | .large => 65536

def capacity : Tier → UInt32
  | .small => 1048576
  | .medium => 262144
  | .large => 16384

theorem capacity_pos (t : Tier) : 0 < t.capacity := by
  cases t
  all_goals decide

theorem bytes_lt (t : Tier) : t.slotSize.toNat * t.capacity.toNat < 2 ^ 64 := by
  cases t
  all_goals decide

end Tier

structure TieredPool where
  small : SlabPool
  medium : SlabPool
  large : SlabPool

namespace TieredPool

def new : Option TieredPool := do
  let small ← SlabPool.new 256 1048576
  let medium ← SlabPool.new 4096 262144
  let large ← SlabPool.new 65536 16384
  return { small, medium, large }

def pool (p : TieredPool) : Tier → SlabPool
  | .small => p.small
  | .medium => p.medium
  | .large => p.large

def set (p : TieredPool) (t : Tier) (pool : SlabPool) : TieredPool :=
  match t with
  | .small => { p with small := pool }
  | .medium => { p with medium := pool }
  | .large => { p with large := pool }

-- A handle goes with the tier that it was taken from.
def allocateFrom (p : TieredPool) (t : Tier) (spurious : Nat)
    : Option (Option (PoolHandle × Tier) × TieredPool) :=
  match (p.pool t).allocate spurious with
  | none => none
  | some (handle, pool) =>
    some (handle.map (·, t), p.set t { p.pool t with toBufferPool := pool })

def allocate (p : TieredPool) (size spurious : Nat)
    : Option (Option (PoolHandle × Tier) × TieredPool) :=
  if size ≤ 256 then
    p.allocateFrom .small spurious
  else if size ≤ 4096 then
    p.allocateFrom .medium spurious
  else if size ≤ 65536 then
    p.allocateFrom .large spurious
  else
    some (none, p)

@[simp]
theorem pool_set_self (p : TieredPool) (t : Tier) (pool : SlabPool)
    : (p.set t pool).pool t = pool := by
  cases t
  all_goals rfl

@[simp]
theorem pool_set_of_ne (p : TieredPool) {t t' : Tier} (h : t' ≠ t) (pool : SlabPool)
    : (p.set t pool).pool t' = p.pool t' := by
  cases t
  all_goals
    cases t'
    all_goals first | rfl | exact absurd rfl h

end TieredPool

-- The slots of the tier are large enough, and those of no smaller tier are.
def Tier.Serves (t : Tier) (size : Nat) : Prop :=
  size ≤ t.slotSize.toNat ∧ ∀ t' : Tier, size ≤ t'.slotSize.toNat → t.slotSize ≤ t'.slotSize

def Tier.ofSize (size : Nat) : Option Tier :=
  if size ≤ 256 then
    some .small
  else if size ≤ 4096 then
    some .medium
  else if size ≤ 65536 then
    some .large
  else
    none

theorem Tier.ofSize_eq_some_iff {size : Nat} {t : Tier}
    : ofSize size = some t ↔ t.Serves size := by
  have hsmall : Tier.small.slotSize.toNat = 256 := rfl
  have hmedium : Tier.medium.slotSize.toNat = 4096 := rfl
  have hlarge : Tier.large.slotSize.toNat = 65536 := rfl
  unfold ofSize
  constructor
  . intro h
    split at h
    . injection h with h
      subst h
      refine ⟨by omega, ?_⟩
      intro t' _
      cases t'
      all_goals decide
    . split at h
      . injection h with h
        subst h
        refine ⟨by omega, ?_⟩
        intro t' ht'
        cases t'
        . omega
        all_goals decide
      . split at h
        . injection h with h
          subst h
          refine ⟨by omega, ?_⟩
          intro t' ht'
          cases t'
          . omega
          . omega
          . decide
        . contradiction
  . rintro ⟨hle, hleast⟩
    have hs := hleast .small
    have hm := hleast .medium
    cases t with
    | small => rw [if_pos (by omega)]
    | medium =>
      have hnot : ¬ size ≤ 256 := fun h => absurd (hs (by omega)) (by decide)
      rw [if_neg hnot, if_pos (by omega)]
    | large =>
      have hnot : ¬ size ≤ 256 := fun h => absurd (hs (by omega)) (by decide)
      have hnot' : ¬ size ≤ 4096 := fun h => absurd (hm (by omega)) (by decide)
      rw [if_neg hnot, if_neg hnot', if_pos (by omega)]

-- The thread that works with the pool: the buffers that it holds, and what it last wrote to them.
structure Tenant where
  pool : TieredPool
  held : Tier → List PoolHandle
  written : Tier → PoolHandle → Option Bytes

namespace Tenant

inductive Call where
  | allocate (size spurious : Nat)
  | write (t : Tier) (handle : PoolHandle) (data : Bytes)
  | deallocate (t : Tier) (handle : PoolHandle) (spurious : Nat)
  deriving DecidableEq, Repr

def new (pool : TieredPool) : Tenant where
  pool := pool
  held := fun _ => []
  written := fun _ _ => none

def note (x : Tenant) (t : Tier) (handle : PoolHandle) (data : Option Bytes) : Tenant :=
  { x with written := Function.update x.written t (Function.update (x.written t) handle data) }

-- It only uses handles that it holds, and a handle only with the pool that it comes with.
def call (x : Tenant) : Call → Option Tenant
  | .allocate size spurious =>
    match x.pool.allocate size spurious with
    | none => none
    | some (none, pool) => some { x with pool }
    | some (some (handle, t), pool) =>
      let held := Function.update x.held t (handle :: x.held t)
      some (note { x with pool, held } t handle none)
  | .write t handle data =>
    if handle ∈ x.held t ∧ data.length ≤ t.slotSize.toNat then
      match (x.pool.pool t).getMut handle (copyInto data) with
      | none => none
      | some pool => some (note { x with pool := x.pool.set t pool } t handle (some data))
    else
      none
  | .deallocate t handle spurious =>
    if handle ∈ x.held t then
      match (x.pool.pool t).deallocate handle spurious with
      | none => none
      | some pool =>
        some {
          x with
          pool := x.pool.set t { x.pool.pool t with toBufferPool := pool }
          held := Function.update x.held t ((x.held t).erase handle) }
    else
      none

def run (x : Tenant) : List Call → Option Tenant
  | [] => some x
  | call :: calls =>
    match x.call call with
    | none => none
    | some x' => x'.run calls

-- The pool of a tier with the handles that are held of it.
def owner (x : Tenant) (t : Tier) : Owner where
  pool := x.pool.pool t
  held := x.held t

variable {x x' : Tenant} {t : Tier} {handle : PoolHandle}

theorem allocate_eq (p : TieredPool) (size spurious : Nat)
    : p.allocate size spurious
        = (Tier.ofSize size).elim (some (none, p)) (p.allocateFrom · spurious) := by
  unfold TieredPool.allocate Tier.ofSize
  split
  . rfl
  . split
    . rfl
    . split
      . rfl
      . rfl

/-
Each tier is what the calls on it alone would make of it, and the first bytes of a buffer are those
that were last written to it.
-/
structure Kept (x : Tenant) : Prop where
  lent : ∀ t, Owner.Lent t.slotSize t.capacity (x.owner t)
  bytes : ∀ t, ∀ handle ∈ x.held t, ∀ data, x.written t handle = some data →
    ∃ slice, (x.pool.pool t).get handle = some slice ∧ data <+: slice

theorem owner_update (x : Tenant) (t : Tier) (o : Owner)
    (written : Tier → PoolHandle → Option Bytes) (t' : Tier)
    : owner ⟨x.pool.set t o.pool, Function.update x.held t o.held, written⟩ t'
        = if t' = t then o else x.owner t' := by
  unfold owner
  dsimp only
  split
  . next h => rw [h, TieredPool.pool_set_self, Function.update_self]
  . next h => rw [TieredPool.pool_set_of_ne _ h, Function.update_of_ne h]

-- One tier changes, and the buffers in it that are still held keep their bytes or are noted anew.
theorem Kept.update (h : x.Kept) {o : Owner} {written : Tier → PoolHandle → Option Bytes}
    (hlent : Owner.Lent t.slotSize t.capacity o)
    (hothers : ∀ t', t' ≠ t → written t' = x.written t')
    (hbytes : ∀ handle ∈ o.held, ∀ data, written t handle = some data →
      ∃ slice, o.pool.get handle = some slice ∧ data <+: slice)
    : Kept ⟨x.pool.set t o.pool, Function.update x.held t o.held, written⟩ where
  lent := by
    intro t'
    rw [owner_update]
    split
    . next heq =>
      rw [heq]
      exact hlent
    . exact h.lent t'
  bytes := by
    intro t' handle hheld data hdata
    change handle ∈ Function.update x.held t o.held t' at hheld
    change written t' handle = some data at hdata
    change ∃ slice, ((x.pool.set t o.pool).pool t').get handle = some slice ∧ data <+: slice
    by_cases heq : t' = t
    . rw [heq, Function.update_self] at hheld
      rw [heq] at hdata
      rw [heq, TieredPool.pool_set_self]
      exact hbytes handle hheld data hdata
    . rw [Function.update_of_ne heq] at hheld
      rw [hothers t' heq] at hdata
      rw [TieredPool.pool_set_of_ne _ heq]
      exact h.bytes t' handle hheld data hdata

theorem Kept.allocate (h : x.Kept) {size spurious : Nat}
    (hcall : x.call (.allocate size spurious) = some x')
    : x'.Kept := by
  simp only [call, allocate_eq] at hcall
  cases hsize : Tier.ofSize size with
  | none =>
    rw [hsize] at hcall
    injection hcall with hcall
    rw [← hcall]
    exact h
  | some t =>
    rw [hsize] at hcall
    simp only [Option.elim_some, TieredPool.allocateFrom] at hcall
    cases halloc : (x.pool.pool t).allocate spurious with
    | none =>
      rw [halloc] at hcall
      contradiction
    | some res =>
      rcases res with ⟨handle, pool⟩
      rw [halloc] at hcall
      cases handle with
      | none =>
        injection hcall with hcall
        have howner : (x.owner t).call (.allocate spurious)
            = some ⟨{ x.pool.pool t with toBufferPool := pool }, x.held t⟩ := by
          simp only [Owner.call, owner, halloc]
        have hkept := h.update ((h.lent t).call howner) (fun _ _ => rfl) (h.bytes t)
        rw [Function.update_eq_self] at hkept
        rw [← hcall]
        exact hkept
      | some handle =>
        injection hcall with hcall
        have howner : (x.owner t).call (.allocate spurious)
            = some ⟨{ x.pool.pool t with toBufferPool := pool }, handle :: x.held t⟩ := by
          simp only [Owner.call, owner, halloc]
        rw [← hcall]
        apply h.update ((h.lent t).call howner)
        . intro t' hne
          exact Function.update_of_ne hne _ _
        . intro handle' hheld data hdata
          rw [Function.update_self] at hdata
          by_cases heq : handle' = handle
          . rw [heq, Function.update_self] at hdata
            contradiction
          . rw [Function.update_of_ne heq] at hdata
            rw [List.mem_cons] at hheld
            exact h.bytes t handle' (hheld.resolve_left heq) data hdata

theorem Kept.deallocate (h : x.Kept) {spurious : Nat}
    (hcall : x.call (.deallocate t handle spurious) = some x')
    : x'.Kept := by
  simp only [call] at hcall
  by_cases hheld : handle ∈ x.held t
  . rw [if_pos hheld] at hcall
    cases hfree : (x.pool.pool t).deallocate handle spurious with
    | none =>
      rw [hfree] at hcall
      contradiction
    | some pool =>
      rw [hfree] at hcall
      injection hcall with hcall
      have howner : (x.owner t).call (.deallocate handle spurious)
          = some ⟨{ x.pool.pool t with toBufferPool := pool }, (x.held t).erase handle⟩ := by
        simp only [Owner.call, owner, hheld, if_true, hfree]
      rw [← hcall]
      apply h.update ((h.lent t).call howner) (fun _ _ => rfl)
      intro handle' hheld' data hdata
      exact h.bytes t handle' (List.mem_of_mem_erase hheld') data hdata
  . rw [if_neg hheld] at hcall
    contradiction

-- A write shows in the slice of its handle and in no other one.
theorem Kept.exists_write (h : x.Kept) (hheld : handle ∈ x.held t) {data : Bytes}
    (hdata : data.length ≤ t.slotSize.toNat)
    : ∃ x', x.call (.write t handle data) = some x' ∧ x'.Kept ∧ x'.held = x.held := by
  have hlent := h.lent t
  have hrange := hlent.range t.capacity_pos t.bytes_lt hheld
  obtain ⟨pool, hmut, hpool, hlength, hget⟩ := SlabPool.exists_getMut hrange hdata
  refine ⟨note { x with pool := x.pool.set t pool } t handle (some data), ?_, ?_, rfl⟩
  . have hmut' : (x.pool.pool t).getMut handle (copyInto data) = some pool := hmut
    simp only [call, hheld, hdata, and_self, if_true, hmut']
  . have howner : (⟨pool, x.held t⟩ : Owner) = (x.owner t).withStorage pool.storage := by
      rw [hpool]
      rfl
    have hlent' : Owner.Lent t.slotSize t.capacity ⟨pool, x.held t⟩ := by
      rw [howner]
      exact hlent.withStorage hlength
    have hkept : Kept ⟨x.pool.set t pool, Function.update x.held t (x.held t),
        (note x t handle (some data)).written⟩ := by
      apply h.update hlent'
      . intro t' hne
        exact Function.update_of_ne hne _ _
      . intro handle' hheld' data' hdata'
        change Function.update x.written t _ t handle' = some data' at hdata'
        rw [Function.update_self] at hdata'
        by_cases heq : handle' = handle
        . rw [heq, Function.update_self, Option.some.injEq] at hdata'
          rw [heq, ← hdata']
          exact hget
        . rw [Function.update_of_ne heq] at hdata'
          have hapart := hlent.slicesApart t.capacity_pos t.bytes_lt handle hheld handle' hheld'
            (fun h => heq h.symm)
          obtain ⟨slice, hslice, hpre⟩ := h.bytes t handle' hheld' data' hdata'
          refine ⟨slice, ?_, hpre⟩
          have hsame := SlabPool.get_getMut hapart hmut
          exact hsame.trans hslice
    rw [Function.update_eq_self] at hkept
    exact hkept

theorem Kept.call (h : x.Kept) {c : Call} (hcall : x.call c = some x') : x'.Kept := by
  cases c with
  | allocate size spurious => exact h.allocate hcall
  | deallocate t handle spurious => exact h.deallocate hcall
  | write t handle data =>
    by_cases hwrite : handle ∈ x.held t ∧ data.length ≤ t.slotSize.toNat
    . obtain ⟨x₁, hcall', hkept, -⟩ := h.exists_write hwrite.1 hwrite.2
      rw [hcall, Option.some.injEq] at hcall'
      rw [hcall']
      exact hkept
    . simp only [Tenant.call, hwrite, if_false] at hcall
      contradiction

theorem Kept.run {calls : List Call} (h : x.Kept) (hrun : x.run calls = some x') : x'.Kept := by
  induction calls generalizing x with
  | nil =>
    injection hrun with hrun
    rw [← hrun]
    exact h
  | cons c calls ih =>
    simp only [Tenant.run] at hrun
    cases hcall : x.call c with
    | none =>
      rw [hcall] at hrun
      contradiction
    | some x₁ =>
      rw [hcall] at hrun
      exact ih (h.call hcall) hrun

theorem exists_new : ∃ pool, TieredPool.new = some pool ∧ (new pool).Kept := by
  obtain ⟨small, hsmall⟩ := @Owner.exists_new 256 1048576 (by decide)
  obtain ⟨medium, hmedium⟩ := @Owner.exists_new 4096 262144 (by decide)
  obtain ⟨large, hlarge⟩ := @Owner.exists_new 65536 16384 (by decide)
  refine ⟨⟨small, medium, large⟩, by simp [TieredPool.new, hsmall, hmedium, hlarge], ?_, ?_⟩
  . intro t
    cases t with
    | small => exact .new hsmall
    | medium => exact .new hmedium
    | large => exact .new hlarge
  . intro t handle hheld
    contradiction

-- `allocate` takes from the tier for the size, and from no other one when that is exhausted.
theorem Kept.allocates (h : x.Kept) (size spurious : Nat)
    : ∃ res pool, x.pool.allocate size spurious = some (res, pool)
        ∧ (∀ handle t, res = some (handle, t) → t.Serves size ∧ handle ∉ x.held t)
        ∧ (res = none ↔ ∀ t : Tier, t.Serves size → (x.held t).length = t.capacity.toNat) := by
  simp only [← Tier.ofSize_eq_some_iff]
  rw [allocate_eq]
  cases hsize : Tier.ofSize size with
  | none => exact ⟨none, x.pool, rfl, nofun, by simp⟩
  | some t =>
    obtain ⟨free, hrep, -⟩ := (h.lent t).represents t.capacity_pos
    obtain ⟨pool, halloc, -⟩ := hrep.allocate spurious
    have hexhausted := hrep.exhausted_iff spurious
    rw [halloc] at hexhausted
    have halloc' : (x.pool.pool t).allocate spurious = some (free.head?, pool) := halloc
    refine ⟨free.head?.map (·, t), x.pool.set t { x.pool.pool t with toBufferPool := pool },
      ?_, ?_, ?_⟩
    . simp only [Option.elim_some, TieredPool.allocateFrom, halloc']
    . intro handle t' hres
      obtain ⟨handle', hhead, heq⟩ := Option.map_eq_some_iff.mp hres
      injection heq with hhandle ht
      rw [← ht, ← hhandle]
      refine ⟨rfl, fun hheld => hrep.apart handle' hheld ?_⟩
      exact List.mem_of_mem_head? hhead
    . have hcap : (x.owner t).pool.capacity = t.capacity := (h.lent t).fields.1
      rw [hcap] at hexhausted
      constructor
      . intro hnone t' ht'
        rw [Option.map_eq_none_iff] at hnone
        injection ht' with ht'
        rw [← ht']
        exact hexhausted.mp ⟨pool, by rw [hnone]⟩
      . intro hall
        obtain ⟨pool', hpool'⟩ := hexhausted.mpr (hall t rfl)
        rw [Option.some.injEq, Prod.mk.injEq] at hpool'
        rw [hpool'.1]
        rfl

theorem Kept.exists_deallocate (h : x.Kept) (hheld : handle ∈ x.held t) (spurious : Nat)
    : ∃ x', x.call (.deallocate t handle spurious) = some x' := by
  obtain ⟨free, hrep, hlength⟩ := (h.lent t).represents t.capacity_pos
  obtain ⟨pool, hfree, -⟩ := hrep.deallocate hlength hheld spurious
  have hfree' : (x.pool.pool t).deallocate handle spurious = some pool := hfree
  simp only [Tenant.call, hheld, if_true, hfree']
  exact ⟨_, rfl⟩

-- What holds of the pool after any calls on it: nothing panics, and no buffer is lost or overwritten.
structure Served (x : Tenant) : Prop where
  nodup : ∀ t, (x.held t).Nodup
  bytes : ∀ t, ∀ handle ∈ x.held t, ∃ slice, (x.pool.pool t).get handle = some slice
    ∧ slice.length = t.slotSize.toNat ∧ ∀ data, x.written t handle = some data → data <+: slice
  allocate : ∀ size spurious, ∃ res pool, x.pool.allocate size spurious = some (res, pool)
    ∧ (∀ handle t, res = some (handle, t) → t.Serves size ∧ handle ∉ x.held t)
    ∧ (res = none ↔ ∀ t : Tier, t.Serves size → (x.held t).length = t.capacity.toNat)
  write : ∀ t, ∀ handle ∈ x.held t, ∀ data : Bytes, data.length ≤ t.slotSize.toNat →
    ∃ x', x.call (.write t handle data) = some x'
  deallocate : ∀ t, ∀ handle ∈ x.held t, ∀ spurious,
    ∃ x', x.call (.deallocate t handle spurious) = some x'

-- A buffer is as large as asked for, keeps what is written to it until it is returned, and is the
-- holder's alone.
theorem tiers_served
    : ∃ pool, TieredPool.new = some pool
        ∧ ∀ calls x, (new pool).run calls = some x → x.Served := by
  obtain ⟨pool, hnew, hkept⟩ := exists_new
  refine ⟨pool, hnew, ?_⟩
  intro calls x hrun
  have h := hkept.run hrun
  constructor
  . intro t
    obtain ⟨free, hrep, -⟩ := (h.lent t).represents t.capacity_pos
    exact hrep.nodup_held
  . intro t handle hheld
    obtain ⟨slice, hget, hlength⟩ := (h.lent t).exists_get t.capacity_pos t.bytes_lt hheld
    refine ⟨slice, hget, hlength, ?_⟩
    intro data hdata
    obtain ⟨slice', hget', hpre⟩ := h.bytes t handle hheld data hdata
    have hget'' : (x.pool.pool t).get handle = some slice := hget
    rw [hget', Option.some.injEq] at hget''
    rw [← hget'']
    exact hpre
  . exact h.allocates
  . intro t handle hheld data hdata
    obtain ⟨x', hcall, -⟩ := h.exists_write hheld hdata
    exact ⟨x', hcall⟩
  . intro t handle hheld spurious
    exact h.exists_deallocate hheld spurious

end Tenant

end Velocitas
