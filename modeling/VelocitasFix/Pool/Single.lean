import VelocitasFix.Data.Stride
import VelocitasFix.Pool.Safety

/-!
This module contains the pool in the hands of one thread: its slots are a stack of free ones and the
held ones, and the slices of two held slots are apart unless the offsets wrap around.
-/

namespace Velocitas

namespace BufferPool

variable {pool pool' : BufferPool} {handle next : PoolHandle}

def pop (pool : BufferPool) (next : PoolHandle) : BufferPool := { pool with freeHead := next }

def push (pool : BufferPool) (handle : PoolHandle) : BufferPool where
  freeList := pool.freeList.set handle.toNat pool.freeHead
  freeHead := handle

theorem push_link_self (h : handle.toNat < pool.freeList.length)
    : (pool.push handle).link handle = some pool.freeHead :=
  link_of_set_self rfl h

theorem push_link_of_ne {a : PoolHandle} (h : a ≠ handle)
    : (pool.push handle).link a = pool.link a :=
  link_of_set_of_ne rfl h

theorem allocate_of_end (h : pool.freeHead = END_OF_LIST) (spurious : Nat)
    : pool.allocate spurious = some (none, pool) := by
  unfold allocate
  simp [h]

-- A swap that fails leaves the pool as it was, so the loop starts over.
theorem allocate_of_link (hne : pool.freeHead ≠ END_OF_LIST)
    (hlink : pool.link pool.freeHead = some next) (spurious : Nat)
    : pool.allocate spurious = some (some pool.freeHead, pool.pop next) := by
  induction spurious with
  | zero =>
    unfold allocate
    simp [hne, hlink, pop]
  | succ spurious ih =>
    unfold allocate
    simp [hne, hlink, ih]

-- A swap that fails leaves the link that it has stored, and the loop stores it again.
theorem deallocate_of_lt (h : handle.toNat < pool.freeList.length) (spurious : Nat)
    : pool.deallocate handle spurious = some (pool.push handle) := by
  induction spurious generalizing pool with
  | zero =>
    unfold deallocate
    simp [h, push]
  | succ spurious ih =>
    unfold deallocate
    simp only [h, if_true]
    rw [ih (by simpa using h)]
    simp [push]

theorem lt_of_deallocate {spurious : Nat} (h : pool.deallocate handle spurious = some pool')
    : handle.toNat < pool.freeList.length := by
  by_contra hnot
  unfold deallocate at h
  simp [hnot] at h

end BufferPool

namespace Owner

variable {o o' : Owner}

-- What every call keeps is kept by a sequence of calls.
theorem run_induction {p : Owner → Prop} {calls : List Call} (hstart : p o)
    (hcall : ∀ o₁ o₂ c, p o₁ → o₁.call c = some o₂ → p o₂) (h : o.run calls = some o')
    : p o' := by
  induction calls generalizing o with
  | nil =>
    injection h with h
    rw [← h]
    exact hstart
  | cons c calls ih =>
    simp only [run] at h
    cases hc : o.call c with
    | none => simp [hc] at h
    | some o₁ =>
      rw [hc] at h
      exact ih (hcall o o₁ c hstart hc) h

section Machine

def machine (o : Owner) : Machine Unit where
  pool := o.pool.toBufferPool
  pc := fun _ => .idle
  held := fun _ => o.held

theorem hold_unit (m : Machine Unit) (slots : List PoolHandle)
    : m.hold () slots = { m with held := fun _ => slots } := by
  simp only [Machine.hold, Machine.mk.injEq, true_and]
  funext t
  rfl

-- A call is a run of the machine in which nobody comes in between.
theorem reaches_of_call {c : Call} (h : o.call c = some o')
    : Machine.Reaches Machine.AnyStep o.machine o'.machine := by
  cases c with
  | allocate spurious =>
    by_cases hend : o.pool.freeHead = END_OF_LIST
    . simp only [call, BufferPool.allocate_of_end hend, Option.some.injEq] at h
      subst h
      exact .refl
    . cases hlink : o.pool.link o.pool.freeHead with
      | none =>
        unfold call BufferPool.allocate at h
        simp [hend, hlink] at h
      | some next =>
        simp only [call, BufferPool.allocate_of_link hend hlink, Option.some.injEq] at h
        subst h
        have hrun := @Machine.run_allocating _ _ o.machine () _ next rfl rfl hend hlink
        rw [hold_unit] at hrun
        apply Machine.reaches_run hrun
  | deallocate handle spurious =>
    simp only [call] at h
    split at h
    case isTrue hheld =>
      cases hpool : o.pool.deallocate handle spurious with
      | none => simp [hpool] at h
      | some pool' =>
        have hlt := BufferPool.lt_of_deallocate hpool
        rw [BufferPool.deallocate_of_lt hlt] at h
        simp only [Option.some.injEq] at h
        subst h
        have hrun := @Machine.run_deallocating _ _ o.machine () handle rfl hheld hlt
        rw [hold_unit] at hrun
        apply Machine.reaches_run hrun
    case isFalse => contradiction

theorem reaches_of_run {calls : List Call} (h : o.run calls = some o')
    : Machine.Reaches Machine.AnyStep o.machine o'.machine := by
  apply run_induction .refl _ h
  intro o₁ o₂ c hreach hcall
  exact hreach.trans (reaches_of_call hcall)

end Machine

-- The calls leave alone what `new` has fixed.
theorem fixed_of_call {c : Call} (h : o.call c = some o')
    : o'.pool.storage = o.pool.storage ∧ o'.pool.slotSize = o.pool.slotSize
        ∧ o'.pool.capacity = o.pool.capacity := by
  cases c with
  | allocate spurious =>
    simp only [call] at h
    split at h
    case h_1 | h_2 =>
      injection h with h
      rw [← h]
      exact ⟨rfl, rfl, rfl⟩
    case h_3 => contradiction
  | deallocate handle spurious =>
    simp only [call] at h
    split at h
    case isTrue =>
      split at h
      case h_1 =>
        injection h with h
        rw [← h]
        exact ⟨rfl, rfl, rfl⟩
      case h_2 => contradiction
    case isFalse => contradiction

theorem fixed_of_run {calls : List Call} (h : o.run calls = some o')
    : o'.pool.storage = o.pool.storage ∧ o'.pool.slotSize = o.pool.slotSize
        ∧ o'.pool.capacity = o.pool.capacity := by
  apply run_induction ⟨rfl, rfl, rfl⟩ _ h
  intro o₁ o₂ c hfixed hcall
  rw [← hfixed.1, ← hfixed.2.1, ← hfixed.2.2]
  apply fixed_of_call hcall

theorem run_append {calls : List Call} (h : o.run calls = some o') (c : Call)
    : o.run (calls ++ [c]) = o'.call c := by
  induction calls generalizing o with
  | nil =>
    injection h with h
    rw [h]
    simp only [List.nil_append, run]
    cases o'.call c <;> rfl
  | cons c' calls ih =>
    simp only [run, List.cons_append] at h ⊢
    cases hcall : o.call c' with
    | none => simp [hcall] at h
    | some o₁ =>
      rw [hcall] at h
      apply ih h

section Represents

-- The free slots in the order of the links, and how the calls work on them.
structure Represents (o : Owner) (free : List PoolHandle) : Prop where
  chain : Chain.IsChain o.pool.link END_OF_LIST o.pool.freeHead free
  unique : ∀ free', Chain.IsChain o.pool.link END_OF_LIST o.pool.freeHead free' → free' = free
  nodup_free : free.Nodup
  nodup_held : o.held.Nodup
  free_lt : ∀ handle ∈ free, handle < o.pool.capacity
  held_lt : ∀ handle ∈ o.held, handle < o.pool.capacity
  apart : ∀ handle ∈ o.held, handle ∉ free
  length : o.held.length + free.length = o.pool.capacity.toNat

structure Stacked (o : Owner) (free : List PoolHandle) : Prop where
  allocate : ∀ spurious, ∃ pool, o.pool.allocate spurious = some (free.head?, pool)
    ∧ Chain.IsChain pool.link END_OF_LIST pool.freeHead free.tail
  deallocate : ∀ handle ∈ o.held, ∀ spurious, ∃ pool,
    o.pool.deallocate handle spurious = some pool
      ∧ Chain.IsChain pool.link END_OF_LIST pool.freeHead (handle :: free)
  exhausted_iff : ∀ spurious, (∃ pool, o.pool.allocate spurious = some (none, pool))
    ↔ o.held.length = o.pool.capacity.toNat

def Sound (o : Owner) : Prop := ∃ free, o.Represents free ∧ o.Stacked free

variable {slotSize : UInt64} {capacity : UInt32} {pool : SlabPool} {free : List PoolHandle}

theorem fields_of_new (hnew : SlabPool.new slotSize capacity = some pool)
    : pool.toBufferPool = BufferPool.new capacity ∧ pool.slotSize = slotSize
        ∧ pool.capacity = capacity
        ∧ pool.storage.length = (slotSize * capacity.toUInt64).toNat
        ∧ (slotSize * capacity.toUInt64).toNat ≤ isizeMax := by
  simp only [SlabPool.new] at hnew
  split at hnew
  case isTrue h =>
    injection hnew with hnew
    rw [← hnew]
    refine ⟨rfl, rfl, rfl, ?_, h⟩
    apply List.length_replicate
  case isFalse => contradiction

theorem fixed_of_new (hnew : SlabPool.new slotSize capacity = some pool) {calls : List Call}
    (hrun : (Owner.new pool).run calls = some o)
    : o.pool.capacity = capacity ∧ o.pool.slotSize = slotSize
        ∧ o.pool.storage.length = (slotSize * capacity.toUInt64).toNat := by
  obtain ⟨_, hsize, hcapacity, hlength, _⟩ := fields_of_new hnew
  obtain ⟨hstorage', hsize', hcapacity'⟩ := fixed_of_run hrun
  refine ⟨hcapacity'.trans hcapacity, hsize'.trans hsize, ?_⟩
  rw [hstorage']
  exact hlength

theorem machine_new (hnew : SlabPool.new slotSize capacity = some pool)
    : (Owner.new pool).machine = Machine.new Unit capacity := by
  obtain ⟨hpool, _⟩ := fields_of_new hnew
  simp [machine, Owner.new, Machine.new, hpool]

theorem mem_slotsFrom {handle : PoolHandle}
    : handle ∈ Machine.slotsFrom 0 capacity.toNat ↔ handle < capacity := by
  simp only [Machine.slotsFrom, List.mem_map, List.mem_range'_1, UInt32.lt_iff_toNat_lt]
  constructor
  . intro h
    obtain ⟨i, hi, rfl⟩ := h
    rw [@Machine.toNat_ofNat capacity i (by omega)]
    omega
  . intro h
    exact ⟨handle.toNat, ⟨by omega, by omega⟩, UInt32.ofNat_toNat⟩

-- What is held and what is free are all the slots together.
theorem partition_of_run (hcapacity : 0 < capacity)
    (hnew : SlabPool.new slotSize capacity = some pool) {calls : List Call}
    (hrun : (Owner.new pool).run calls = some o)
    : o.pool.freeList.length = capacity.toNat
        ∧ ∃ free, Chain.IsChain o.pool.link END_OF_LIST o.pool.freeHead free
            ∧ (o.held ++ free).Perm (Machine.slotsFrom 0 capacity.toNat) := by
  have hreach := reaches_of_run hrun
  rw [machine_new hnew] at hreach
  have hfresh := Machine.Solo.reaches hcapacity hreach
  obtain ⟨s, _, hrep⟩ := Machine.reaches_represents hcapacity hfresh
  have hlength : o.pool.freeList.length = capacity.toNat :=
    Machine.length_freeList_of_reaches hfresh
  have hmem {handle : PoolHandle} : handle ∈ s.owned () ↔ handle ∈ o.held := by
    rw [hrep.mem_owned]
    apply or_iff_left
    apply List.not_mem_nil
  have hnodup : (o.held ++ s.free).Nodup := by
    apply List.Nodup.append _ s.nodup_free
    . intro handle hheld
      apply s.apart () handle (hmem.mpr hheld)
    . have := s.nodup_owned ()
      rw [hrep.owned, Multiset.coe_nodup] at this
      apply this.of_append_left
  refine ⟨hlength, s.free, hrep.chain, ?_⟩
  apply (List.perm_ext_iff_of_nodup hnodup (@Machine.nodup_slotsFrom capacity _ _ (by omega))).mpr
  intro handle
  rw [mem_slotsFrom, UInt32.lt_iff_toNat_lt, ← hlength, List.mem_append]
  constructor
  . intro h
    cases h with
    | inl hheld => apply (hrep.node () handle (hmem.mpr hheld)).2
    | inr hfree =>
      have hsome := (hrep.chain.node handle hfree).2
      obtain ⟨_, hlink⟩ := Option.isSome_iff_exists.mp hsome
      apply (List.getElem?_eq_some_iff.mp hlink).1
  . intro hlt
    rw [hlength] at hlt
    have hhas := Machine.has_of_reaches hcapacity hfresh hlt
    rw [UInt32.ofNat_toNat] at hhas
    cases hhas with
    | inl hreachable =>
      right
      apply hrep.chain.mem_of_reachable hreachable
    | inr howned =>
      obtain ⟨_, howned⟩ := howned
      left
      cases howned with
      | inl hheld => exact hheld
      | inr hslots => contradiction

theorem represents_of_run (hcapacity : 0 < capacity)
    (hnew : SlabPool.new slotSize capacity = some pool) {calls : List Call}
    (hrun : (Owner.new pool).run calls = some o)
    : ∃ free, o.Represents free := by
  obtain ⟨_, free, hchain, hperm⟩ := partition_of_run hcapacity hnew hrun
  obtain ⟨heq, _⟩ := fixed_of_new hnew hrun
  have hnodup := hperm.nodup_iff.mpr (@Machine.nodup_slotsFrom capacity _ _ (by omega))
  rw [List.nodup_append'] at hnodup
  obtain ⟨hnodup_held, hnodup_free, hdisjoint⟩ := hnodup
  have hlt {handle : PoolHandle} (hmem : handle ∈ o.held ++ free)
      : handle < o.pool.capacity := by
    rw [heq]
    apply mem_slotsFrom.mp (hperm.mem_iff.mp hmem)
  refine ⟨free, ?_⟩
  constructor
  case chain => exact hchain
  case unique =>
    intro free' hchain'
    apply hchain.unique hchain'
  case nodup_free => exact hnodup_free
  case nodup_held => exact hnodup_held
  case free_lt =>
    intro handle hmem
    apply hlt (List.mem_append_right _ hmem)
  case held_lt =>
    intro handle hmem
    apply hlt (List.mem_append_left _ hmem)
  case apart =>
    intro handle hheld
    apply hdisjoint hheld
  case length =>
    have := hperm.length_eq
    rw [List.length_append, Machine.slotsFrom, List.length_map, List.length_range'] at this
    rw [heq]
    exact this

-- `allocate` pops the first of the free slots.
theorem Represents.allocate (h : o.Represents free) (spurious : Nat)
    : ∃ pool, o.pool.allocate spurious = some (free.head?, pool)
        ∧ Chain.IsChain pool.link END_OF_LIST pool.freeHead free.tail := by
  by_cases hend : o.pool.freeHead = END_OF_LIST
  . have hnil : Chain.IsChain o.pool.link END_OF_LIST o.pool.freeHead [] := by
      rw [hend]
      apply Chain.IsChain.nil
    rw [← h.unique [] hnil]
    exact ⟨_, BufferPool.allocate_of_end hend spurious, hnil⟩
  . obtain ⟨next, rest, rfl, hlink, hrest⟩ := h.chain.eq_cons hend
    exact ⟨_, BufferPool.allocate_of_link hend hlink spurious, hrest⟩

-- `deallocate` pushes a held slot on the free ones. The link that it overwrites is no live one.
theorem Represents.deallocate (h : o.Represents free)
    (hlength : o.pool.freeList.length = o.pool.capacity.toNat) {handle : PoolHandle}
    (hheld : handle ∈ o.held) (spurious : Nat)
    : ∃ pool, o.pool.deallocate handle spurious = some pool
        ∧ Chain.IsChain pool.link END_OF_LIST pool.freeHead (handle :: free) := by
  have hslot : handle.toNat < o.pool.capacity.toNat := h.held_lt handle hheld
  have hlt : handle.toNat < o.pool.freeList.length := by
    rw [hlength]
    exact hslot
  have hne := Machine.ofNat_ne_end hslot
  rw [UInt32.ofNat_toNat] at hne
  refine ⟨_, BufferPool.deallocate_of_lt hlt spurious, ?_⟩
  apply Chain.IsChain.cons hne (BufferPool.push_link_self hlt)
  apply h.chain.congr
  intro a ha
  apply BufferPool.push_link_of_ne
  intro heq
  rw [heq] at ha
  apply h.apart handle hheld ha

theorem Represents.exhausted_iff (h : o.Represents free) (spurious : Nat)
    : (∃ pool, o.pool.allocate spurious = some (none, pool))
        ↔ o.held.length = o.pool.capacity.toNat := by
  obtain ⟨pool, hallocate, _⟩ := h.allocate spurious
  have hlength := h.length
  rw [hallocate]
  constructor
  . intro hnone
    obtain ⟨_, hnone⟩ := hnone
    simp only [Option.some.injEq, Prod.mk.injEq, List.head?_eq_none_iff] at hnone
    rw [hnone.1, List.length_nil] at hlength
    exact hlength
  . intro hall
    have hfree : free = [] := by
      apply List.eq_nil_of_length_eq_zero
      omega
    exact ⟨pool, by rw [hfree, List.head?_nil]⟩

theorem sound_of_run (hcapacity : 0 < capacity)
    (hnew : SlabPool.new slotSize capacity = some pool) {calls : List Call}
    (hrun : (Owner.new pool).run calls = some o)
    : o.Sound := by
  obtain ⟨hlength, _⟩ := partition_of_run hcapacity hnew hrun
  obtain ⟨free, hrep⟩ := represents_of_run hcapacity hnew hrun
  rw [← (fixed_of_new hnew hrun).1] at hlength
  refine ⟨free, hrep, ?_⟩
  constructor
  case allocate => apply hrep.allocate
  case deallocate =>
    intro handle hheld
    apply hrep.deallocate hlength hheld
  case exhausted_iff => apply hrep.exhausted_iff

example
    : ((SlabPool.new 8 3).bind fun pool =>
          ((Owner.new pool).run [.allocate 0, .allocate 2, .deallocate 0 1, .allocate 0]).map held)
        = some [0, 1] := by
  decide +kernel

-- As long as a slot is free, another call of `allocate` takes one.
theorem exists_run_of_le (hcapacity : 0 < capacity)
    (hnew : SlabPool.new slotSize capacity = some pool) {count : Nat}
    (hcount : count ≤ capacity.toNat)
    : ∃ calls o, (Owner.new pool).run calls = some o ∧ o.held.length = count := by
  induction count with
  | zero => exact ⟨[], Owner.new pool, rfl, rfl⟩
  | succ count ih =>
    obtain ⟨calls, o, hrun, hheld⟩ := ih (by omega)
    obtain ⟨free, hrep⟩ := represents_of_run hcapacity hnew hrun
    obtain ⟨pool', hallocate, _⟩ := hrep.allocate 0
    have hlength := hrep.length
    rw [(fixed_of_new hnew hrun).1] at hlength
    cases hfree : free with
    | nil =>
      rw [hfree, List.length_nil] at hlength
      omega
    | cons handle rest =>
      rw [hfree, List.head?_cons] at hallocate
      let o' : Owner :=
        { pool := { o.pool with toBufferPool := pool' }, held := handle :: o.held }
      refine ⟨calls ++ [.allocate 0], o', ?_, ?_⟩
      . rw [run_append hrun, call, hallocate]
      . rw [List.length_cons, hheld]

theorem exists_run_all (hcapacity : 0 < capacity)
    (hnew : SlabPool.new slotSize capacity = some pool)
    : ∃ calls o, (Owner.new pool).run calls = some o
        ∧ ∀ handle, handle < capacity → handle ∈ o.held := by
  obtain ⟨calls, o, hrun, hheld⟩ := exists_run_of_le hcapacity hnew (Nat.le_refl _)
  obtain ⟨_, free, _, hperm⟩ := partition_of_run hcapacity hnew hrun
  refine ⟨calls, o, hrun, ?_⟩
  intro handle hlt
  have hlength := hperm.length_eq
  rw [List.length_append, Machine.slotsFrom, List.length_map, List.length_range'] at hlength
  have hfree : free = [] := by
    apply List.eq_nil_of_length_eq_zero
    omega
  have hmem := hperm.mem_iff.mpr (mem_slotsFrom.mpr hlt)
  rw [hfree, List.append_nil] at hmem
  exact hmem

end Represents

end Owner

namespace SlabPool

variable {pool pool' : SlabPool} {handle a b : PoolHandle} {i : Nat}

-- The slice that a handle stands for has a byte at this position of the storage.
def Covers (pool : SlabPool) (handle : PoolHandle) (i : Nat) : Prop :=
  ∃ offset length, pool.range handle = some (offset, length) ∧ offset ≤ i ∧ i < offset + length

theorem range_eq (h : pool.storage.length < 2 ^ 64)
    : pool.range handle
        = if Stride.offset pool.slotSize.toNat (2 ^ 64) handle.toNat + pool.slotSize.toNat
            ≤ pool.storage.length then
          some (Stride.offset pool.slotSize.toNat (2 ^ 64) handle.toNat, pool.slotSize.toNat)
        else
          none := by
  have hsize := pool.slotSize.toNat_lt
  have hoffset : (handle.toUInt64 * pool.slotSize).toNat
      = Stride.offset pool.slotSize.toNat (2 ^ 64) handle.toNat := by
    rw [UInt64.toNat_mul, UInt32.toNat_toUInt64]
    rfl
  have hlt := (handle.toUInt64 * pool.slotSize).toNat_lt
  simp only [range, UInt64.le_iff_toNat_le, UInt64.toNat_add, hoffset]
  rw [hoffset] at hlt
  generalize Stride.offset pool.slotSize.toNat (2 ^ 64) handle.toNat = offset at hlt
  split
  case isTrue hin =>
    have hsub : (offset + pool.slotSize.toNat) % 2 ^ 64 - offset = pool.slotSize.toNat := by omega
    rw [if_pos (by omega), hsub]
  case isFalse hout =>
    rw [if_neg (by omega)]

theorem stride_length (slotSize : UInt64) (capacity : UInt32)
    : Stride.length slotSize.toNat (2 ^ 64) capacity.toNat
        = (slotSize * capacity.toUInt64).toNat := by
  rw [UInt64.toNat_mul, UInt32.toNat_toUInt64]
  rfl

theorem covers_iff {capacity : UInt32}
    (hlength : pool.storage.length = (pool.slotSize * capacity.toUInt64).toNat)
    : pool.Covers handle i
        ↔ Stride.Covers pool.slotSize.toNat (2 ^ 64) capacity.toNat handle.toNat i := by
  have hlt := (pool.slotSize * capacity.toUInt64).toNat_lt
  have hstride := stride_length pool.slotSize capacity
  rw [← hlength] at hstride
  rw [Covers, range_eq (by omega)]
  constructor
  . intro h
    obtain ⟨offset, length, hrange, hge, hupper⟩ := h
    split at hrange
    case isTrue hwithin =>
      simp only [Option.some.injEq, Prod.mk.injEq] at hrange
      obtain ⟨rfl, rfl⟩ := hrange
      rw [← hstride] at hwithin
      exact ⟨hwithin, hge, hupper⟩
    case isFalse => contradiction
  . intro h
    have hwithin := h.within
    rw [hstride] at hwithin
    rw [if_pos hwithin]
    exact ⟨_, _, rfl, h.ge, h.lt⟩

theorem le_of_range {offset length : Nat} (h : pool.range handle = some (offset, length))
    : offset + length ≤ pool.storage.length := by
  simp only [range, UInt64.le_iff_toNat_le] at h
  split at h
  case isTrue hin =>
    simp only [Option.some.injEq, Prod.mk.injEq] at h
    omega
  case isFalse => contradiction

-- What is written over the slice of a handle shows in no slice that is apart from it.
theorem get_getMut (hapart : ∀ i, pool.Covers a i → ¬pool.Covers b i) {write : Bytes → Bytes}
    (h : pool.getMut a write = some pool')
    : pool'.get b = pool.get b := by
  cases ha : pool.range a with
  | none => simp [getMut, ha] at h
  | some ra =>
    obtain ⟨start, count⟩ := ra
    simp only [getMut, ha, Option.some.injEq] at h
    have hin := le_of_range ha
    generalize hdata : (write (slice pool.storage start count)).take count = data at h
    have hcount : data.length ≤ count := by
      rw [← hdata]
      apply List.length_take_le
    have hlength : (overwrite pool.storage start data).length = pool.storage.length :=
      length_overwrite (by omega)
    have hrange : pool'.range b = pool.range b := by
      simp only [range, ← h, hlength]
    rw [get, get, hrange]
    cases hb : pool.range b with
    | none => rfl
    | some rb =>
      obtain ⟨offset, n⟩ := rb
      simp only [← h, Option.some.injEq]
      cases data with
      | nil => simp [overwrite]
      | cons byte rest =>
        cases n with
        | zero => simp [slice]
        | succ n =>
          apply slice_overwrite_of_apart (by omega)
          rw [List.length_cons] at hcount ⊢
          by_contra hcross
          apply hapart (max start offset)
          . exact ⟨start, count, ha, by omega, by omega⟩
          . exact ⟨offset, n + 1, hb, by omega, by omega⟩

end SlabPool

namespace Owner

def SlicesApart (o : Owner) : Prop :=
  ∀ a ∈ o.held, ∀ b ∈ o.held, a ≠ b → ∀ i, o.pool.Covers a i → ¬o.pool.Covers b i

-- The bytes of the storage are counted without a wrap, or `get` finds no slice, or `new` panics.
def Fits (slotSize : UInt64) (capacity : UInt32) : Prop :=
  slotSize.toNat * capacity.toNat < 2 ^ 64
    ∨ slotSize * capacity.toUInt64 < slotSize
    ∨ isizeMax < (slotSize * capacity.toUInt64).toNat

variable {slotSize : UInt64} {capacity : UInt32} {pool : SlabPool} {o : Owner}

theorem slicesApart_of_run (hcapacity : 0 < capacity)
    (hnew : SlabPool.new slotSize capacity = some pool) (hfits : Fits slotSize capacity)
    {calls : List Call} (hrun : (Owner.new pool).run calls = some o)
    : o.SlicesApart := by
  obtain ⟨hcap, hsize, hlength⟩ := fixed_of_new hnew hrun
  obtain ⟨free, hrep⟩ := represents_of_run hcapacity hnew hrun
  subst hsize
  intro a ha b hb hab i hcovers hcovers'
  rw [SlabPool.covers_iff hlength] at hcovers hcovers'
  have hor : o.pool.slotSize.toNat * capacity.toNat < 2 ^ 64
      ∨ Stride.length o.pool.slotSize.toNat (2 ^ 64) capacity.toNat < o.pool.slotSize.toNat := by
    rw [SlabPool.stride_length]
    obtain hlt | hlt | hlt := hfits
    . left
      exact hlt
    . right
      exact hlt
    . have := (fields_of_new hnew).2.2.2.2
      omega
  have hne : a.toNat ≠ b.toNat := by
    intro heq
    apply hab
    apply UInt32.toNat_inj.mp heq
  have halt := hrep.held_lt a ha
  have hblt := hrep.held_lt b hb
  rw [hcap] at halt hblt
  apply (Stride.apart_iff o.pool.slotSize.toNat_lt).mpr hor _ _ halt hblt hne i hcovers hcovers'

-- Without a wrap every held handle has the slice that its index says.
theorem range_of_run (hcapacity : 0 < capacity)
    (hnew : SlabPool.new slotSize capacity = some pool)
    (hlt : slotSize.toNat * capacity.toNat < 2 ^ 64) {calls : List Call}
    (hrun : (Owner.new pool).run calls = some o) {handle : PoolHandle} (hheld : handle ∈ o.held)
    : o.pool.range handle = some (handle.toNat * slotSize.toNat, slotSize.toNat) := by
  obtain ⟨hcap, rfl, hlength⟩ := fixed_of_new hnew hrun
  obtain ⟨free, hrep⟩ := represents_of_run hcapacity hnew hrun
  have hslot : handle.toNat < capacity.toNat := by
    rw [← hcap]
    apply hrep.held_lt handle hheld
  have hle : (handle.toNat + 1) * o.pool.slotSize.toNat
      ≤ capacity.toNat * o.pool.slotSize.toNat :=
    Nat.mul_le_mul_right _ hslot
  rw [Nat.succ_mul, Nat.mul_comm capacity.toNat] at hle
  rw [← SlabPool.stride_length, Stride.length_of_lt hlt] at hlength
  rw [SlabPool.range_eq (by omega), Stride.offset_of_lt hlt hslot, if_pos (by omega)]

theorem get_getMut_of_run (hcapacity : 0 < capacity)
    (hnew : SlabPool.new slotSize capacity = some pool) (hfits : Fits slotSize capacity)
    {calls : List Call} (hrun : (Owner.new pool).run calls = some o) {a b : PoolHandle}
    (ha : a ∈ o.held) (hb : b ∈ o.held) (hab : a ≠ b) {write : Bytes → Bytes} {pool' : SlabPool}
    (h : o.pool.getMut a write = some pool')
    : pool'.get b = o.pool.get b := by
  apply SlabPool.get_getMut _ h
  apply slicesApart_of_run hcapacity hnew hfits hrun a ha b hb hab

theorem exists_new (h : (slotSize * capacity.toUInt64).toNat ≤ isizeMax)
    : ∃ pool, SlabPool.new slotSize capacity = some pool := by
  simp only [SlabPool.new]
  rw [if_pos h]
  exact ⟨_, rfl⟩

theorem exists_overlap (hcapacity : 0 < capacity) (hfits : ¬Fits slotSize capacity)
    : ∃ pool calls o, SlabPool.new slotSize capacity = some pool
        ∧ (Owner.new pool).run calls = some o ∧ ¬o.SlicesApart := by
  simp only [Fits, not_or, Nat.not_lt] at hfits
  obtain ⟨hover, hwithin, hsize⟩ := hfits
  obtain ⟨pool, hnew⟩ := exists_new hsize
  obtain ⟨calls, o, hrun, hall⟩ := exists_run_all hcapacity hnew
  obtain ⟨hcap, rfl, hlength⟩ := fixed_of_new hnew hrun
  refine ⟨pool, calls, o, hnew, hrun, ?_⟩
  intro hapart
  have hstride : ¬(o.pool.slotSize.toNat * capacity.toNat < 2 ^ 64
      ∨ Stride.length o.pool.slotSize.toNat (2 ^ 64) capacity.toNat < o.pool.slotSize.toNat) := by
    rw [SlabPool.stride_length]
    rw [UInt64.lt_iff_toNat_lt] at hwithin
    omega
  apply hstride
  apply (Stride.apart_iff o.pool.slotSize.toNat_lt).mp
  intro a b ha hb hab i hcovers
  have hholds {n : Nat} (hn : n < capacity.toNat) : UInt32.ofNat n ∈ o.held := by
    apply hall
    rw [UInt32.lt_iff_toNat_lt, Machine.toNat_ofNat hn]
    exact hn
  have hcov (handle : PoolHandle) := @SlabPool.covers_iff o.pool handle i capacity hlength
  have hne : UInt32.ofNat a ≠ UInt32.ofNat b := by
    intro heq
    apply hab
    rw [← Machine.toNat_ofNat ha, ← Machine.toNat_ofNat hb, heq]
  have := hapart _ (hholds ha) _ (hholds hb) hne i
  rw [hcov, hcov, Machine.toNat_ofNat ha, Machine.toNat_ofNat hb] at this
  apply this hcovers

theorem representation_invariant_iff (slotSize : UInt64) (capacity : UInt32)
    (hcapacity : 0 < capacity)
    : (∀ pool calls o, SlabPool.new slotSize capacity = some pool →
          (Owner.new pool).run calls = some o → o.Sound)
        ∧ ((∀ pool calls o, SlabPool.new slotSize capacity = some pool →
              (Owner.new pool).run calls = some o → o.Sound ∧ o.SlicesApart)
            ↔ Fits slotSize capacity) := by
  constructor
  . intro pool calls o hnew hrun
    apply sound_of_run hcapacity hnew hrun
  constructor
  . intro h
    by_contra hnot
    obtain ⟨pool, calls, o, hnew, hrun, hoverlap⟩ := exists_overlap hcapacity hnot
    apply hoverlap
    apply (h pool calls o hnew hrun).2
  . intro hfits pool calls o hnew hrun
    constructor
    . apply sound_of_run hcapacity hnew hrun
    . apply slicesApart_of_run hcapacity hnew hfits hrun

theorem representation_invariant_iff_sixteen
    : 0 < (16 : UInt32)
        ∧ ∀ pool calls o, SlabPool.new 256 16 = some pool →
            (Owner.new pool).run calls = some o → o.Sound ∧ o.SlicesApart := by
  have hcapacity : 0 < (16 : UInt32) := by decide
  have hfits : Fits 256 16 := by
    left
    decide
  exact ⟨hcapacity, (representation_invariant_iff 256 16 hcapacity).2.mpr hfits⟩

-- The product is 2 ^ 64 + 2 ^ 33, so that the last slot has the offset of the first one.
theorem not_representation_invariant
    : ∃ pool calls o, SlabPool.new 8589934592 2147483649 = some pool
        ∧ (Owner.new pool).run calls = some o ∧ 0 ∈ o.held ∧ 2147483648 ∈ o.held
        ∧ o.pool.range 0 = some (0, 8589934592)
        ∧ o.pool.range 2147483648 = some (0, 8589934592)
        ∧ ¬(o.Sound ∧ o.SlicesApart) := by
  have htotal : ((8589934592 : UInt64) * (2147483649 : UInt32).toUInt64).toNat = 8589934592 := by
    decide
  obtain ⟨pool, hnew⟩ := @exists_new 8589934592 2147483649 (by rw [htotal]; decide)
  obtain ⟨calls, o, hrun, hall⟩ := exists_run_all (by decide) hnew
  obtain ⟨_, hsize, hlength⟩ := fixed_of_new hnew hrun
  rw [htotal] at hlength
  have hrange (handle : PoolHandle) (h : Stride.offset 8589934592 (2 ^ 64) handle.toNat = 0)
      : o.pool.range handle = some (0, 8589934592) := by
    have hsize' : o.pool.slotSize.toNat = 8589934592 := by
      rw [hsize]
      rfl
    rw [SlabPool.range_eq (by omega), hsize', hlength, h]
    rfl
  have hfirst := hrange 0 (by decide)
  have hlast := hrange 2147483648 (by decide)
  have hheld := hall 0 (by decide)
  have hheld' := hall 2147483648 (by decide)
  refine ⟨pool, calls, o, hnew, hrun, hheld, hheld', hfirst, hlast, ?_⟩
  intro h
  apply h.2 0 hheld 2147483648 hheld' (by decide) 0
  . exact ⟨0, 8589934592, hfirst, by decide, by decide⟩
  . exact ⟨0, 8589934592, hlast, by decide, by decide⟩

end Owner

end Velocitas
