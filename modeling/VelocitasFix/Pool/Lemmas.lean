import VelocitasFix.Data.Chain
import VelocitasFix.Data.Stock
import VelocitasFix.Pool.Impl
import Mathlib.Logic.Relation

/-!
This module contains the connection of the shared pool with a stock of slots: as long as `allocate`
never swaps in a stale link, every step of a thread is a move of the stock or no move at all.
-/

namespace Velocitas

namespace Pc

-- The slot that a thread has given up already but not yet linked into the free list.
def slots : Pc → List PoolHandle
  | .deallocate slot => [slot]
  | .deallocateHead slot _ => [slot]
  | .deallocateNext slot _ => [slot]
  | _ => []

def Consistent (link : PoolHandle → Option PoolHandle) : Pc → Prop
  | .allocateHead head => head ≠ END_OF_LIST
  | .allocateNext head _ => head ≠ END_OF_LIST
  | .deallocateNext slot head => link slot = some head
  | _ => True

end Pc

namespace BufferPool

variable {pool pool' : BufferPool} {slot next : PoolHandle}

theorem link_of_set_self (h : pool'.freeList = pool.freeList.set slot.toNat next)
    (hslot : slot.toNat < pool.freeList.length)
    : pool'.link slot = some next := by
  simp [link, h, hslot]

theorem link_of_set_of_ne (h : pool'.freeList = pool.freeList.set slot.toNat next)
    {a : PoolHandle} (hne : a ≠ slot)
    : pool'.link a = pool.link a := by
  have hne' : slot.toNat ≠ a.toNat := by
    intro heq
    apply hne
    apply UInt32.toNat_inj.mp heq.symm
  simp [link, h, List.getElem?_set_ne hne']

end BufferPool

def BufferPool.IsSlot (pool : BufferPool) (slot : PoolHandle) : Prop :=
  slot ≠ END_OF_LIST ∧ slot.toNat < pool.freeList.length

namespace Machine

variable {Tid : Type} [DecidableEq Tid]

section Fields

variable (m : Machine Tid) (t : Tid)

@[simp]
theorem goto_pool (pc : Pc) : (m.goto t pc).pool = m.pool := rfl

@[simp]
theorem goto_held (pc : Pc) : (m.goto t pc).held = m.held := rfl

@[simp]
theorem goto_pc (pc : Pc) : (m.goto t pc).pc = Function.update m.pc t pc := rfl

@[simp]
theorem hold_pool (slots : List PoolHandle) : (m.hold t slots).pool = m.pool := rfl

@[simp]
theorem hold_held (slots : List PoolHandle)
    : (m.hold t slots).held = Function.update m.held t slots := rfl

@[simp]
theorem hold_pc (slots : List PoolHandle) : (m.hold t slots).pc = m.pc := rfl

variable (slot next : PoolHandle)

omit [DecidableEq Tid]

@[simp]
theorem storeHead_freeHead : (m.storeHead next).pool.freeHead = next := rfl

@[simp]
theorem storeHead_freeList : (m.storeHead next).pool.freeList = m.pool.freeList := rfl

@[simp]
theorem storeHead_link : (m.storeHead next).pool.link = m.pool.link := rfl

@[simp]
theorem storeHead_held : (m.storeHead next).held = m.held := rfl

@[simp]
theorem storeHead_pc : (m.storeHead next).pc = m.pc := rfl

@[simp]
theorem storeLink_freeHead : (m.storeLink slot next).pool.freeHead = m.pool.freeHead := rfl

@[simp]
theorem storeLink_held : (m.storeLink slot next).held = m.held := rfl

@[simp]
theorem storeLink_pc : (m.storeLink slot next).pc = m.pc := rfl

@[simp]
theorem length_storeLink
    : (m.storeLink slot next).pool.freeList.length = m.pool.freeList.length := by
  simp [storeLink]

theorem storeLink_link_self (h : slot.toNat < m.pool.freeList.length)
    : (m.storeLink slot next).pool.link slot = some next :=
  BufferPool.link_of_set_self rfl h

theorem storeLink_link_of_ne {a : PoolHandle} (h : a ≠ slot)
    : (m.storeLink slot next).pool.link a = m.pool.link a :=
  BufferPool.link_of_set_of_ne rfl h

theorem consistent_storeLink {m : Machine Tid} {slot : PoolHandle} {pc : Pc}
    (h : pc.Consistent m.pool.link) (hslot : slot ∉ pc.slots)
    : pc.Consistent (m.storeLink slot next).pool.link := by
  cases pc with
  | deallocateNext slot' head =>
    have hne : slot' ≠ slot := by
      intro heq
      apply hslot
      rw [heq]
      apply List.mem_singleton_self
    apply (m.storeLink_link_of_ne slot next hne).trans h
  | _ => exact h

end Fields

inductive Stepped (m : Machine Tid) (t : Tid) : Action → Machine Tid → Prop where
  | allocate (hpc : m.pc t = .idle) : Stepped m t .allocate (m.goto t .allocate)
  | deallocate {slot : PoolHandle} (hpc : m.pc t = .idle) (hheld : slot ∈ m.held t)
    : Stepped m t (.deallocate slot)
        ((m.hold t ((m.held t).erase slot)).goto t (.deallocate slot))
  | exhausted (hpc : m.pc t = .allocate) (hhead : m.pool.freeHead = END_OF_LIST)
    : Stepped m t .advance (m.goto t .idle)
  | loadHead (hpc : m.pc t = .allocate) (hhead : m.pool.freeHead ≠ END_OF_LIST)
    : Stepped m t .advance (m.goto t (.allocateHead m.pool.freeHead))
  | loadNext {head next : PoolHandle} (hpc : m.pc t = .allocateHead head)
    (hlink : m.pool.link head = some next)
    : Stepped m t .advance (m.goto t (.allocateNext head next))
  | take {head next : PoolHandle} (hpc : m.pc t = .allocateNext head next)
    (hhead : m.pool.freeHead = head)
    : Stepped m t .advance (((m.storeHead next).hold t (head :: m.held t)).goto t .idle)
  | retryAllocate {action : Action} {head next : PoolHandle}
    (hpc : m.pc t = .allocateNext head next)
    : Stepped m t action (m.goto t .allocate)
  | loadFree {slot : PoolHandle} (hpc : m.pc t = .deallocate slot)
    : Stepped m t .advance (m.goto t (.deallocateHead slot m.pool.freeHead))
  | storeNext {slot head : PoolHandle} (hpc : m.pc t = .deallocateHead slot head)
    (hslot : slot.toNat < m.pool.freeList.length)
    : Stepped m t .advance ((m.storeLink slot head).goto t (.deallocateNext slot head))
  | give {slot head : PoolHandle} (hpc : m.pc t = .deallocateNext slot head)
    (hhead : m.pool.freeHead = head)
    : Stepped m t .advance ((m.storeHead slot).goto t .idle)
  | retryDeallocate {action : Action} {slot head : PoolHandle}
    (hpc : m.pc t = .deallocateNext slot head)
    : Stepped m t action (m.goto t (.deallocate slot))

theorem stepped_of_step {m m' : Machine Tid} {t : Tid} {action : Action}
    (h : m.step t action = some m')
    : m.Stepped t action m' := by
  unfold step at h
  split at h
  case h_1 hpc =>
    injection h with h
    subst h
    apply Stepped.allocate hpc
  case h_2 slot hpc =>
    split at h
    case isTrue hheld =>
      injection h with h
      subst h
      apply Stepped.deallocate hpc hheld
    case isFalse => contradiction
  case h_3 hpc =>
    split at h
    case isTrue hhead =>
      injection h with h
      subst h
      apply Stepped.exhausted hpc hhead
    case isFalse hhead =>
      injection h with h
      subst h
      apply Stepped.loadHead hpc hhead
  case h_4 head hpc =>
    split at h
    case h_1 next hlink =>
      injection h with h
      subst h
      apply Stepped.loadNext hpc hlink
    case h_2 => contradiction
  case h_5 head next hpc =>
    split at h
    case isTrue hhead =>
      injection h with h
      subst h
      apply Stepped.take hpc hhead
    case isFalse =>
      injection h with h
      subst h
      apply Stepped.retryAllocate hpc
  case h_6 hpc =>
    injection h with h
    subst h
    apply Stepped.retryAllocate hpc
  case h_7 slot hpc =>
    injection h with h
    subst h
    apply Stepped.loadFree hpc
  case h_8 slot head hpc =>
    split at h
    case isTrue hslot =>
      injection h with h
      subst h
      apply Stepped.storeNext hpc hslot
    case isFalse => contradiction
  case h_9 slot head hpc =>
    split at h
    case isTrue hhead =>
      injection h with h
      subst h
      apply Stepped.give hpc hhead
    case isFalse =>
      injection h with h
      subst h
      apply Stepped.retryDeallocate hpc
  case h_10 hpc =>
    injection h with h
    subst h
    apply Stepped.retryDeallocate hpc
  case h_11 => contradiction

theorem Stepped.length_freeList {m m' : Machine Tid} {t : Tid} {action : Action}
    (h : m.Stepped t action m')
    : m'.pool.freeList.length = m.pool.freeList.length := by
  cases h with
  | storeNext _ _ => apply length_storeLink
  | _ => rfl

-- The swap of `allocate` goes through only while the link that it loaded is the one of its slot.
def LinkFresh (m : Machine Tid) (t : Tid) (action : Action) : Prop :=
  ∀ head next, m.pc t = .allocateNext head next → action = .advance → m.pool.freeHead = head →
    m.pool.link head = some next

def Steps (ok : Machine Tid → Tid → Action → Prop) (m m' : Machine Tid) : Prop :=
  ∃ t action, ok m t action ∧ m.step t action = some m'

abbrev Reaches (ok : Machine Tid → Tid → Action → Prop) : Machine Tid → Machine Tid → Prop :=
  Relation.ReflTransGen (Steps ok)

theorem length_freeList_of_reaches {ok : Machine Tid → Tid → Action → Prop} {capacity : UInt32}
    {m : Machine Tid} (h : Reaches ok (new Tid capacity) m)
    : m.pool.freeList.length = capacity.toNat := by
  induction h with
  | refl => simp [new, BufferPool.new]
  | tail _ hstep ih =>
    obtain ⟨t, action, _, hsome⟩ := hstep
    rw [(stepped_of_step hsome).length_freeList, ih]

structure Represents (m : Machine Tid) (s : Stock Tid PoolHandle) : Prop where
  chain : Chain.IsChain m.pool.link END_OF_LIST m.pool.freeHead s.free
  owned : ∀ t, s.owned t = ↑(m.held t ++ (m.pc t).slots)
  node : ∀ t, ∀ slot ∈ s.owned t, m.pool.IsSlot slot
  consistent : ∀ t, (m.pc t).Consistent m.pool.link

namespace Represents

variable {m : Machine Tid} {s : Stock Tid PoolHandle} {t : Tid}

omit [DecidableEq Tid] in
theorem mem_owned (h : m.Represents s) {slot : PoolHandle}
    : slot ∈ s.owned t ↔ slot ∈ m.held t ∨ slot ∈ (m.pc t).slots := by
  rw [h.owned, Multiset.mem_coe, List.mem_append]

theorem consistent_update (h : m.Represents s) {pc : Pc} (hpc : pc.Consistent m.pool.link)
    : ∀ u, (Function.update m.pc t pc u).Consistent m.pool.link := by
  apply Stock.forall_update h.consistent hpc

theorem node_update (h : m.Represents s) {items : Multiset PoolHandle}
    (hitems : ∀ slot ∈ items, m.pool.IsSlot slot)
    : ∀ u, ∀ slot ∈ Function.update s.owned t items u, m.pool.IsSlot slot := by
  apply @Stock.forall_update _ _ _ _ (fun items => ∀ slot ∈ items, m.pool.IsSlot slot) h.node
    t _ hitems

theorem owned_update {held : Tid → List PoolHandle} {pcs : Tid → Pc}
    {owned : Tid → Multiset PoolHandle} {slots : List PoolHandle} {pc : Pc}
    {items : Multiset PoolHandle}
    (h : ∀ u, owned u = ↑(held u ++ (pcs u).slots)) (hitems : items = ↑(slots ++ pc.slots))
    : ∀ u, Function.update owned t items u
        = ↑(Function.update held t slots u ++ (Function.update pcs t pc u).slots) := by
  intro u
  by_cases hu : u = t
  . subst hu
    simp [hitems]
  . simp only [Function.update_of_ne hu]
    apply h

theorem goto (h : m.Represents s) {pc : Pc} (hslots : pc.slots = (m.pc t).slots)
    (hpc : pc.Consistent m.pool.link)
    : (m.goto t pc).Represents s where
  chain := h.chain
  owned := by
    have := @owned_update _ _ t _ _ _ (m.held t) pc (s.owned t) h.owned
      (by rw [hslots]; apply h.owned)
    simpa only [Function.update_eq_self, goto_held, goto_pc] using this
  node := h.node
  consistent := h.consistent_update hpc

theorem deallocate (h : m.Represents s) {slot : PoolHandle} (hpc : m.pc t = .idle)
    (hheld : slot ∈ m.held t)
    : ((m.hold t ((m.held t).erase slot)).goto t (.deallocate slot)).Represents s where
  chain := h.chain
  owned := by
    have hperm : (m.held t).Perm ((m.held t).erase slot ++ [slot]) := by
      apply (List.perm_cons_erase hheld).trans
      apply List.perm_append_singleton _ _ |>.symm
    have := @owned_update _ _ t _ _ _ ((m.held t).erase slot) (.deallocate slot) (s.owned t) h.owned
      (by
        rw [h.owned, hpc, Multiset.coe_eq_coe]
        simpa [Pc.slots] using hperm)
    simpa only [Function.update_eq_self, goto_held, goto_pc, hold_held, hold_pc] using this
  node := h.node
  consistent := h.consistent_update trivial

-- A slot that is being linked in is owned by the thread, so no other link or chain is disturbed.
theorem storeNext (h : m.Represents s) {slot head : PoolHandle}
    (hpc : m.pc t = .deallocateHead slot head) (hslot : slot.toNat < m.pool.freeList.length)
    : ((m.storeLink slot head).goto t (.deallocateNext slot head)).Represents s := by
  have hmem : slot ∈ s.owned t := by
    rw [h.mem_owned, hpc]
    right
    apply List.mem_singleton_self
  constructor
  case chain =>
    apply h.chain.congr
    intro a ha
    apply storeLink_link_of_ne
    intro heq
    rw [heq] at ha
    apply s.apart t slot hmem ha
  case owned =>
    have := @owned_update _ _ t _ _ _ (m.held t) (.deallocateNext slot head) (s.owned t) h.owned
      (by rw [h.owned, hpc]; rfl)
    simpa only [Function.update_eq_self, goto_held, goto_pc, storeLink_held, storeLink_pc] using this
  case node =>
    intro u a ha
    unfold BufferPool.IsSlot
    rw [goto_pool, length_storeLink]
    apply h.node u a ha
  case consistent =>
    rw [goto_pool, goto_pc, storeLink_pc]
    let link := (m.storeLink slot head).pool.link
    apply (Function.forall_update_iff m.pc fun _ pc => pc.Consistent link).mpr
    constructor
    . apply storeLink_link_self _ _ _ hslot
    . intro u hu
      apply consistent_storeLink _ (h.consistent u)
      intro hmem'
      apply s.disjoint t u hu.symm slot hmem
      rw [h.mem_owned]
      right
      exact hmem'

theorem take (h : m.Represents s) {head next : PoolHandle} (hpc : m.pc t = .allocateNext head next)
    (hhead : m.pool.freeHead = head) (hlink : m.pool.link head = some next)
    : ∃ s', Stock.Move s s'
        ∧ (((m.storeHead next).hold t (head :: m.held t)).goto t .idle).Represents s' := by
  have hne : head ≠ END_OF_LIST := by
    have := h.consistent t
    rw [hpc] at this
    exact this
  have hchain := h.chain
  rw [hhead] at hchain
  obtain ⟨next', rest, hfree, hlink', hrest⟩ := hchain.eq_cons hne
  rw [hlink, Option.some.injEq] at hlink'
  subst hlink'
  refine ⟨s.take t hfree, Stock.Move.take s t hfree, ?_⟩
  constructor
  case chain => exact hrest
  case owned =>
    have := @owned_update _ _ t _ _ _ (head :: m.held t) .idle (head ::ₘ s.owned t) h.owned
      (by rw [h.owned, hpc]; rfl)
    exact this
  case node =>
    apply h.node_update
    intro slot hslot
    cases Multiset.mem_cons.mp hslot with
    | inl heq =>
      rw [heq]
      exact ⟨hne, (List.getElem?_eq_some_iff.mp hlink).1⟩
    | inr hslot => apply h.node t slot hslot
  case consistent => apply @consistent_update _ _ _ _ _ h .idle trivial

theorem give (h : m.Represents s) {slot head : PoolHandle} (hpc : m.pc t = .deallocateNext slot head)
    (hhead : m.pool.freeHead = head)
    : ∃ s', Stock.Move s s' ∧ ((m.storeHead slot).goto t .idle).Represents s' := by
  have howned : s.owned t = slot ::ₘ ↑(m.held t) := by
    rw [h.owned, hpc]
    change (↑(m.held t ++ [slot]) : Multiset PoolHandle) = ↑(slot :: m.held t)
    rw [Multiset.coe_eq_coe]
    apply List.perm_append_singleton
  have hmem : slot ∈ s.owned t := by
    rw [howned]
    apply Multiset.mem_cons_self
  have hlink : m.pool.link slot = some head := by
    have := h.consistent t
    rw [hpc] at this
    exact this
  refine ⟨s.give t hmem, Stock.Move.give s t hmem, ?_⟩
  constructor
  case chain =>
    apply Chain.IsChain.cons (h.node t slot hmem).1 hlink
    rw [← hhead]
    exact h.chain
  case owned =>
    have := @owned_update _ _ t _ _ _ (m.held t) .idle ((s.owned t).erase slot) h.owned
      (by rw [howned, Multiset.erase_cons_head]; simp [Pc.slots])
    rw [Function.update_eq_self] at this
    exact this
  case node =>
    apply h.node_update
    intro a ha
    apply h.node t a (Multiset.mem_of_mem_erase ha)
  case consistent => apply @consistent_update _ _ _ _ _ h .idle trivial

-- Every step of a thread is a move of the stock or leaves it as it is.
theorem step (h : m.Represents s) {m' : Machine Tid} {action : Action}
    (hfresh : m.LinkFresh t action) (hstep : m.Stepped t action m')
    : ∃ s', Relation.ReflGen Stock.Move s s' ∧ m'.Represents s' := by
  cases hstep with
  | allocate hpc =>
    refine ⟨s, .refl, h.goto ?_ trivial⟩
    rw [hpc]
    rfl
  | deallocate hpc hheld => exact ⟨s, .refl, h.deallocate hpc hheld⟩
  | exhausted hpc _ =>
    refine ⟨s, .refl, h.goto ?_ trivial⟩
    rw [hpc]
    rfl
  | loadHead hpc hhead =>
    refine ⟨s, .refl, h.goto ?_ hhead⟩
    rw [hpc]
    rfl
  | loadNext hpc hlink =>
    refine ⟨s, .refl, h.goto ?_ ?_⟩
    . rw [hpc]
      rfl
    . have := h.consistent t
      rw [hpc] at this
      exact this
  | take hpc hhead =>
    obtain ⟨s', hmove, h'⟩ := h.take hpc hhead (hfresh _ _ hpc rfl hhead)
    exact ⟨s', .single hmove, h'⟩
  | retryAllocate hpc =>
    refine ⟨s, .refl, h.goto ?_ trivial⟩
    rw [hpc]
    rfl
  | loadFree hpc =>
    refine ⟨s, .refl, h.goto ?_ trivial⟩
    rw [hpc]
    rfl
  | storeNext hpc hslot => exact ⟨s, .refl, h.storeNext hpc hslot⟩
  | give hpc hhead =>
    obtain ⟨s', hmove, h'⟩ := h.give hpc hhead
    exact ⟨s', .single hmove, h'⟩
  | retryDeallocate hpc =>
    refine ⟨s, .refl, h.goto ?_ trivial⟩
    rw [hpc]
    rfl

end Represents

section New

def slotsFrom (start count : Nat) : List PoolHandle :=
  (List.range' start count).map UInt32.ofNat

variable {capacity : UInt32}

theorem toNat_ofNat {i : Nat} (h : i < capacity.toNat) : (UInt32.ofNat i).toNat = i := by
  apply UInt32.toNat_ofNat_of_lt
  apply h.trans capacity.toNat_lt

theorem new_link {i : Nat} (h : i < capacity.toNat)
    : (BufferPool.new capacity).link (UInt32.ofNat i)
        = some (if i + 1 < capacity.toNat then UInt32.ofNat (i + 1) else END_OF_LIST) := by
  simp [BufferPool.link, BufferPool.new, toNat_ofNat h, h]

theorem ofNat_ne_end {i : Nat} (h : i < capacity.toNat) : UInt32.ofNat i ≠ END_OF_LIST := by
  intro heq
  have hlt := capacity.toNat_lt
  have := congrArg UInt32.toNat heq
  rw [toNat_ofNat h] at this
  change i = 4294967295 at this
  omega

-- The induction is on the number of slots from `i` on.
theorem isChain_slotsFrom {count i : Nat} (h : i + count + 1 = capacity.toNat)
    : Chain.IsChain (BufferPool.new capacity).link END_OF_LIST (UInt32.ofNat i)
        (slotsFrom i (count + 1)) := by
  induction count generalizing i with
  | zero =>
    apply Chain.IsChain.cons (@ofNat_ne_end capacity i (by omega)) (new_link (by omega))
    rw [if_neg (by omega)]
    apply Chain.IsChain.nil
  | succ count ih =>
    apply Chain.IsChain.cons (@ofNat_ne_end capacity i (by omega)) (new_link (by omega))
    rw [if_pos (by omega)]
    apply ih
    omega

theorem nodup_slotsFrom {count i : Nat} (h : i + count ≤ capacity.toNat)
    : (slotsFrom i count).Nodup := by
  apply List.Nodup.map_on _ List.nodup_range'
  intro a ha b hb heq
  rw [List.mem_range'_1] at ha hb
  rw [← @toNat_ofNat capacity a (by omega), ← @toNat_ofNat capacity b (by omega), heq]

def allFree (Tid : Type) (capacity : UInt32) : Stock Tid PoolHandle :=
  Stock.full (slotsFrom 0 capacity.toNat) (@nodup_slotsFrom capacity _ _ (by omega))

omit [DecidableEq Tid] in
theorem new_represents (hcapacity : 0 < capacity)
    : (Machine.new Tid capacity).Represents (allFree Tid capacity) where
  chain := by
    have hpos : 0 < capacity.toNat := hcapacity
    have := isChain_slotsFrom (show 0 + (capacity.toNat - 1) + 1 = capacity.toNat by omega)
    rw [Nat.sub_add_cancel hpos] at this
    exact this
  owned := by
    intro t
    rfl
  node := by
    intro t slot hslot
    contradiction
  consistent := by
    intro t
    trivial

end New

-- Any run without a stale swap runs a stock along: the pool refines it.
theorem reaches_represents {capacity : UInt32} (hcapacity : 0 < capacity) {m : Machine Tid}
    (h : Reaches LinkFresh (new Tid capacity) m)
    : ∃ s, Relation.ReflTransGen Stock.Move (allFree Tid capacity) s ∧ m.Represents s := by
  induction h with
  | refl => exact ⟨_, .refl, new_represents hcapacity⟩
  | tail _ hstep ih =>
    obtain ⟨s, hmoves, hrep⟩ := ih
    obtain ⟨t, action, hfresh, hstep⟩ := hstep
    obtain ⟨s', hmove, hrep'⟩ := hrep.step hfresh (stepped_of_step hstep)
    exact ⟨s', hmoves.trans hmove.to_reflTransGen, hrep'⟩

end Machine

end Velocitas
