import VelocitasFix.Pool.Lemmas

/-!
This module contains the safety of the shared pool: which runs keep every slot with one owner, and
the run of two threads in which `allocate` swaps in a stale link.
-/

namespace Velocitas

namespace Pc

-- The link that `allocate` loaded is still the one of its slot.
def Current (link : PoolHandle → Option PoolHandle) : Pc → Prop
  | .allocateNext head next => link head = some next
  | _ => True

def AtEnd : Pc → Prop
  | .allocateNext _ next => next = END_OF_LIST
  | .deallocateHead _ head => head = END_OF_LIST
  | _ => True

end Pc

namespace Machine

variable {Tid : Type}

def Reachable (m : Machine Tid) (slot : PoolHandle) : Prop :=
  Chain.Reachable m.pool.link END_OF_LIST m.pool.freeHead slot

structure Safe (m : Machine Tid) : Prop where
  nodup : ∀ t, (m.held t).Nodup
  disjoint : ∀ t u, t ≠ u → ∀ slot ∈ m.held t, slot ∉ m.held u
  apart : ∀ t, ∀ slot ∈ m.held t, ¬m.Reachable slot

def AnyStep (_ : Machine Tid) (_ : Tid) (_ : Action) : Prop := True

variable [DecidableEq Tid]

omit [DecidableEq Tid] in
theorem Represents.safe {m : Machine Tid} {s : Stock Tid PoolHandle} (h : m.Represents s)
    : m.Safe := by
  have howned : ∀ {t slot}, slot ∈ m.held t → slot ∈ s.owned t := by
    intro t slot hslot
    apply h.mem_owned.mpr (.inl hslot)
  constructor
  case nodup =>
    intro t
    have := s.nodup_owned t
    rw [h.owned, Multiset.coe_nodup] at this
    apply this.of_append_left
  case disjoint =>
    intro t u hne slot ht hu
    apply s.disjoint t u hne slot (howned ht) (howned hu)
  case apart =>
    intro t slot hslot hreach
    apply s.apart t slot (howned hslot)
    apply h.chain.mem_of_reachable hreach

theorem safe_of_reaches {capacity : UInt32} (hcapacity : 0 < capacity) {m : Machine Tid}
    (h : Reaches LinkFresh (new Tid capacity) m)
    : m.Safe := by
  obtain ⟨s, _, hrep⟩ := reaches_represents hcapacity h
  apply hrep.safe

-- No slot is lost: each one is reachable, held, or on its way back.
theorem has_of_reaches {capacity : UInt32} (hcapacity : 0 < capacity) {m : Machine Tid}
    (h : Reaches LinkFresh (new Tid capacity) m) {i : Nat} (hi : i < capacity.toNat)
    : m.Reachable (UInt32.ofNat i)
        ∨ ∃ t, UInt32.ofNat i ∈ m.held t ∨ UInt32.ofNat i ∈ (m.pc t).slots := by
  obtain ⟨s, hmoves, hrep⟩ := reaches_represents hcapacity h
  have hfree : (allFree Tid capacity).Has (UInt32.ofNat i) := by
    left
    apply List.mem_map_of_mem
    rw [List.mem_range'_1]
    omega
  have hhas : s.Has (UInt32.ofNat i) := by
    clear hrep h
    induction hmoves with
    | refl => exact hfree
    | tail _ hmove ih => apply hmove.has ih
  cases hhas with
  | inl hmem =>
    left
    apply hrep.chain.reachable_of_mem Chain.Reachable.head _ hmem
  | inr howned =>
    obtain ⟨t, hmem⟩ := howned
    right
    exact ⟨t, hrep.mem_owned.mp hmem⟩

section Invariant

variable {capacity : UInt32} {I : Machine Tid → Prop}

-- An invariant under which no swap is stale makes every run one without a stale swap.
theorem reaches_linkFresh (hcapacity : 0 < capacity) (hnew : I (new Tid capacity))
    (hfresh : ∀ m s, m.Represents s → I m → ∀ t action, m.LinkFresh t action)
    (hstep : ∀ m s, m.Represents s → I m → ∀ t action m', m.Stepped t action m' → I m')
    {m : Machine Tid} (h : Reaches AnyStep (new Tid capacity) m)
    : Reaches LinkFresh (new Tid capacity) m ∧ I m := by
  induction h with
  | refl => exact ⟨.refl, hnew⟩
  | tail _ hsteps ih =>
    obtain ⟨hreach, hI⟩ := ih
    obtain ⟨t, action, _, hsome⟩ := hsteps
    obtain ⟨s, _, hrep⟩ := reaches_represents hcapacity hreach
    constructor
    . apply hreach.tail
      exact ⟨t, action, hfresh _ s hrep hI t action, hsome⟩
    . apply hstep _ s hrep hI t action
      apply stepped_of_step hsome

end Invariant

section Solo

def Solo (m : Machine Tid) : Prop := ∀ t, Pc.Current m.pool.link (m.pc t)

-- A thread that runs alone finds every link as it loaded it.
theorem Solo.step [Subsingleton Tid] {m m' : Machine Tid} {t : Tid} {action : Action}
    (h : m.Stepped t action m')
    : m'.Solo := by
  intro u
  have hu : u = t := Subsingleton.elim u t
  subst hu
  cases h with
  | loadNext _ hlink => simpa [Pc.Current] using hlink
  | _ => simp [Pc.Current]

omit [DecidableEq Tid] in
theorem Solo.linkFresh {m : Machine Tid} (h : m.Solo) (t : Tid) (action : Action)
    : m.LinkFresh t action := by
  intro head next hpc _ _
  have := h t
  rw [hpc] at this
  exact this

theorem Solo.reaches [Subsingleton Tid] {capacity : UInt32} (hcapacity : 0 < capacity)
    {m : Machine Tid} (h : Reaches AnyStep (new Tid capacity) m)
    : Reaches LinkFresh (new Tid capacity) m := by
  apply (@reaches_linkFresh _ _ _ Solo hcapacity _ _ _ _ h).1
  . intro t
    trivial
  . intro m s _ hsolo
    apply hsolo.linkFresh
  . intro m s _ _ t action m' hstep
    apply Solo.step hstep

end Solo

section Single

-- With one slot there is only one value that a link can have.
structure Single (m : Machine Tid) : Prop where
  length : m.pool.freeList.length = 1
  links : ∀ next ∈ m.pool.freeList, next = END_OF_LIST
  pc : ∀ t, Pc.AtEnd (m.pc t)

namespace Single

variable {m : Machine Tid} {s : Stock Tid PoolHandle} {t : Tid} {action : Action}

omit [DecidableEq Tid] in
theorem link (h : m.Single) {slot next : PoolHandle} (hlink : m.pool.link slot = some next)
    : next = END_OF_LIST := by
  apply h.links
  apply List.mem_of_getElem? hlink

omit [DecidableEq Tid] in
-- The slot that a thread gives back is the only one, so the free list is empty.
theorem freeHead (h : m.Single) (hrep : m.Represents s) {slot : PoolHandle}
    (hpc : m.pc t = .deallocate slot)
    : m.pool.freeHead = END_OF_LIST := by
  by_contra hne
  have hmem : slot ∈ s.owned t := by
    rw [hrep.mem_owned, hpc]
    right
    apply List.mem_singleton_self
  obtain ⟨next, rest, hfree, hlink, _⟩ := hrep.chain.eq_cons hne
  have hslot := (hrep.node t slot hmem).2
  have hhead := (List.getElem?_eq_some_iff.mp hlink).1
  rw [h.length] at hslot hhead
  have heq : slot = m.pool.freeHead := by
    apply UInt32.toNat_inj.mp
    omega
  apply s.apart t slot hmem
  rw [hfree, heq]
  apply List.mem_cons_self

theorem goto (h : m.Single) {pc : Pc} (hpc : pc.AtEnd) : (m.goto t pc).Single where
  length := h.length
  links := h.links
  pc := Stock.forall_update h.pc hpc

theorem step (h : m.Single) (hrep : m.Represents s) {m' : Machine Tid}
    (hstep : m.Stepped t action m')
    : m'.Single := by
  cases hstep with
  | allocate _ => exact h.goto trivial
  | deallocate _ _ => exact ⟨h.length, h.links, Stock.forall_update h.pc trivial⟩
  | exhausted _ _ => exact h.goto trivial
  | loadHead _ _ => exact h.goto trivial
  | loadNext _ hlink => exact h.goto (h.link hlink)
  | take _ _ => exact ⟨h.length, h.links, Stock.forall_update h.pc trivial⟩
  | retryAllocate _ => exact h.goto trivial
  | loadFree hpc => exact h.goto (h.freeHead hrep hpc)
  | @storeNext slot head hpc hslot =>
    have hhead := h.pc t
    rw [hpc] at hhead
    constructor
    case length =>
      rw [goto_pool, length_storeLink]
      exact h.length
    case links =>
      intro next hnext
      cases List.mem_or_eq_of_mem_set hnext with
      | inl hmem => apply h.links _ hmem
      | inr heq =>
        rw [heq]
        exact hhead
    case pc => exact Stock.forall_update h.pc trivial
  | give _ _ => exact ⟨h.length, h.links, Stock.forall_update h.pc trivial⟩
  | retryDeallocate _ => exact h.goto trivial

omit [DecidableEq Tid] in
theorem linkFresh (h : m.Single) (hrep : m.Represents s) (t : Tid) (action : Action)
    : m.LinkFresh t action := by
  intro head next hpc _ hhead
  have hnext := h.pc t
  have hne := hrep.consistent t
  rw [hpc] at hnext hne
  rw [← hhead] at hne
  obtain ⟨next', _, _, hlink, _⟩ := hrep.chain.eq_cons hne
  rw [← hhead, hlink, h.link hlink, show next = END_OF_LIST from hnext]

omit [DecidableEq Tid] in
theorem new : (Machine.new Tid 1).Single where
  length := rfl
  links := by
    change ∀ next ∈ [END_OF_LIST], next = END_OF_LIST
    simp
  pc := by
    intro t
    trivial

end Single

end Single

section Alone

variable (m : Machine Tid) (t : Tid)

theorem run_append (schedule schedule' : List (Tid × Action)) {m m' : Machine Tid}
    (h : m.run schedule = some m')
    : m.run (schedule ++ schedule') = m'.run schedule' := by
  induction schedule generalizing m with
  | nil =>
    injection h with h
    rw [h]
    rfl
  | cons entry schedule ih =>
    simp only [run] at h
    cases hstep : m.step entry.1 entry.2 with
    | none => simp [hstep] at h
    | some m₁ =>
      rw [hstep] at h
      rw [List.cons_append]
      simp only [run, hstep]
      apply ih h

theorem reaches_run {schedule : List (Tid × Action)} {m m' : Machine Tid}
    (h : m.run schedule = some m')
    : Reaches AnyStep m m' := by
  induction schedule generalizing m with
  | nil =>
    injection h with h
    rw [h]
  | cons entry schedule ih =>
    simp only [run] at h
    cases hstep : m.step entry.1 entry.2 with
    | none => simp [hstep] at h
    | some m₁ =>
      rw [hstep] at h
      apply Relation.ReflTransGen.head _ (ih h)
      exact ⟨entry.1, entry.2, trivial, hstep⟩

def loading : List (Tid × Action) := [(t, .allocate), (t, .advance), (t, .advance)]

def allocating : List (Tid × Action) := loading t ++ [(t, .advance)]

def deallocating (slot : PoolHandle) : List (Tid × Action) :=
  [(t, .deallocate slot), (t, .advance), (t, .advance), (t, .advance)]

variable {m t}

theorem run_loading {head next : PoolHandle} (hpc : m.pc t = .idle) (hhead : m.pool.freeHead = head)
    (hne : head ≠ END_OF_LIST) (hlink : m.pool.link head = some next)
    : m.run (loading t) = some (m.goto t (.allocateNext head next)) := by
  simp [loading, run, step, goto, hpc, hhead, hne, hlink]

theorem run_allocating {head next : PoolHandle} (hpc : m.pc t = .idle)
    (hhead : m.pool.freeHead = head) (hne : head ≠ END_OF_LIST)
    (hlink : m.pool.link head = some next)
    : m.run (allocating t) = some ((m.storeHead next).hold t (head :: m.held t)) := by
  rw [allocating, run_append _ _ (run_loading hpc hhead hne hlink)]
  simp [run, step, goto, hold, storeHead, hhead, ← hpc]

theorem run_deallocating {slot : PoolHandle} (hpc : m.pc t = .idle) (hheld : slot ∈ m.held t)
    (hslot : slot.toNat < m.pool.freeList.length)
    : m.run (deallocating t slot) = some (((m.storeLink slot m.pool.freeHead).storeHead slot).hold t
        ((m.held t).erase slot)) := by
  simp [deallocating, run, step, goto, hold, storeHead, storeLink, hheld, hslot, hpc]

-- `a` loads slot 0 and its link 1 and waits; `b` takes slots 0 and 1 and gives slot 0 back.
def abaSchedule (a b : Tid) : List (Tid × Action) :=
  loading a ++ (allocating b ++ (allocating b ++ (deallocating b 0 ++ [(a, .advance)])))

theorem run_abaSchedule {capacity : UInt32} (hcapacity : 1 < capacity.toNat) {a b : Tid}
    (hab : a ≠ b)
    : ∃ m, (new Tid capacity).run (abaSchedule a b) = some m ∧ 1 ∈ m.held b ∧ m.Reachable 1 := by
  obtain ⟨next, hlink⟩ : ∃ next, (BufferPool.new capacity).link 1 = some next :=
    ⟨_, new_link hcapacity⟩
  have hlink₀ : (BufferPool.new capacity).link 0 = some 1 := by
    rw [show (0 : UInt32) = UInt32.ofNat 0 from rfl, new_link (by omega), if_pos hcapacity]
    rfl
  have hlength : (BufferPool.new capacity).freeList.length = capacity.toNat := by
    simp [BufferPool.new]
  let m₁ := (new Tid capacity).goto a (.allocateNext 0 1)
  have hpc : m₁.pc b = .idle := by
    rw [goto_pc, Function.update_of_ne hab.symm]
    rfl
  let m₂ := (m₁.storeHead 1).hold b [0]
  let m₃ := (m₂.storeHead next).hold b [1, 0]
  let m₄ := ((m₃.storeLink 0 next).storeHead 0).hold b [1]
  let m₅ := ((m₄.storeHead 1).hold a [0]).goto a .idle
  have h₁ : (new Tid capacity).run (loading a) = some m₁ :=
    run_loading rfl rfl (by decide) hlink₀
  have h₂ : m₁.run (allocating b) = some m₂ := run_allocating hpc rfl (by decide) hlink₀
  have h₃ : m₂.run (allocating b) = some m₃ := by
    have := @run_allocating _ _ m₂ b 1 next hpc rfl (by decide) hlink
    simpa [m₂, m₃] using this
  have h₄ : m₃.run (deallocating b 0) = some m₄ := by
    have := @run_deallocating _ _ m₃ b 0 hpc (by simp [m₃]) (by
      change 0 < (BufferPool.new capacity).freeList.length
      omega)
    simpa [m₃, m₄] using this
  have h₅ : m₄.run [(a, .advance)] = some m₅ := by
    have hpc' : m₄.pc a = .allocateNext 0 1 := by simp [m₄, m₃, m₂, m₁]
    have hheld : m₄.held a = [] := by
      simp [m₄, m₃, m₂, m₁, Function.update_of_ne hab, new]
    have hhead : m₄.pool.freeHead = 0 := rfl
    simp [run, Machine.step, hpc', hheld, hhead, m₅]
  refine ⟨m₅, ?_, ?_, ?_⟩
  . rw [abaSchedule, run_append _ _ h₁, run_append _ _ h₂, run_append _ _ h₃, run_append _ _ h₄, h₅]
  . simp [m₅, m₄, Function.update_of_ne hab.symm]
  . apply Chain.Reachable.head
    apply (by decide : (1 : PoolHandle) ≠ END_OF_LIST)

end Alone

theorem pool_safe_iff (Tid : Type) [DecidableEq Tid] (capacity : UInt32) (hcapacity : 0 < capacity)
    : (∀ m, Reaches LinkFresh (new Tid capacity) m → m.Safe)
        ∧ ((∀ m, Reaches AnyStep (new Tid capacity) m → m.Safe)
            ↔ capacity = 1 ∨ Subsingleton Tid) := by
  constructor
  . intro m h
    apply safe_of_reaches hcapacity h
  constructor
  . intro h
    by_contra hnot
    rw [not_or, not_subsingleton_iff_nontrivial] at hnot
    obtain ⟨hone, _⟩ := hnot
    obtain ⟨a, b, hab⟩ := exists_pair_ne Tid
    have htwo : 1 < capacity.toNat := by
      have hpos : 0 < capacity.toNat := hcapacity
      have hne : capacity.toNat ≠ 1 := by
        intro heq
        apply hone
        apply UInt32.toNat_inj.mp heq
      omega
    obtain ⟨m, hrun, hheld, hreach⟩ := run_abaSchedule htwo hab
    apply (h m (reaches_run hrun)).apart b 1 hheld hreach
  . intro h m hreach
    apply safe_of_reaches hcapacity
    cases h with
    | inl hone =>
      subst hone
      apply (reaches_linkFresh hcapacity Single.new _ _ hreach).1
      . intro m s hrep hsingle
        apply hsingle.linkFresh hrep
      . intro m s hrep hsingle t action m' hstep
        apply hsingle.step hrep hstep
    | inr hsolo => apply Solo.reaches hcapacity hreach

theorem pool_safe_iff_two
    : 0 < (2 : UInt32)
        ∧ (∀ m, Reaches LinkFresh (new (Fin 2) 2) m → m.Safe)
        ∧ ((∀ m, Reaches AnyStep (new (Fin 2) 2) m → m.Safe)
            ↔ (2 : UInt32) = 1 ∨ Subsingleton (Fin 2)) := by
  have hcapacity : 0 < (2 : UInt32) := by decide
  exact ⟨hcapacity, pool_safe_iff (Fin 2) 2 hcapacity⟩

theorem not_pool_safe
    : ∃ m, (new (Fin 2) 2).run (abaSchedule 0 1) = some m
        ∧ Reaches AnyStep (new (Fin 2) 2) m ∧ 1 ∈ m.held 1 ∧ m.Reachable 1 ∧ ¬m.Safe := by
  obtain ⟨m, hrun, hheld, hreach⟩ := @run_abaSchedule (Fin 2) _ 2 (by decide) 0 1 (by decide)
  refine ⟨m, hrun, reaches_run hrun, hheld, hreach, ?_⟩
  intro hsafe
  apply hsafe.apart 1 1 hheld hreach

end Machine

end Velocitas
