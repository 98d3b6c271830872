import VelocitasFix.Acceptor.Accounting
import Mathlib.Data.List.Dedup
import Mathlib.Data.List.Perm.Subperm

/-!
This module contains the proof of how many connections can be active at once: as many as there are
slots and counterparties that may connect, whatever the configured limit is.
-/

namespace Velocitas

open Ascii

-- The configurations that keep the number of connections below the limit, by other means.
def AcceptorConfig.Bounded (config : AcceptorConfig) : Prop :=
  config.requireAuth = true ∨ config.connectionPoolSize ≤ config.maxConnections
    ∨ config.allowedCompIds ≠ [] ∧ config.allowedCompIds.dedup.length ≤ config.maxConnections

namespace Acceptor

variable {config : AcceptorConfig} {acc : Acceptor}

theorem activeCount_le_length (acc : Acceptor) : acc.activeCount ≤ acc.connections.length :=
  List.countP_le_length

theorem length_owners (acc : Acceptor) : acc.owners.length = acc.activeCount := by
  rw [owners, List.length_map, activeCount, List.countP_eq_length_filter]

theorem owners_new (config : AcceptorConfig) : (new config).owners = [] := by
  apply List.eq_nil_of_length_eq_zero
  rw [length_owners, activeCount_new]

-- With a whitelist every active connection has a counterparty of its own on it.
theorem Isolated.activeCount_le_allowed (h : Isolated config acc)
    (hne : config.allowedCompIds ≠ [])
    : acc.activeCount ≤ config.allowedCompIds.dedup.length := by
  rw [← length_owners]
  apply List.Subperm.length_le
  apply h.owners.subperm
  intro compId hmem
  obtain ⟨c, hc, rfl⟩ := List.mem_map.mp hmem
  rw [List.mem_filter] at hc
  rw [List.mem_dedup]
  exact h.allowed c hc.1 hc.2 hne

theorem accepts_of_requireAuth (h : acc.config.requireAuth = true) (c : Call)
    : acc.accepts c = 0 := by
  cases c with
  | accept remoteAddr compId currentTimeMs now =>
    rw [accepts, acceptConnection, if_pos h]
    rfl
  | release _ => rfl
  | drain _ => rfl
  | evict _ _ => rfl

theorem activeCount_of_requireAuth (h : config.requireAuth = true) (calls : List Call)
    : (run config calls).activeCount = 0 := by
  have hrun : Isolated config (run config calls) ∧ (run config calls).activeCount = 0 := by
    apply @Machine.run_of_step _ _ call (new config) calls
      (fun acc => Isolated config acc ∧ acc.activeCount = 0)
      ⟨isolated_new config, activeCount_new config⟩
    rintro acc c ⟨hiso, hzero⟩
    have hcount := activeCount_call hiso.toWellFormed c
    rw [accepts_of_requireAuth (by rw [hiso.config_eq]; exact h)] at hcount
    exact ⟨hiso.call c, by omega⟩
  exact hrun.2

section Fill

variable {compId : Bytes}

theorem findByCompId_eq_none (h : compId ∉ acc.owners) : acc.findByCompId compId = none := by
  rw [findByCompId, Option.map_eq_none_iff, List.find?_eq_none]
  intro c hc hfound
  simp only [Bool.and_eq_true, decide_eq_true_eq] at hfound
  exact h (List.mem_map.mpr ⟨c, List.mem_filter.mpr ⟨hc, hfound.1⟩, hfound.2⟩)

theorem WellFormed.exists_available (hwf : acc.WellFormed)
    (h : acc.activeCount < acc.connections.length)
    : ∃ c ∈ acc.connections, c.state = .available := by
  have hadd := hwf.activeCount_add
  have hpos : 0 < acc.connections.countP (·.state = .available) := by
    change 0 < acc.stats.poolAvailable
    omega
  obtain ⟨c, hc, hstate⟩ := List.countP_pos_iff.mp hpos
  exact ⟨c, hc, by simpa using hstate⟩

theorem acceptConnection_of_free (hwf : acc.WellFormed) (hauth : acc.config.requireAuth = false)
    (hallowed : acc.isCompIdAllowed compId = true) (hnew : compId ∉ acc.owners)
    (hfree : acc.activeCount < acc.connections.length)
    (remoteAddr : Bytes) (currentTimeMs : UInt64) (now : Instant)
    : ∃ acc', acc.acceptConnection remoteAddr compId currentTimeMs now
        = (.ok acc.nextConnId, acc') := by
  obtain ⟨c, hc, hstate⟩ := hwf.exists_available hfree
  unfold acceptConnection
  rw [if_neg (by simp [hauth]), if_neg (by simp [hallowed]),
    if_neg (by simp [findByCompId_eq_none hnew])]
  split
  . next hnone =>
    have hnot := List.modifyFirst_eq_none.mp hnone c hc
    simp [hstate] at hnot
  . exact ⟨_, rfl⟩

theorem mem_owners_acceptConnection {remoteAddr : Bytes} {currentTimeMs : UInt64} {now : Instant}
    {connId : Nat} {acc' : Acceptor}
    (h : acc.acceptConnection remoteAddr compId currentTimeMs now = (.ok connId, acc')) (id : Bytes)
    : id ∈ acc'.owners ↔ id = compId ∨ id ∈ acc.owners := by
  obtain ⟨_, _, l₁, c, l₂, hl, hstate, hl'⟩ := exists_of_acceptConnection h
  have hfree := PooledConnection.isActive_of_available hstate
  have hactive : (acc.occupied remoteAddr compId currentTimeMs now).isActive = true := rfl
  rw [owners, hl', List.filter_append, List.filter_cons_of_pos hactive, owners, hl,
    List.filter_append, List.filter_cons_of_neg (by simp [hfree])]
  simp only [List.map_append, List.map_cons, List.mem_append, List.mem_cons]
  change _ ∨ id = compId ∨ _ ↔ _
  tauto

-- One accept for each of the counterparties, none of them released.
def fill (ids : List Bytes) : List Call := ids.map fun id => .accept [] id 0 0

theorem activeCount_fill {ids : List Bytes} (hiso : Isolated config acc)
    (hauth : config.requireAuth = false) (hnodup : ids.Nodup)
    (hallowed : ∀ id ∈ ids, config.allowedCompIds = [] ∨ id ∈ config.allowedCompIds)
    (hnew : ∀ id ∈ ids, id ∉ acc.owners)
    (hroom : acc.activeCount + ids.length ≤ acc.connections.length)
    : ((fill ids).foldl call acc).activeCount = acc.activeCount + ids.length := by
  induction ids generalizing acc with
  | nil => rfl
  | cons compId ids ih =>
    rw [List.forall_mem_cons] at hallowed hnew
    rw [List.nodup_cons] at hnodup
    rw [List.length_cons] at hroom
    have hmay : acc.isCompIdAllowed compId = true := by
      rw [isCompIdAllowed, hiso.config_eq]
      simpa using hallowed.1
    obtain ⟨acc', haccept⟩ := acceptConnection_of_free hiso.toWellFormed
      (by rw [hiso.config_eq]; exact hauth) hmay hnew.1 (by omega) [] 0 0
    have hcall : acc.call (.accept [] compId 0 0) = acc' := congrArg Prod.snd haccept
    have hcount := acc.activeCount_acceptConnection [] compId 0 0
    rw [haccept] at hcount
    have hlength := acc.length_call (.accept [] compId 0 0)
    rw [hcall] at hlength
    have hnew' : ∀ id ∈ ids, id ∉ acc'.owners := by
      intro id hid hmem
      cases (mem_owners_acceptConnection haccept id).mp hmem with
      | inl heq =>
        rw [heq] at hid
        exact hnodup.1 hid
      | inr hold => exact hnew.2 id hid hold
    have hone : acc'.activeCount = acc.activeCount + 1 := hcount
    have hrest := ih (hiso.acceptConnection haccept) hnodup.2 hallowed.2 hnew' (by omega)
    rw [fill, List.map_cons, List.foldl_cons, hcall, List.length_cons]
    change (List.foldl call acc' (fill ids)).activeCount = _
    rw [hrest, hone]
    omega

theorem decimal_injective : Function.Injective decimal := by
  intro m n h
  rw [← value_decimal m, h, value_decimal]

-- Without a bound there are counterparties for one connection more than the limit.
theorem exists_compIds (h : ¬ config.Bounded)
    : ∃ ids : List Bytes, ids.Nodup ∧ ids.length = config.maxConnections + 1
        ∧ ∀ id ∈ ids, config.allowedCompIds = [] ∨ id ∈ config.allowedCompIds := by
  rw [AcceptorConfig.Bounded, not_or, not_or, not_and, not_le] at h
  by_cases hempty : config.allowedCompIds = []
  . refine ⟨(List.range (config.maxConnections + 1)).map decimal, ?_, ?_, fun _ _ => .inl hempty⟩
    . exact List.nodup_range.map decimal_injective
    . rw [List.length_map, List.length_range]
  . have hlt := h.2.2 hempty
    refine ⟨config.allowedCompIds.dedup.take (config.maxConnections + 1), ?_, ?_, ?_⟩
    . exact (List.take_sublist _ _).nodup (List.nodup_dedup _)
    . rw [List.length_take]
      omega
    . intro id hid
      exact .inr (List.mem_dedup.mp (List.mem_of_mem_take hid))

end Fill

theorem active_le_max_iff (config : AcceptorConfig)
    : (∀ calls, (run config calls).activeCount ≤ config.maxConnections) ↔ config.Bounded := by
  constructor
  . intro hle
    by_contra hunbounded
    obtain ⟨ids, hnodup, hlen, hallowed⟩ := exists_compIds hunbounded
    rw [AcceptorConfig.Bounded, not_or, not_or, Bool.not_eq_true, not_le] at hunbounded
    have hslots : (new config).connections.length = config.connectionPoolSize := length_run config []
    have hcount := activeCount_fill (isolated_new config) hunbounded.1 hnodup hallowed
      (by simp [owners_new]) (by rw [activeCount_new, hslots]; omega)
    have hmax := hle (fill ids)
    rw [run, hcount, activeCount_new] at hmax
    omega
  . rintro (hauth | hpool | ⟨hne, hallowed⟩) calls
    . rw [activeCount_of_requireAuth hauth]
      exact Nat.zero_le _
    . have hlen := activeCount_le_length (run config calls)
      rw [length_run] at hlen
      omega
    . exact (((isolated_new config).calls calls).activeCount_le_allowed hne).trans hallowed

-- Two slots under a limit of one connection.
def roomyConfig : AcceptorConfig :=
  { AcceptorConfig.default with maxConnections := 1, connectionPoolSize := 2 }

theorem active_exceeds_max
    : ¬ ∀ (config : AcceptorConfig) (calls : List Call),
        (run config calls).activeCount ≤ config.maxConnections := by
  intro h
  have hle := h roomyConfig [.accept [] (ascii "CLIENT_A") 1 0, .accept [] (ascii "CLIENT_B") 2 0]
  revert hle
  decide +kernel

end Acceptor

end Velocitas
