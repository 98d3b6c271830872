import VelocitasFix.Acceptor.Lemmas
import VelocitasFix.Data.Machine
import VelocitasFix.Data.Pointwise

/-!
This module contains the proof that the slots of the pool are kept apart: over every sequence of calls
no id and no counterparty has two slots, and each session belongs to the slot that it is in.
-/

namespace Velocitas

namespace Acceptor

inductive Call where
  | accept (remoteAddr compId : Bytes) (currentTimeMs : UInt64) (now : Instant)
  | release (connId : Nat)
  | drain (connId : Nat)
  | evict (maxIdleMs currentTimeMs : UInt64)
  deriving DecidableEq, Repr

def call (acc : Acceptor) : Call → Acceptor
  | .accept remoteAddr compId currentTimeMs now =>
    (acc.acceptConnection remoteAddr compId currentTimeMs now).2
  | .release connId => (acc.releaseConnection connId).2
  | .drain connId => (acc.drainConnection connId).2
  | .evict maxIdleMs currentTimeMs => (acc.evictIdle maxIdleMs currentTimeMs).2

def run (config : AcceptorConfig) (calls : List Call) : Acceptor := calls.foldl call (new config)

-- The counterparties that hold a slot.
def owners (acc : Acceptor) : List Bytes :=
  (acc.connections.filter (·.isActive)).map (·.remoteCompId)

structure Isolated (config : AcceptorConfig) (acc : Acceptor) : Prop extends WellFormed acc where
  config_eq : acc.config = config
  owners : acc.owners.Nodup
  session_iff : ∀ c ∈ acc.connections, c.session.isSome ↔ c.isActive
  session : ∀ c ∈ acc.connections, ∀ s ∈ c.session,
    s.config.role = .acceptor ∧ s.config.targetCompId = c.remoteCompId
  allowed : ∀ c ∈ acc.connections, c.isActive → config.allowedCompIds ≠ [] →
    c.remoteCompId ∈ config.allowedCompIds

theorem session_empty (id : Nat) : (PooledConnection.empty id).session = none := rfl

theorem isActive_empty (id : Nat) : (PooledConnection.empty id).isActive = false := rfl

theorem isolated_new (config : AcceptorConfig) : Isolated config (new config) := by
  have hempty (c : PooledConnection) (hc : c ∈ (new config).connections)
      : c = .empty c.id := by
    obtain ⟨i, _, hempty⟩ := List.mem_map.mp hc
    rw [← hempty]
    rfl
  have howners : (new config).owners = [] := by
    unfold Acceptor.owners
    rw [List.map_eq_nil_iff, List.filter_eq_nil_iff]
    intro c hc
    rw [hempty c hc, isActive_empty]
    exact Bool.false_ne_true
  refine ⟨wellFormed_new config, rfl, ?_, ?_, ?_, ?_⟩
  . rw [howners]
    exact List.nodup_nil
  . intro c hc
    rw [hempty c hc, session_empty, isActive_empty]
    exact ⟨nofun, nofun⟩
  . intro c hc s hs
    rw [hempty c hc, session_empty] at hs
    contradiction
  . intro c hc hactive
    rw [hempty c hc, isActive_empty] at hactive
    contradiction

theorem Isolated.reject {config : AcceptorConfig} {acc : Acceptor} (h : Isolated config acc)
    : Isolated config acc.reject where
  toWellFormed := h.toWellFormed.reject
  config_eq := h.config_eq
  owners := h.owners
  session_iff := h.session_iff
  session := h.session
  allowed := h.allowed

section Accept

variable {acc : Acceptor} {remoteAddr compId : Bytes} {currentTimeMs : UInt64} {now : Instant}

-- What was checked before a slot was given to the counterparty.
theorem checked_of_acceptConnection {connId : Nat} {acc' : Acceptor}
    (h : acc.acceptConnection remoteAddr compId currentTimeMs now = (.ok connId, acc'))
    : acc.isCompIdAllowed compId = true ∧ acc.findByCompId compId = none := by
  unfold acceptConnection at h
  split at h
  . exact nomatch congrArg Prod.fst h
  . split at h
    . exact nomatch congrArg Prod.fst h
    . next hallowed =>
      split at h
      . exact nomatch congrArg Prod.fst h
      . next hfind =>
        exact ⟨by simpa using hallowed, by simpa using hfind⟩

theorem config_acceptConnection (acc : Acceptor) (remoteAddr compId : Bytes)
    (currentTimeMs : UInt64) (now : Instant)
    : (acc.acceptConnection remoteAddr compId currentTimeMs now).2.config = acc.config := by
  cases acc.acceptConnection_cases remoteAddr compId currentTimeMs now with
  | inl herror =>
    obtain ⟨_, herror⟩ := herror
    rw [herror]
    rfl
  | inr hok =>
    obtain ⟨_, _, _, _, _, hok⟩ := hok
    rw [hok]

theorem not_mem_owners (h : acc.findByCompId compId = none) : compId ∉ acc.owners := by
  unfold findByCompId at h
  rw [Option.map_eq_none_iff, List.find?_eq_none] at h
  unfold owners
  rw [List.mem_map]
  rintro ⟨c, hc, hcomp⟩
  rw [List.mem_filter] at hc
  exact h c hc.1 (by simp [hc.2, hcomp])

theorem mem_of_isCompIdAllowed (h : acc.isCompIdAllowed compId = true)
    (hne : acc.config.allowedCompIds ≠ [])
    : compId ∈ acc.config.allowedCompIds := by
  unfold isCompIdAllowed at h
  simpa [hne] using h

theorem Isolated.acceptConnection {config : AcceptorConfig} {connId : Nat} {acc' : Acceptor}
    (hiso : Isolated config acc)
    (h : acc.acceptConnection remoteAddr compId currentTimeMs now = (.ok connId, acc'))
    : Isolated config acc' := by
  obtain ⟨hallowed, hfind⟩ := checked_of_acceptConnection h
  obtain ⟨_, _, l₁, c, l₂, hl, hstate, hl'⟩ := exists_of_acceptConnection h
  have hconfig : acc'.config = acc.config := by
    rw [← acc.config_acceptConnection remoteAddr compId currentTimeMs now, h]
  have hcases (x : PooledConnection) (hx : x ∈ acc'.connections)
      : x = acc.occupied remoteAddr compId currentTimeMs now ∨ x ∈ acc.connections := by
    rw [hl'] at hx
    rw [hl]
    simp only [List.mem_append, List.mem_cons] at hx ⊢
    tauto
  refine ⟨hiso.toWellFormed.acceptConnection h, hconfig.trans hiso.config_eq, ?_, ?_, ?_, ?_⟩
  . have hfree := PooledConnection.isActive_of_available hstate
    have hnodup := hiso.owners
    have hnot := not_mem_owners hfind
    unfold Acceptor.owners at hnodup hnot ⊢
    rw [hl, List.filter_append, List.filter_cons_of_neg (by simp [hfree]), ← List.filter_append]
      at hnodup hnot
    rw [hl', List.filter_append, List.filter_cons_of_pos rfl, List.map_append, List.map_cons,
      List.nodup_middle, List.nodup_cons, ← List.map_append, ← List.filter_append]
    exact ⟨hnot, hnodup⟩
  . intro x hx
    cases hcases x hx with
    | inl hnew =>
      rw [hnew]
      exact ⟨fun _ => rfl, fun _ => rfl⟩
    | inr hmem => exact hiso.session_iff x hmem
  . intro x hx
    cases hcases x hx with
    | inl hnew =>
      rw [hnew]
      intro s hs
      injection hs with hs
      rw [← hs]
      exact ⟨rfl, rfl⟩
    | inr hmem => exact hiso.session x hmem
  . intro x hx hactive hne
    cases hcases x hx with
    | inl hnew =>
      rw [hnew, ← hiso.config_eq]
      rw [← hiso.config_eq] at hne
      exact mem_of_isCompIdAllowed hallowed hne
    | inr hmem => exact hiso.allowed x hmem hactive hne

end Accept

-- What the operations other than an accept do to a slot.
inductive Retires (c : PooledConnection) : PooledConnection → Prop where
  | kept : Retires c c
  | cleared : Retires c c.clear
  | drained (hstate : c.state = .inUse) : Retires c c.drain

section Retires

variable {l l' : List PooledConnection}

theorem Retires.id_eq {c c' : PooledConnection} (h : Retires c c') : c'.id = c.id := by
  cases h with
  | kept => rfl
  | cleared => rfl
  | drained _ => rfl

-- A slot that is still active was active before, with the same session and counterparty.
theorem Retires.of_isActive {c c' : PooledConnection} (h : Retires c c')
    (hactive : c'.isActive = true)
    : c.isActive = true ∧ c'.session = c.session ∧ c'.remoteCompId = c.remoteCompId := by
  cases h with
  | kept => exact ⟨hactive, rfl, rfl⟩
  | cleared => contradiction
  | drained hstate => exact ⟨by simp [PooledConnection.isActive, hstate], rfl, rfl⟩

theorem Retires.replaced {l₁ l₂ : List PooledConnection} {c c' : PooledConnection}
    (h : Retires c c')
    : List.Forall₂ Retires (l₁ ++ c :: l₂) (l₁ ++ c' :: l₂) :=
  List.forall₂_replaced (fun _ _ => .kept) h

theorem ids_of_retires (h : List.Forall₂ Retires l l') : l'.map (·.id) = l.map (·.id) := by
  induction h with
  | nil => rfl
  | cons hc _ ih => rw [List.map_cons, List.map_cons, hc.id_eq, ih]

theorem owners_of_retires (h : List.Forall₂ Retires l l')
    : ((l'.filter (·.isActive)).map (·.remoteCompId)).Sublist
        ((l.filter (·.isActive)).map (·.remoteCompId)) := by
  apply List.sublist_of_forall₂ _ h
  intro c c' hretires hactive
  obtain ⟨hold, _, hcomp⟩ := hretires.of_isActive hactive
  exact ⟨hold, hcomp⟩

theorem Isolated.of_retires {config : AcceptorConfig} {acc : Acceptor} (hiso : Isolated config acc)
    (h : List.Forall₂ Retires acc.connections l')
    : Isolated config { acc with connections := l' } := by
  have hnew (c' : PooledConnection) (hc' : c' ∈ l') : ∃ c ∈ acc.connections, Retires c c' :=
    List.exists_of_forall₂ h hc'
  refine ⟨⟨?_, ?_, ?_⟩, hiso.config_eq, ?_, ?_, ?_, ?_⟩
  . change (l'.map (·.id)).Nodup
    rw [ids_of_retires h]
    exact hiso.nodup
  . intro c' hc'
    obtain ⟨c, hc, hretires⟩ := hnew c' hc'
    rw [hretires.id_eq]
    exact hiso.id_lt c hc
  . intro c' hc'
    obtain ⟨c, hc, hretires⟩ := hnew c' hc'
    cases hretires with
    | kept => exact hiso.not_closed _ hc
    | cleared => exact nofun
    | drained _ => exact nofun
  . exact hiso.owners.sublist (owners_of_retires h)
  . intro c' hc'
    obtain ⟨c, hc, hretires⟩ := hnew c' hc'
    have hsession := hiso.session_iff c hc
    cases hretires with
    | kept => exact hsession
    | cleared =>
      rw [PooledConnection.clear, session_empty, isActive_empty]
      exact ⟨nofun, nofun⟩
    | drained hstate =>
      refine ⟨fun _ => rfl, fun _ => hsession.mpr ?_⟩
      simp [PooledConnection.isActive, hstate]
  . intro c' hc' s hs
    obtain ⟨c, hc, hretires⟩ := hnew c' hc'
    cases hretires with
    | kept => exact hiso.session _ hc s hs
    | cleared =>
      rw [PooledConnection.clear, session_empty] at hs
      contradiction
    | drained _ => exact hiso.session c hc s hs
  . intro c' hc' hactive hne
    obtain ⟨c, hc, hretires⟩ := hnew c' hc'
    obtain ⟨hold, _, hcomp⟩ := hretires.of_isActive hactive
    rw [hcomp]
    exact hiso.allowed c hc hold hne

end Retires

theorem retires_releaseConnection (acc : Acceptor) (connId : Nat)
    : ∃ l', List.Forall₂ Retires acc.connections l'
        ∧ (acc.releaseConnection connId).2 = { acc with connections := l' } := by
  cases acc.releaseConnection_cases connId with
  | inl hnone => exact ⟨acc.connections, List.forall₂_same.mpr fun _ _ => .kept, hnone.1⟩
  | inr hsome =>
    obtain ⟨l₁, c, l₂, hl, _, hacc⟩ := hsome
    refine ⟨_, ?_, hacc⟩
    rw [hl]
    exact Retires.cleared.replaced

theorem retires_drainConnection (acc : Acceptor) (connId : Nat)
    : ∃ l', List.Forall₂ Retires acc.connections l'
        ∧ (acc.drainConnection connId).2 = { acc with connections := l' } := by
  cases acc.drainConnection_cases connId with
  | inl hsame => exact ⟨acc.connections, List.forall₂_same.mpr fun _ _ => .kept, hsame⟩
  | inr hdrained =>
    obtain ⟨l₁, c, l₂, hl, hstate, hacc⟩ := hdrained
    refine ⟨_, ?_, hacc⟩
    rw [hl]
    exact (Retires.drained hstate).replaced

theorem retires_evictIdle (acc : Acceptor) (maxIdleMs currentTimeMs : UInt64)
    : ∃ l', List.Forall₂ Retires acc.connections l'
        ∧ (acc.evictIdle maxIdleMs currentTimeMs).2 = { acc with connections := l' } := by
  refine ⟨_, ?_, rfl⟩
  rw [List.forall₂_map_right_iff, List.forall₂_same]
  intro c _
  split
  . exact .cleared
  . exact .kept

theorem Isolated.call {config : AcceptorConfig} {acc : Acceptor} (h : Isolated config acc)
    (c : Call)
    : Isolated config (acc.call c) := by
  cases c with
  | accept remoteAddr compId currentTimeMs now =>
    change Isolated config (acc.acceptConnection remoteAddr compId currentTimeMs now).2
    cases hres : acc.acceptConnection remoteAddr compId currentTimeMs now with
    | mk res acc' =>
      cases res with
      | ok connId => exact h.acceptConnection hres
      | error e =>
        rw [acceptConnection_of_error hres]
        exact h.reject
  | release connId =>
    obtain ⟨_, hretires, hacc⟩ := acc.retires_releaseConnection connId
    rw [Acceptor.call, hacc]
    exact h.of_retires hretires
  | drain connId =>
    obtain ⟨_, hretires, hacc⟩ := acc.retires_drainConnection connId
    rw [Acceptor.call, hacc]
    exact h.of_retires hretires
  | evict maxIdleMs currentTimeMs =>
    obtain ⟨_, hretires, hacc⟩ := acc.retires_evictIdle maxIdleMs currentTimeMs
    rw [Acceptor.call, hacc]
    exact h.of_retires hretires

theorem Isolated.calls {config : AcceptorConfig} {acc : Acceptor} (h : Isolated config acc)
    (calls : List Call)
    : Isolated config (calls.foldl Acceptor.call acc) :=
  Machine.run_of_step h fun _ c hacc => hacc.call c

theorem run_isolated (config : AcceptorConfig) (calls : List Call)
    : Isolated config (run config calls) :=
  (isolated_new config).calls calls

end Acceptor

end Velocitas
