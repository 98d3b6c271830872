import VelocitasFix.Acceptor.Impl
import Mathlib.Data.List.Nodup

/-!
This module contains the invariant of the connection pool, and which ids are held before and after an
operation on it.
-/

namespace Velocitas

theorem PooledConnection.isActive_of_available {c : PooledConnection} (h : c.state = .available)
    : c.isActive = false := by
  simp [isActive, h]

namespace Acceptor

structure WellFormed (acc : Acceptor) : Prop where
  nodup : (acc.connections.map (·.id)).Nodup
  id_lt : ∀ c ∈ acc.connections, c.id < acc.nextConnId
  not_closed : ∀ c ∈ acc.connections, c.state ≠ .closed

-- Some slot is in use, or draining, under the id.
def Held (acc : Acceptor) (connId : Nat) : Prop :=
  ∃ c ∈ acc.connections, c.id = connId ∧ c.isActive = true

theorem wellFormed_new (config : AcceptorConfig) : (new config).WellFormed where
  nodup := by
    have hids : (new config).connections.map (·.id) = List.range config.connectionPoolSize := by
      unfold new
      rw [List.map_map]
      apply List.map_id
    rw [hids]
    apply List.nodup_range
  id_lt := by
    intro c hc
    obtain ⟨i, hi, hempty⟩ := List.mem_map.mp hc
    rw [← hempty]
    exact List.mem_range.mp hi
  not_closed := by
    intro c hc
    obtain ⟨i, _, hempty⟩ := List.mem_map.mp hc
    rw [← hempty]
    exact nofun

theorem WellFormed.reject {acc : Acceptor} (h : acc.WellFormed) : acc.reject.WellFormed where
  nodup := h.nodup
  id_lt := h.id_lt
  not_closed := h.not_closed

section Accept

variable {acc : Acceptor} {remoteAddr compId : Bytes} {currentTimeMs : UInt64} {now : Instant}

theorem acceptConnection_cases (acc : Acceptor) (remoteAddr compId : Bytes) (currentTimeMs : UInt64)
    (now : Instant)
    : (∃ e, acc.acceptConnection remoteAddr compId currentTimeMs now = (.error e, acc.reject))
        ∨ ∃ l₁ c l₂, acc.connections = l₁ ++ c :: l₂ ∧ c.state = .available
          ∧ acc.acceptConnection remoteAddr compId currentTimeMs now
            = (.ok acc.nextConnId,
              { acc with
                connections := l₁ ++ acc.occupied remoteAddr compId currentTimeMs now :: l₂
                nextConnId := acc.nextConnId + 1
                totalAccepted := acc.totalAccepted + 1 }) := by
  unfold acceptConnection
  split
  . exact .inl ⟨_, rfl⟩
  . split
    . exact .inl ⟨_, rfl⟩
    . split
      . exact .inl ⟨_, rfl⟩
      . split
        . exact .inl ⟨_, rfl⟩
        . next hmodified =>
          right
          obtain ⟨l₁, c, l₂, hl, hl', hstate, _⟩ := List.exists_of_modifyFirst hmodified
          refine ⟨l₁, c, l₂, hl, by simpa using hstate, ?_⟩
          rw [hl']

theorem acceptConnection_of_error {e : AcceptorError} {acc' : Acceptor}
    (h : acc.acceptConnection remoteAddr compId currentTimeMs now = (.error e, acc'))
    : acc' = acc.reject := by
  cases acc.acceptConnection_cases remoteAddr compId currentTimeMs now with
  | inl herror =>
    obtain ⟨_, herror⟩ := herror
    rw [h] at herror
    exact congrArg Prod.snd herror
  | inr hok =>
    obtain ⟨_, _, _, _, _, hok⟩ := hok
    rw [h] at hok
    exact nomatch congrArg Prod.fst hok

theorem exists_of_acceptConnection {connId : Nat} {acc' : Acceptor}
    (h : acc.acceptConnection remoteAddr compId currentTimeMs now = (.ok connId, acc'))
    : connId = acc.nextConnId ∧ acc'.nextConnId = acc.nextConnId + 1
        ∧ ∃ l₁ c l₂, acc.connections = l₁ ++ c :: l₂ ∧ c.state = .available
          ∧ acc'.connections = l₁ ++ acc.occupied remoteAddr compId currentTimeMs now :: l₂ := by
  cases acc.acceptConnection_cases remoteAddr compId currentTimeMs now with
  | inl herror =>
    obtain ⟨_, herror⟩ := herror
    rw [h] at herror
    exact nomatch congrArg Prod.fst herror
  | inr hok =>
    obtain ⟨l₁, c, l₂, hl, hstate, hok⟩ := hok
    rw [h] at hok
    injection hok with hid hacc
    injection hid with hid
    rw [hid, hacc]
    exact ⟨rfl, rfl, l₁, c, l₂, hl, hstate, rfl⟩

theorem WellFormed.acceptConnection {connId : Nat} {acc' : Acceptor} (hwf : acc.WellFormed)
    (h : acc.acceptConnection remoteAddr compId currentTimeMs now = (.ok connId, acc'))
    : acc'.WellFormed := by
  obtain ⟨_, hnext, l₁, c, l₂, hl, _, hl'⟩ := exists_of_acceptConnection h
  have hold (x : PooledConnection) (hx : x ∈ l₁ ∨ x ∈ l₂) : x ∈ acc.connections := by
    rw [hl]
    simp only [List.mem_append, List.mem_cons]
    tauto
  have hcases (x : PooledConnection) (hx : x ∈ acc'.connections)
      : x = acc.occupied remoteAddr compId currentTimeMs now ∨ x ∈ acc.connections := by
    rw [hl'] at hx
    simp only [List.mem_append, List.mem_cons] at hx
    have := hold x
    tauto
  constructor
  case nodup =>
    have hnodup := hwf.nodup
    rw [hl, List.map_append, List.map_cons, List.nodup_middle, List.nodup_cons] at hnodup
    rw [hl', List.map_append, List.map_cons, List.nodup_middle, List.nodup_cons]
    refine ⟨?_, hnodup.2⟩
    rw [← List.map_append, List.mem_map]
    rintro ⟨x, hx, hid⟩
    have hlt := hwf.id_lt x (hold x (List.mem_append.mp hx))
    rw [hid] at hlt
    exact Nat.lt_irrefl _ hlt
  case id_lt =>
    intro x hx
    rw [hnext]
    cases hcases x hx with
    | inl hnew =>
      rw [hnew]
      exact Nat.lt_succ_self _
    | inr hmem => exact Nat.lt_succ_of_lt (hwf.id_lt x hmem)
  case not_closed =>
    intro x hx
    cases hcases x hx with
    | inl hnew =>
      rw [hnew]
      exact nofun
    | inr hmem => exact hwf.not_closed x hmem

theorem held_acceptConnection {connId : Nat} {acc' : Acceptor}
    (h : acc.acceptConnection remoteAddr compId currentTimeMs now = (.ok connId, acc')) (id : Nat)
    : acc'.Held id ↔ acc.Held id ∨ id = connId := by
  obtain ⟨hid, _, l₁, c, l₂, hl, hstate, hl'⟩ := exists_of_acceptConnection h
  have hfree := PooledConnection.isActive_of_available hstate
  unfold Held
  rw [hl, hl', hid]
  simp only [List.mem_append, List.mem_cons]
  constructor
  . rintro ⟨x, hx | hx | hx, hxid, hactive⟩
    . exact .inl ⟨x, .inl hx, hxid, hactive⟩
    . right
      rw [← hxid, hx]
      rfl
    . exact .inl ⟨x, .inr (.inr hx), hxid, hactive⟩
  . rintro (⟨x, hx | hx | hx, hxid, hactive⟩ | hnew)
    . exact ⟨x, .inl hx, hxid, hactive⟩
    . rw [hx, hfree] at hactive
      contradiction
    . exact ⟨x, .inr (.inr hx), hxid, hactive⟩
    . exact ⟨_, .inr (.inl rfl), hnew.symm, rfl⟩

end Accept

section Release

variable {acc : Acceptor} {connId : Nat}

theorem WellFormed.isActive_iff (hwf : acc.WellFormed) {c : PooledConnection}
    (hc : c ∈ acc.connections)
    : c.isActive = true ↔ c.state ≠ .available := by
  have hnot := hwf.not_closed c hc
  unfold PooledConnection.isActive
  cases hstate : c.state with
  | available => simp
  | inUse => simp
  | draining => simp
  | closed => exact absurd hstate hnot

theorem releaseConnection_cases (acc : Acceptor) (connId : Nat)
    : ((acc.releaseConnection connId).2 = acc
          ∧ ∀ c ∈ acc.connections, c.id = connId → c.state = .available)
        ∨ ∃ l₁ c l₂, acc.connections = l₁ ++ c :: l₂ ∧ c.id = connId
          ∧ (acc.releaseConnection connId).2 = { acc with connections := l₁ ++ c.clear :: l₂ } := by
  unfold releaseConnection
  split
  . next hmodified =>
    right
    obtain ⟨l₁, c, l₂, hl, hl', hp, _⟩ := List.exists_of_modifyFirst hmodified
    simp only [decide_eq_true_eq] at hp
    exact ⟨l₁, c, l₂, hl, hp.1, by rw [hl']⟩
  . next hnone =>
    left
    refine ⟨rfl, ?_⟩
    intro c hc hid
    have hp := List.modifyFirst_eq_none.mp hnone c hc
    simpa [hid] using hp

theorem WellFormed.releaseConnection (hwf : acc.WellFormed)
    : (acc.releaseConnection connId).2.WellFormed := by
  cases acc.releaseConnection_cases connId with
  | inl hnone =>
    rw [hnone.1]
    exact hwf
  | inr hsome =>
    obtain ⟨l₁, c, l₂, hl, _, hacc⟩ := hsome
    have hmem : c ∈ acc.connections := by
      rw [hl]
      simp
    have hold (x : PooledConnection) (hx : x ∈ l₁ ++ c.clear :: l₂)
        : x = c.clear ∨ x ∈ acc.connections := by
      rw [hl]
      simp only [List.mem_append, List.mem_cons] at hx ⊢
      tauto
    rw [hacc]
    constructor
    case nodup =>
      have hnodup := hwf.nodup
      rw [hl] at hnodup
      simp only [List.map_append, List.map_cons] at hnodup ⊢
      exact hnodup
    case id_lt =>
      intro x hx
      cases hold x hx with
      | inl hclear =>
        rw [hclear]
        exact hwf.id_lt c hmem
      | inr hx => exact hwf.id_lt x hx
    case not_closed =>
      intro x hx
      cases hold x hx with
      | inl hclear =>
        rw [hclear]
        exact nofun
      | inr hx => exact hwf.not_closed x hx

theorem nextConnId_releaseConnection (acc : Acceptor) (connId : Nat)
    : (acc.releaseConnection connId).2.nextConnId = acc.nextConnId := by
  unfold releaseConnection
  split
  . rfl
  . rfl

theorem held_releaseConnection (hwf : acc.WellFormed) (id : Nat)
    : (acc.releaseConnection connId).2.Held id ↔ acc.Held id ∧ id ≠ connId := by
  cases acc.releaseConnection_cases connId with
  | inl hnone =>
    rw [hnone.1]
    constructor
    . rintro ⟨c, hc, hid, hactive⟩
      refine ⟨⟨c, hc, hid, hactive⟩, ?_⟩
      intro heq
      exact (hwf.isActive_iff hc).mp hactive (hnone.2 c hc (hid.trans heq))
    . exact And.left
  | inr hsome =>
    obtain ⟨l₁, c, l₂, hl, hcid, hacc⟩ := hsome
    have hnodup := hwf.nodup
    rw [hl, List.map_append, List.map_cons, List.nodup_middle, List.nodup_cons, ← List.map_append,
      hcid] at hnodup
    have hother (x : PooledConnection) (hx : x ∈ l₁ ++ l₂) : x.id ≠ connId := by
      intro hid
      exact hnodup.1 (List.mem_map.mpr ⟨x, hx, hid⟩)
    unfold Held
    rw [hacc, hl]
    simp only [List.mem_append, List.mem_cons] at hother ⊢
    constructor
    . rintro ⟨x, hx | hx | hx, hid, hactive⟩
      . exact ⟨⟨x, .inl hx, hid, hactive⟩, by rw [← hid]; exact hother x (.inl hx)⟩
      . rw [hx] at hactive
        contradiction
      . exact ⟨⟨x, .inr (.inr hx), hid, hactive⟩, by rw [← hid]; exact hother x (.inr hx)⟩
    . rintro ⟨⟨x, hx | hx | hx, hid, hactive⟩, hne⟩
      . exact ⟨x, .inl hx, hid, hactive⟩
      . rw [hx, hcid] at hid
        exact absurd hid.symm hne
      . exact ⟨x, .inr (.inr hx), hid, hactive⟩

end Release

theorem drainConnection_cases (acc : Acceptor) (connId : Nat)
    : (acc.drainConnection connId).2 = acc
        ∨ ∃ l₁ c l₂, acc.connections = l₁ ++ c :: l₂ ∧ c.state = .inUse
          ∧ (acc.drainConnection connId).2 = { acc with connections := l₁ ++ c.drain :: l₂ } := by
  unfold drainConnection
  split
  . next c hfind =>
    split
    . next hstate =>
      right
      obtain ⟨hc, l₁, l₂, hl, hbefore⟩ := List.find?_eq_some_iff_append.mp hfind
      have hmodified : acc.connections.modifyFirst (fun c => c.id = connId) .drain
          = some (l₁ ++ c.drain :: l₂) := by
        rw [hl]
        exact List.modifyFirst_append_cons (by simpa using hbefore) hc
      refine ⟨l₁, c, l₂, hl, hstate, ?_⟩
      dsimp only
      rw [hmodified]
      rfl
    . exact .inl rfl
  . exact .inl rfl

end Acceptor

end Velocitas
