import VelocitasFix.Acceptor.Isolation

/-!
This module contains the accounts of the acceptor over every sequence of calls: no slot gets lost, and
every accepted connection is in use or was given back.
-/

namespace Velocitas

namespace Acceptor

def Call.isAccept : Call → Bool
  | .accept .. => true
  | _ => false

-- The connections that a call adds, those that it releases and those that it evicts, by its result.
def accepts (acc : Acceptor) : Call → Nat
  | .accept remoteAddr compId currentTimeMs now =>
    (acc.acceptConnection remoteAddr compId currentTimeMs now).1.isOk.toNat
  | _ => 0

def releases (acc : Acceptor) : Call → Nat
  | .release connId => (acc.releaseConnection connId).1.isOk.toNat
  | _ => 0

def evicts (acc : Acceptor) : Call → Nat
  | .evict maxIdleMs currentTimeMs => (acc.evictIdle maxIdleMs currentTimeMs).1
  | _ => 0

-- The number of successful calls of `release_connection` in a run.
def totalReleased (config : AcceptorConfig) (calls : List Call) : Nat :=
  Machine.tally call releases (new config) calls

-- The sum of what the calls of `evict_idle` return in a run.
def totalEvicted (config : AcceptorConfig) (calls : List Call) : Nat :=
  Machine.tally call evicts (new config) calls

variable {acc : Acceptor}

theorem countP_replaced {l₁ l₂ : List PooledConnection} {c c' : PooledConnection}
    : (l₁ ++ c' :: l₂).countP (·.isActive) + c.isActive.toNat
        = (l₁ ++ c :: l₂).countP (·.isActive) + c'.isActive.toNat := by
  have hcons (x : PooledConnection)
      : (l₁ ++ x :: l₂).countP (·.isActive)
          = l₁.countP (·.isActive) + l₂.countP (·.isActive) + x.isActive.toNat := by
    rw [List.countP_append, List.countP_cons, Nat.add_assoc]
    cases x.isActive with
    | false => rfl
    | true => rfl
  rw [hcons, hcons]
  omega

theorem activeCount_replaced {l₁ l₂ : List PooledConnection} {c c' : PooledConnection}
    {acc' : Acceptor} (hl : acc.connections = l₁ ++ c :: l₂)
    (hl' : acc'.connections = l₁ ++ c' :: l₂)
    : acc'.activeCount + c.isActive.toNat = acc.activeCount + c'.isActive.toNat := by
  rw [activeCount, activeCount, hl, hl']
  exact countP_replaced

theorem activeCount_acceptConnection (acc : Acceptor) (remoteAddr compId : Bytes)
    (currentTimeMs : UInt64) (now : Instant)
    : (acc.acceptConnection remoteAddr compId currentTimeMs now).2.activeCount
        = acc.activeCount
          + (acc.acceptConnection remoteAddr compId currentTimeMs now).1.isOk.toNat := by
  cases acc.acceptConnection_cases remoteAddr compId currentTimeMs now with
  | inl herror =>
    obtain ⟨e, herror⟩ := herror
    rw [herror]
    rfl
  | inr hok =>
    obtain ⟨l₁, c, l₂, hl, hstate, hok⟩ := hok
    have hfree := PooledConnection.isActive_of_available hstate
    rw [hok]
    have hcount := @activeCount_replaced acc l₁ l₂ c
      (acc.occupied remoteAddr compId currentTimeMs now) { acc with
        connections := l₁ ++ acc.occupied remoteAddr compId currentTimeMs now :: l₂
        nextConnId := acc.nextConnId + 1
        totalAccepted := acc.totalAccepted + 1 } hl rfl
    rw [hfree] at hcount
    exact hcount

-- Only a slot that is held can be released, so that the count goes down with every success.
theorem activeCount_releaseConnection (hwf : acc.WellFormed) (connId : Nat)
    : (acc.releaseConnection connId).2.activeCount
          + (acc.releaseConnection connId).1.isOk.toNat
        = acc.activeCount := by
  unfold releaseConnection
  split
  . next hmodified =>
    obtain ⟨l₁, c, l₂, hl, hl', hp, _⟩ := List.exists_of_modifyFirst hmodified
    have hactive : c.isActive = true := by
      rw [hwf.isActive_iff (by rw [hl]; simp)]
      simp only [decide_eq_true_eq] at hp
      exact hp.2
    have hcount := @activeCount_replaced acc l₁ l₂ c c.clear
      { acc with connections := l₁ ++ c.clear :: l₂ } hl rfl
    rw [hactive] at hcount
    rw [hl']
    exact hcount
  . rfl

theorem activeCount_drainConnection (acc : Acceptor) (connId : Nat)
    : (acc.drainConnection connId).2.activeCount = acc.activeCount := by
  cases acc.drainConnection_cases connId with
  | inl hsame => rw [hsame]
  | inr hdrained =>
    obtain ⟨l₁, c, l₂, hl, hstate, hacc⟩ := hdrained
    have hcount := @activeCount_replaced acc l₁ l₂ c c.drain
      { acc with connections := l₁ ++ c.drain :: l₂ } hl rfl
    have hactive : c.isActive = c.drain.isActive := by
      simp [PooledConnection.isActive, PooledConnection.drain, hstate]
    rw [hacc]
    rw [hactive] at hcount
    exact Nat.add_right_cancel hcount

theorem activeCount_evictIdle (acc : Acceptor) (maxIdleMs currentTimeMs : UInt64)
    : (acc.evictIdle maxIdleMs currentTimeMs).2.activeCount
          + (acc.evictIdle maxIdleMs currentTimeMs).1
        = acc.activeCount := by
  unfold evictIdle activeCount
  dsimp only
  induction acc.connections with
  | nil => rfl
  | cons c connections ih =>
    rw [List.map_cons, List.countP_cons, List.countP_cons, List.countP_cons]
    cases hidle : c.isIdle maxIdleMs currentTimeMs with
    | true =>
      have hactive : c.isActive = true := by
        unfold PooledConnection.isIdle at hidle
        unfold PooledConnection.isActive
        simp at hidle ⊢
        exact .inl hidle.1
      have hcleared : c.clear.isActive = false := rfl
      simp only [hactive, hcleared, ↓reduceIte, Bool.false_eq_true]
      omega
    | false =>
      simp only [↓reduceIte, Bool.false_eq_true]
      omega

theorem activeCount_call (hwf : acc.WellFormed) (c : Call)
    : (acc.call c).activeCount + (acc.releases c + acc.evicts c)
        = acc.activeCount + acc.accepts c := by
  cases c with
  | accept remoteAddr compId currentTimeMs now =>
    exact acc.activeCount_acceptConnection remoteAddr compId currentTimeMs now
  | release connId => exact activeCount_releaseConnection hwf connId
  | drain connId => exact acc.activeCount_drainConnection connId
  | evict maxIdleMs currentTimeMs =>
    show _ + (0 + (acc.evictIdle maxIdleMs currentTimeMs).1) = _
    rw [Nat.zero_add]
    exact acc.activeCount_evictIdle maxIdleMs currentTimeMs

-- Only an accept counts, and it counts what it returned.
theorem totals_call (acc : Acceptor) (c : Call)
    : (acc.call c).totalAccepted = acc.totalAccepted + acc.accepts c
        ∧ (acc.call c).totalAccepted + (acc.call c).totalRejected
          = acc.totalAccepted + acc.totalRejected + c.isAccept.toNat := by
  cases c with
  | accept remoteAddr compId currentTimeMs now =>
    rw [call, accepts]
    cases acc.acceptConnection_cases remoteAddr compId currentTimeMs now with
    | inl herror =>
      obtain ⟨e, herror⟩ := herror
      rw [herror]
      exact ⟨rfl, rfl⟩
    | inr hok =>
      obtain ⟨l₁, c, l₂, _, _, hok⟩ := hok
      rw [hok]
      exact ⟨rfl, Nat.add_right_comm _ _ _⟩
  | release connId =>
    obtain ⟨_, _, hacc⟩ := acc.retires_releaseConnection connId
    rw [call, hacc]
    exact ⟨rfl, rfl⟩
  | drain connId =>
    obtain ⟨_, _, hacc⟩ := acc.retires_drainConnection connId
    rw [call, hacc]
    exact ⟨rfl, rfl⟩
  | evict maxIdleMs currentTimeMs => exact ⟨rfl, rfl⟩

theorem length_call (acc : Acceptor) (c : Call)
    : (acc.call c).connections.length = acc.connections.length := by
  cases c with
  | accept remoteAddr compId currentTimeMs now =>
    rw [call]
    cases acc.acceptConnection_cases remoteAddr compId currentTimeMs now with
    | inl herror =>
      obtain ⟨e, herror⟩ := herror
      rw [herror]
      rfl
    | inr hok =>
      obtain ⟨l₁, c, l₂, hl, _, hok⟩ := hok
      rw [hok, hl]
      simp only [List.length_append, List.length_cons]
  | release connId =>
    obtain ⟨_, hretires, hacc⟩ := acc.retires_releaseConnection connId
    rw [call, hacc]
    exact hretires.length_eq.symm
  | drain connId =>
    obtain ⟨_, hretires, hacc⟩ := acc.retires_drainConnection connId
    rw [call, hacc]
    exact hretires.length_eq.symm
  | evict maxIdleMs currentTimeMs =>
    obtain ⟨_, hretires, hacc⟩ := acc.retires_evictIdle maxIdleMs currentTimeMs
    rw [call, hacc]
    exact hretires.length_eq.symm

-- A slot that is not available is active: none is ever closed.
theorem WellFormed.activeCount_add (hwf : acc.WellFormed)
    : acc.activeCount + acc.stats.poolAvailable = acc.connections.length := by
  have havailable : acc.stats.poolAvailable = acc.connections.countP (fun c => !c.isActive) := by
    apply List.countP_congr
    intro c hc
    have hactive := hwf.isActive_iff hc
    cases h : c.isActive with
    | true => simpa [h] using hactive
    | false => simpa [h] using hactive
  have hlength := List.length_eq_countP_add_countP (·.isActive) (l := acc.connections)
  rw [havailable, activeCount, hlength]
  congr 2
  funext c
  cases c.isActive with
  | false => rfl
  | true => rfl

-- The accounts after a run of calls.
structure Accounted (config : AcceptorConfig) (calls : List Call) : Prop where
  slots : (run config calls).connections.length = config.connectionPoolSize
  activeCount_add_available : (run config calls).activeCount + (run config calls).stats.poolAvailable
    = config.connectionPoolSize
  totalAccepted_eq : (run config calls).totalAccepted
    = (run config calls).activeCount + totalReleased config calls + totalEvicted config calls
  totalAccepted_add_totalRejected :
    (run config calls).totalAccepted + (run config calls).totalRejected
      = calls.countP Call.isAccept
  rejected : ∀ remoteAddr compId currentTimeMs now e acc',
    (run config calls).acceptConnection remoteAddr compId currentTimeMs now = (.error e, acc') →
      acc' = { run config calls with totalRejected := (run config calls).totalRejected + 1 }

theorem length_run (config : AcceptorConfig) (calls : List Call)
    : (run config calls).connections.length = config.connectionPoolSize := by
  have hnew : (new config).connections.length = config.connectionPoolSize := by
    rw [new, List.length_map, List.length_range]
  rw [← hnew]
  unfold run
  generalize new config = acc
  induction calls generalizing acc with
  | nil => rfl
  | cons c calls ih => rw [List.foldl_cons, ih, length_call]

theorem activeCount_new (config : AcceptorConfig) : (new config).activeCount = 0 := by
  rw [activeCount, List.countP_eq_zero]
  intro c hc
  obtain ⟨i, _, rfl⟩ := List.mem_map.mp hc
  exact Bool.false_ne_true

theorem accounted_run (config : AcceptorConfig) (calls : List Call) : Accounted config calls := by
  have hwf : (run config calls).WellFormed := ((isolated_new config).calls calls).toWellFormed
  have hactive := @Machine.balance_of_step _ _ call (new config) calls (Isolated config) activeCount
    accepts (fun acc c => acc.releases c + acc.evicts c) (isolated_new config)
    (fun _ c h => h.call c) (fun _ c h => activeCount_call h.toWellFormed c)
  have haccepted := @Machine.total_of_step _ _ call (new config) calls totalAccepted accepts
    fun acc c => (acc.totals_call c).1
  have htotal := @Machine.total_of_step _ _ call (new config) calls
    (fun acc => acc.totalAccepted + acc.totalRejected) (fun _ c => c.isAccept.toNat)
    fun acc c => (acc.totals_call c).2
  have hzero : (new config).totalAccepted = 0 := rfl
  rw [Machine.tally_add, activeCount_new, Nat.zero_add] at hactive
  rw [Machine.tally_eq_countP] at htotal
  rw [hzero, Nat.zero_add] at haccepted
  refine ⟨length_run config calls, ?_, ?_, ?_, ?_⟩
  . rw [hwf.activeCount_add, length_run]
  . rw [run, haccepted, ← hactive, totalReleased, totalEvicted, Nat.add_assoc]
  . rw [run, htotal]
    exact Nat.zero_add _
  . intro remoteAddr compId currentTimeMs now e acc' h
    exact acceptConnection_of_error h

end Acceptor

end Velocitas
