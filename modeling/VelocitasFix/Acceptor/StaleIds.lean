import VelocitasFix.Acceptor.Isolation
import VelocitasFix.Data.Counter

/-!
This module contains the proof that the id of a connection that has ended finds nothing any more: slots
are used again, ids are not as long as their counter has not gone around.
-/

namespace Velocitas

namespace PooledConnection

def Free (c : PooledConnection) : Prop := c.state = .available ∧ c.session = none

theorem free_clear (c : PooledConnection) : c.clear.Free := ⟨rfl, rfl⟩

end PooledConnection

namespace Acceptor

-- The counter of the ids is a `u64`, which wraps around.
def wrapped (acc : Acceptor) : Acceptor := { acc with nextConnId := acc.nextConnId % 2 ^ 64 }

inductive Op where
  | call (c : Call)
  | getSessionMut (connId : Nat) (write : Session → Session)
  | getConnectionMut (connId : Nat) (lastActiveMs bytesReceived bytesSent : UInt64)

def apply (acc : Acceptor) : Op → Acceptor
  | .call c => (acc.call c).wrapped
  | .getSessionMut connId write => acc.getSessionMut connId write
  | .getConnectionMut connId lastActiveMs bytesReceived bytesSent =>
    acc.getConnectionMut connId lastActiveMs bytesReceived bytesSent

-- The id that an operation returns for a new connection.
def issues (acc : Acceptor) : Op → List Nat
  | .call (.accept remoteAddr compId currentTimeMs now) =>
    match (acc.acceptConnection remoteAddr compId currentTimeMs now).1 with
    | .ok connId => [connId]
    | .error _ => []
  | _ => []

def issued : Acceptor → List Op → List Nat
  | _, [] => []
  | acc, op :: ops => acc.issues op ++ issued (acc.apply op) ops

-- The operation releases or evicts the connection with the id.
def Ends (acc : Acceptor) (connId : Nat) : Op → Prop
  | .call (.release id) => id = connId ∧ (acc.releaseConnection connId).1 = .ok ()
  | .call (.evict maxIdleMs currentTimeMs) =>
    ∃ c ∈ acc.connections, c.id = connId ∧ c.isIdle maxIdleMs currentTimeMs = true
  | _ => False

-- What the operations with the id of a connection find once it has ended.
structure NotFound (acc : Acceptor) (connId : Nat) : Prop where
  release : acc.releaseConnection connId = (.error (.connectionNotFound connId), acc)
  drain : acc.drainConnection connId = (.error (.connectionNotFound connId), acc)
  session : acc.getSession connId = none

-- The ids handed out so far are those of the counter, and every connection has one of its own.
structure Tracked (start : Nat) (acc : Acceptor) (ids : List Nat) : Prop where
  counter : acc.nextConnId = (start + ids.length) % 2 ^ 64
  ids_eq : ids = Counter.issued (2 ^ 64) start ids.length
  slots : ∀ c ∈ acc.connections, c.Free ∨ c.isActive = true ∧ c.id ∈ ids
  nodup : ((acc.connections.filter (·.isActive)).map (·.id)).Nodup

-- The slots that still have the id of an ended connection are free.
def Gone (acc : Acceptor) (connId : Nat) : Prop :=
  ∀ c ∈ acc.connections, c.id = connId → c.Free

-- What an operation other than an accept does to a slot that is free or active.
inductive Turns (c c' : PooledConnection) : Prop where
  | freed (hid : c'.id = c.id) (hfree : c'.Free)
  | busy (hid : c'.id = c.id) (hold : c.isActive = true) (hactive : c'.isActive = true)

section Turns

variable {l l' : List PooledConnection}

theorem Turns.id_eq {c c' : PooledConnection} (h : Turns c c') : c'.id = c.id := by
  cases h with
  | freed hid _ => exact hid
  | busy hid _ _ => exact hid

-- An active slot is not a free one that has been taken.
theorem Turns.of_isActive {c c' : PooledConnection} (h : Turns c c') (hactive : c'.isActive = true)
    : c.isActive = true := by
  cases h with
  | freed _ hfree =>
    rw [PooledConnection.isActive_of_available hfree.1] at hactive
    contradiction
  | busy _ hold _ => exact hold

theorem turns_self {c : PooledConnection} (h : c.Free ∨ c.isActive = true) : Turns c c := by
  cases h with
  | inl hfree => exact .freed rfl hfree
  | inr hactive => exact .busy rfl hactive hactive

theorem turns_of_retires {c c' : PooledConnection} (h : Retires c c')
    (hc : c.Free ∨ c.isActive = true) : Turns c c' := by
  cases h with
  | kept => exact turns_self hc
  | cleared => exact .freed rfl c.free_clear
  | drained hstate => exact .busy rfl (by simp [PooledConnection.isActive, hstate]) rfl

-- A write through a reference leaves the id and the state as they are.
theorem turns_of_write {c c' : PooledConnection} (hid : c'.id = c.id) (hstate : c'.state = c.state)
    (hsession : c.session = none → c'.session = none) (hc : c.Free ∨ c.isActive = true)
    : Turns c c' := by
  cases hc with
  | inl hfree => exact .freed hid ⟨hstate.trans hfree.1, hsession hfree.2⟩
  | inr hactive =>
    refine .busy hid hactive ?_
    rw [PooledConnection.isActive, hstate]
    exact hactive

theorem ids_of_turns (h : List.Forall₂ Turns l l')
    : ((l'.filter (·.isActive)).map (·.id)).Sublist ((l.filter (·.isActive)).map (·.id)) := by
  apply List.sublist_of_forall₂ _ h
  intro c c' hturn hactive
  exact ⟨hturn.of_isActive hactive, hturn.id_eq⟩

end Turns

-- The slots after an operation, and the id that it hands out.
inductive Effect (acc acc' : Acceptor) : List Nat → Prop where
  | turns (hturns : List.Forall₂ Turns acc.connections acc'.connections)
      (hnext : acc'.nextConnId = acc.nextConnId) : Effect acc acc' []
  | accepts (l₁ l₂ : List PooledConnection) (c c' : PooledConnection)
      (hl : acc.connections = l₁ ++ c :: l₂) (hfree : c.isActive = false)
      (hl' : acc'.connections = l₁ ++ c' :: l₂) (hid : c'.id = acc.nextConnId)
      (hactive : c'.isActive = true) (hnext : acc'.nextConnId = (acc.nextConnId + 1) % 2 ^ 64)
      : Effect acc acc' [acc.nextConnId]

section Step

variable {start connId : Nat} {acc acc' : Acceptor} {ids new : List Nat}

theorem Tracked.free_or_active (h : Tracked start acc ids) {c : PooledConnection}
    (hc : c ∈ acc.connections) : c.Free ∨ c.isActive = true := by
  cases h.slots c hc with
  | inl hfree => exact .inl hfree
  | inr hactive => exact .inr hactive.1

theorem Tracked.forall₂_of_retires (h : Tracked start acc ids) {l' : List PooledConnection}
    (hretires : List.Forall₂ Retires acc.connections l')
    : List.Forall₂ Turns acc.connections l' := by
  rw [List.forall₂_iff_zip] at hretires ⊢
  refine ⟨hretires.1, ?_⟩
  intro c c' hmem
  exact turns_of_retires (hretires.2 hmem) (h.free_or_active (List.of_mem_zip hmem).1)

theorem Tracked.wrapped_nextConnId (h : Tracked start acc ids)
    : acc.nextConnId % 2 ^ 64 = acc.nextConnId := by
  rw [h.counter, Nat.mod_mod]

theorem Tracked.effect (h : Tracked start acc ids) (op : Op)
    : Effect acc (acc.apply op) (acc.issues op) := by
  have hcounter := h.wrapped_nextConnId
  cases op with
  | call c =>
    cases c with
    | accept remoteAddr compId currentTimeMs now =>
      simp only [apply, issues, call]
      rcases acc.acceptConnection_cases remoteAddr compId currentTimeMs now with
        ⟨e, herror⟩ | ⟨l₁, c, l₂, hl, hstate, hok⟩
      . rw [herror]
        exact .turns (List.forall₂_same.mpr fun c hc => turns_self (h.free_or_active hc)) hcounter
      . rw [hok]
        exact .accepts l₁ l₂ c _ hl (PooledConnection.isActive_of_available hstate) rfl rfl rfl rfl
    | release id =>
      obtain ⟨l', hretires, hacc⟩ := acc.retires_releaseConnection id
      rw [apply, call, hacc]
      exact .turns (h.forall₂_of_retires hretires) hcounter
    | drain id =>
      obtain ⟨l', hretires, hacc⟩ := acc.retires_drainConnection id
      rw [apply, call, hacc]
      exact .turns (h.forall₂_of_retires hretires) hcounter
    | evict maxIdleMs currentTimeMs =>
      obtain ⟨l', hretires, hacc⟩ := acc.retires_evictIdle maxIdleMs currentTimeMs
      rw [apply, call, hacc]
      exact .turns (h.forall₂_of_retires hretires) hcounter
  | getSessionMut id write =>
    refine .turns ?_ rfl
    apply List.forall₂_modifyFirst fun c hc => turns_self (h.free_or_active hc)
    intro c hc
    refine turns_of_write rfl rfl ?_ (h.free_or_active hc)
    intro hnone
    rw [hnone]
    rfl
  | getConnectionMut id lastActiveMs bytesReceived bytesSent =>
    refine .turns ?_ rfl
    apply List.forall₂_modifyFirst fun c hc => turns_self (h.free_or_active hc)
    intro c hc
    exact turns_of_write rfl rfl (fun hnone => hnone) (h.free_or_active hc)

theorem Tracked.id_mem (h : Tracked start acc ids) {c : PooledConnection}
    (hc : c ∈ acc.connections) (hactive : c.isActive = true) : c.id ∈ ids := by
  rcases h.slots c hc with hfree | hmem
  . rw [PooledConnection.isActive_of_available hfree.1] at hactive
    contradiction
  . exact hmem.2

theorem Tracked.nextConnId_not_mem (h : Tracked start acc ids) (hlen : ids.length < 2 ^ 64)
    : acc.nextConnId ∉ ids := by
  rw [h.counter, h.ids_eq, Counter.length_issued]
  exact Counter.next_not_mem_issued hlen

theorem Tracked.of_turns (h : Tracked start acc ids)
    (hturns : List.Forall₂ Turns acc.connections acc'.connections)
    (hnext : acc'.nextConnId = acc.nextConnId) : Tracked start acc' ids where
  counter := hnext.trans h.counter
  ids_eq := h.ids_eq
  slots := by
    intro c' hc'
    obtain ⟨c, hc, hturn⟩ := List.exists_of_forall₂ hturns hc'
    cases hturn with
    | freed _ hfree => exact .inl hfree
    | busy hid hold hactive =>
      rw [hid]
      exact .inr ⟨hactive, h.id_mem hc hold⟩
  nodup := (ids_of_turns hturns).nodup h.nodup

theorem Tracked.of_accepts (h : Tracked start acc ids) {l₁ l₂ : List PooledConnection}
    {c c' : PooledConnection} (hl : acc.connections = l₁ ++ c :: l₂) (hfree : c.isActive = false)
    (hl' : acc'.connections = l₁ ++ c' :: l₂) (hid : c'.id = acc.nextConnId)
    (hactive : c'.isActive = true) (hnext : acc'.nextConnId = (acc.nextConnId + 1) % 2 ^ 64)
    (hlen : ids.length < 2 ^ 64) : Tracked start acc' (ids ++ [acc.nextConnId]) where
  counter := by
    rw [hnext, h.counter, Nat.mod_add_mod, List.length_append, List.length_singleton,
      Nat.add_assoc]
  ids_eq := by
    rw [List.length_append, List.length_singleton, Counter.issued_succ, ← h.ids_eq, h.counter]
  slots := by
    have hold (x : PooledConnection) (hx : x ∈ l₁ ∨ x ∈ l₂)
        : x.Free ∨ x.isActive = true ∧ x.id ∈ ids ++ [acc.nextConnId] := by
      refine (h.slots x ?_).imp_right fun hx => ⟨hx.1, List.mem_append_left _ hx.2⟩
      rw [hl, List.mem_append, List.mem_cons]
      tauto
    intro x hx
    rw [hl', List.mem_append, List.mem_cons] at hx
    rcases hx with hx | rfl | hx
    . exact hold x (.inl hx)
    . rw [hid]
      exact .inr ⟨hactive, by simp⟩
    . exact hold x (.inr hx)
  nodup := by
    have hnodup := h.nodup
    rw [hl, List.filter_append, List.filter_cons_of_neg (by simp [hfree]), ← List.filter_append]
      at hnodup
    rw [hl', List.filter_append, List.filter_cons_of_pos hactive, List.map_append, List.map_cons,
      List.nodup_middle, List.nodup_cons, ← List.map_append, ← List.filter_append, hid]
    refine ⟨?_, hnodup⟩
    intro hmem
    obtain ⟨x, hx, hxid⟩ := List.mem_map.mp hmem
    rw [List.mem_filter, List.mem_append] at hx
    have hmem : x ∈ acc.connections := by
      rw [hl, List.mem_append, List.mem_cons]
      tauto
    exact h.nextConnId_not_mem hlen (hxid ▸ h.id_mem hmem hx.2)

theorem Tracked.of_effect (h : Tracked start acc ids) (heffect : Effect acc acc' new)
    (hlen : (ids ++ new).length ≤ 2 ^ 64) : Tracked start acc' (ids ++ new) := by
  cases heffect with
  | turns hturns hnext =>
    rw [List.append_nil]
    exact h.of_turns hturns hnext
  | accepts l₁ l₂ c c' hl hfree hl' hid hactive hnext =>
    rw [List.length_append, List.length_singleton] at hlen
    exact h.of_accepts hl hfree hl' hid hactive hnext hlen

theorem Gone.of_effect (h : Tracked start acc ids) (hmem : connId ∈ ids) (hgone : acc.Gone connId)
    (heffect : Effect acc acc' new) (hlen : (ids ++ new).length ≤ 2 ^ 64) : acc'.Gone connId := by
  cases heffect with
  | turns hturns _ =>
    intro c' hc' hid
    obtain ⟨c, hc, hturn⟩ := List.exists_of_forall₂ hturns hc'
    rw [hturn.id_eq] at hid
    cases hturn with
    | freed _ hfree => exact hfree
    | busy _ hold _ =>
      rw [PooledConnection.isActive_of_available (hgone c hc hid).1] at hold
      contradiction
  | accepts l₁ l₂ c c' hl _ hl' hid _ _ =>
    rw [List.length_append, List.length_singleton] at hlen
    intro x hx hxid
    rw [hl', List.mem_append, List.mem_cons] at hx
    have hold (hx : x ∈ l₁ ∨ x ∈ l₂) : x.Free := by
      apply hgone x _ hxid
      rw [hl, List.mem_append, List.mem_cons]
      tauto
    rcases hx with hx | rfl | hx
    . exact hold (.inl hx)
    -- The id of the new connection was not handed out before.
    . rw [← hxid, hid] at hmem
      exact absurd hmem (h.nextConnId_not_mem hlen)
    . exact hold (.inr hx)

-- The other slots with the id of an active one are free.
theorem Tracked.free_of_ne (h : Tracked start acc ids) {l₁ l₂ : List PooledConnection}
    {c x : PooledConnection} (hl : acc.connections = l₁ ++ c :: l₂) (hactive : c.isActive = true)
    (hx : x ∈ l₁ ++ l₂) (hid : x.id = c.id) : x.Free := by
  have hnodup := h.nodup
  rw [hl, List.filter_append, List.filter_cons_of_pos hactive, List.map_append, List.map_cons,
    List.nodup_middle, List.nodup_cons, ← List.map_append, ← List.filter_append] at hnodup
  have hmem : x ∈ acc.connections := by
    rw [List.mem_append] at hx
    rw [hl, List.mem_append, List.mem_cons]
    tauto
  rcases h.free_or_active hmem with hfree | hxactive
  . exact hfree
  . exact absurd (List.mem_map.mpr ⟨x, List.mem_filter.mpr ⟨hx, hxactive⟩, hid⟩) hnodup.1

theorem Tracked.gone_releaseConnection (h : Tracked start acc ids)
    (hok : (acc.releaseConnection connId).1 = .ok ())
    : connId ∈ ids ∧ (acc.releaseConnection connId).2.Gone connId := by
  unfold releaseConnection at hok ⊢
  split at hok
  . next connections hmodified =>
    obtain ⟨l₁, c, l₂, hl, rfl, hp, _⟩ := List.exists_of_modifyFirst hmodified
    simp only [decide_eq_true_eq] at hp
    have hc : c ∈ acc.connections := by
      rw [hl]
      simp
    have hactive : c.isActive = true := by
      rcases h.free_or_active hc with hfree | hactive
      . exact absurd hfree.1 hp.2
      . exact hactive
    refine ⟨hp.1 ▸ h.id_mem hc hactive, ?_⟩
    intro x hx hid
    change x ∈ l₁ ++ c.clear :: l₂ at hx
    rw [List.mem_append, List.mem_cons] at hx
    rcases hx with hx | rfl | hx
    . exact h.free_of_ne hl hactive (List.mem_append_left _ hx) (hid.trans hp.1.symm)
    . exact c.free_clear
    . exact h.free_of_ne hl hactive (List.mem_append_right _ hx) (hid.trans hp.1.symm)
  . exact nomatch hok

theorem Tracked.gone_evictIdle (h : Tracked start acc ids) {c : PooledConnection}
    {maxIdleMs currentTimeMs : UInt64} (hc : c ∈ acc.connections) (hid : c.id = connId)
    (hidle : c.isIdle maxIdleMs currentTimeMs = true)
    : connId ∈ ids ∧ (acc.evictIdle maxIdleMs currentTimeMs).2.Gone connId := by
  have hactive : c.isActive = true := by
    unfold PooledConnection.isIdle at hidle
    simp only [decide_eq_true_eq] at hidle
    simp [PooledConnection.isActive, hidle.1]
  refine ⟨hid ▸ h.id_mem hc hactive, ?_⟩
  obtain ⟨l₁, l₂, hl⟩ := List.append_of_mem hc
  intro x' hx' hid'
  obtain ⟨x, hx, rfl⟩ := List.mem_map.mp hx'
  split
  . exact x.free_clear
  . next hkept =>
    rw [if_neg hkept] at hid'
    rw [hl, List.mem_append, List.mem_cons] at hx
    rcases hx with hx | rfl | hx
    . exact h.free_of_ne hl hactive (List.mem_append_left _ hx) (hid'.trans hid.symm)
    . exact absurd hidle hkept
    . exact h.free_of_ne hl hactive (List.mem_append_right _ hx) (hid'.trans hid.symm)

theorem Tracked.gone_of_ends (h : Tracked start acc ids) {op : Op} (hends : acc.Ends connId op)
    : connId ∈ ids ∧ (acc.apply op).Gone connId := by
  match op, hends with
  | .call (.release _), ⟨rfl, hok⟩ => exact h.gone_releaseConnection hok
  | .call (.evict _ _), ⟨_, hc, hid, hidle⟩ => exact h.gone_evictIdle hc hid hidle

-- A search for the id of an ended connection finds no slot, or one that is free.
theorem Gone.notFound (h : acc.Gone connId) : acc.NotFound connId where
  release := by
    have hnone : acc.connections.modifyFirst (fun c => c.id = connId ∧ c.state ≠ .available) .clear
        = none := by
      rw [List.modifyFirst_eq_none]
      intro c hc
      simp only [decide_eq_false_iff_not, not_and, not_not]
      exact fun hid => (h c hc hid).1
    rw [releaseConnection, hnone]
  drain := by
    rw [drainConnection]
    split
    . next c hfind =>
      have hfree := h c (List.mem_of_find?_eq_some hfind) (by simpa using List.find?_some hfind)
      rw [if_neg (by rw [hfree.1]; exact nofun)]
    . rfl
  session := by
    rw [getSession, Option.bind_eq_none_iff]
    intro c hfind
    exact (h c (List.mem_of_find?_eq_some hfind) (by simpa using List.find?_some hfind)).2

end Step

section Run

variable {start connId : Nat} {acc : Acceptor} {ids : List Nat}

theorem issued_append (acc : Acceptor) (ops later : List Op)
    : issued acc (ops ++ later) = issued acc ops ++ issued (ops.foldl apply acc) later := by
  induction ops generalizing acc with
  | nil => rfl
  | cons op ops ih => rw [List.cons_append, issued, ih, issued, List.append_assoc, List.foldl_cons]

theorem Tracked.run (h : Tracked start acc ids) (ops : List Op)
    (hlen : (ids ++ issued acc ops).length ≤ 2 ^ 64)
    : Tracked start (ops.foldl apply acc) (ids ++ issued acc ops) := by
  induction ops generalizing acc ids with
  | nil =>
    rw [issued, List.append_nil]
    exact h
  | cons op ops ih =>
    rw [issued, ← List.append_assoc] at hlen ⊢
    refine ih (h.of_effect (h.effect op) ?_) hlen
    rw [List.length_append] at hlen
    omega

theorem Gone.run (h : Tracked start acc ids) (hmem : connId ∈ ids) (hgone : acc.Gone connId)
    {ops : List Op} (hlen : (ids ++ issued acc ops).length ≤ 2 ^ 64)
    : (ops.foldl apply acc).Gone connId := by
  induction ops generalizing acc ids with
  | nil => exact hgone
  | cons op ops ih =>
    rw [issued, ← List.append_assoc] at hlen
    have hstep : (ids ++ acc.issues op).length ≤ 2 ^ 64 := by
      rw [List.length_append] at hlen
      omega
    apply ih (h.of_effect (h.effect op) hstep) (List.mem_append_left _ hmem) _ hlen
    exact hgone.of_effect h hmem (h.effect op) hstep

theorem tracked_new (config : AcceptorConfig)
    : Tracked config.connectionPoolSize (new config).wrapped [] where
  counter := rfl
  ids_eq := rfl
  slots := by
    intro c hc
    obtain ⟨i, _, rfl⟩ := List.mem_map.mp hc
    exact .inl ⟨rfl, rfl⟩
  nodup := by
    have hnone : (new config).connections.filter (·.isActive) = [] := by
      rw [List.filter_eq_nil_iff]
      intro c hc
      obtain ⟨i, _, rfl⟩ := List.mem_map.mp hc
      exact Bool.false_ne_true
    change (((new config).connections.filter (·.isActive)).map (·.id)).Nodup
    rw [hnone]
    exact List.nodup_nil

end Run

theorem stale_ids_harmless (config : AcceptorConfig) (ops : List Op)
    (h : (issued (new config).wrapped ops).length < 2 ^ 64)
    : (issued (new config).wrapped ops).Nodup
        ∧ ∀ pre op post connId, pre ++ op :: post = ops →
          (pre.foldl apply (new config).wrapped).Ends connId op →
            (ops.foldl apply (new config).wrapped).NotFound connId := by
  have hnew := tracked_new config
  constructor
  . have hids := (hnew.run ops (Nat.le_of_lt h)).ids_eq
    rw [List.nil_append] at hids
    rw [hids]
    exact Counter.nodup_issued (Nat.le_of_lt h)
  . rintro pre op post connId rfl hends
    rw [issued_append, issued, ← List.append_assoc] at h
    have hle := Nat.le_of_lt h
    rw [List.length_append, List.length_append] at h
    have hpre := hnew.run pre (by rw [List.nil_append]; omega)
    rw [List.nil_append] at hpre
    obtain ⟨hmem, hgone⟩ := hpre.gone_of_ends hends
    have hop := hpre.of_effect (hpre.effect op) (by rw [List.length_append]; omega)
    rw [List.foldl_append, List.foldl_cons]
    exact (hgone.run hop (List.mem_append_left _ hmem) hle).notFound

-- The slot of the first client is given to the second one.
theorem stale_ids_harmless_reused
    : (issued (new { AcceptorConfig.default with connectionPoolSize := 1 }).wrapped
          [.call (.accept [] (ascii "A") 0 0), .call (.release 1),
            .call (.accept [] (ascii "B") 0 0)]).Nodup
        ∧ ([Op.call (.accept [] (ascii "A") 0 0), .call (.release 1),
            .call (.accept [] (ascii "B") 0 0)].foldl apply
          (new { AcceptorConfig.default with connectionPoolSize := 1 }).wrapped).NotFound 1 := by
  have hrun := stale_ids_harmless { AcceptorConfig.default with connectionPoolSize := 1 }
    [.call (.accept [] (ascii "A") 0 0), .call (.release 1), .call (.accept [] (ascii "B") 0 0)]
    (by decide +kernel)
  exact ⟨hrun.1, hrun.2 [.call (.accept [] (ascii "A") 0 0)] (.call (.release 1))
    [.call (.accept [] (ascii "B") 0 0)] 1 rfl ⟨rfl, by with_unfolding_all rfl⟩⟩

end Acceptor

end Velocitas
