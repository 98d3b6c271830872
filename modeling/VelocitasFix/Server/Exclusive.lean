import VelocitasFix.Acceptor.Limit
import VelocitasFix.Server.Release

/-!
This module contains what the server guarantees about whom it serves, in whatever order the threads of
the connections take their steps: no counterparty is served twice at a time, each one that is served
may connect and has a slot of the pool and a session of its own, and the totals of the acceptor count
the connections that were let in and those that were turned away.
-/

theorem List.countP_set_add {α : Type} {l : List α} {i : Nat} {a b : α} {p : α → Bool}
    (h : l[i]? = some a)
    : (l.set i b).countP p + (p a).toNat = l.countP p + (p b).toNat := by
  obtain ⟨hlt, ha⟩ := List.getElem?_eq_some_iff.mp h
  rw [List.countP_set hlt, ha, Bool.toNat, Bool.toNat, Bool.cond_eq_ite, Bool.cond_eq_ite]
  cases hpa : p a with
  | false => simp
  | true =>
    have hpos : 0 < l.countP p := List.countP_pos_iff.mpr ⟨a, List.mem_of_getElem? h, hpa⟩
    simp only [↓reduceIte]
    omega

namespace Velocitas

namespace Acceptor

variable {acc acc' : Acceptor} {connId id : Nat} {remoteAddr compId owner : Bytes}
  {currentTimeMs : UInt64} {now : Instant}

-- The slot with the id is the one of the counterparty.
def Owns (acc : Acceptor) (id : Nat) (owner : Bytes) : Prop :=
  ∃ c ∈ acc.connections, c.id = id ∧ c.isActive = true ∧ c.remoteCompId = owner

theorem Owns.mem_owners (h : acc.Owns id owner) : owner ∈ acc.owners := by
  obtain ⟨c, hc, _, hactive, howner⟩ := h
  apply List.mem_map.mpr
  exact ⟨c, List.mem_filter.mpr ⟨hc, hactive⟩, howner⟩

theorem Owns.acceptConnection (h : acc.Owns id owner)
    (haccept : acc.acceptConnection remoteAddr compId currentTimeMs now = (.ok connId, acc'))
    : acc'.Owns id owner := by
  obtain ⟨_, _, l₁, free, l₂, hl, hstate, hl'⟩ := exists_of_acceptConnection haccept
  obtain ⟨c, hc, hid, hactive, howner⟩ := h
  refine ⟨c, ?_, hid, hactive, howner⟩
  rw [hl, List.mem_append, List.mem_cons] at hc
  rw [hl', List.mem_append, List.mem_cons]
  rcases hc with hc | hc | hc
  . exact .inl hc
  . rw [hc, PooledConnection.isActive_of_available hstate] at hactive
    contradiction
  . exact .inr (.inr hc)

theorem owns_acceptConnection
    (haccept : acc.acceptConnection remoteAddr compId currentTimeMs now = (.ok connId, acc'))
    : acc'.Owns connId compId := by
  obtain ⟨hid, _, l₁, _, l₂, _, _, hl'⟩ := exists_of_acceptConnection haccept
  refine ⟨acc.occupied remoteAddr compId currentTimeMs now, ?_, hid.symm, rfl, rfl⟩
  rw [hl']
  apply List.mem_append_right
  apply List.mem_cons_self

theorem Owns.releaseConnection (h : acc.Owns id owner) (hne : id ≠ connId)
    : (acc.releaseConnection connId).2.Owns id owner := by
  cases acc.releaseConnection_cases connId with
  | inl hnone =>
    rw [hnone.1]
    exact h
  | inr hsome =>
    obtain ⟨l₁, freed, l₂, hl, hfreed, hacc⟩ := hsome
    obtain ⟨c, hc, hid, hactive, howner⟩ := h
    rw [hacc]
    refine ⟨c, ?_, hid, hactive, howner⟩
    rw [hl, List.mem_append, List.mem_cons] at hc
    rw [List.mem_append, List.mem_cons]
    rcases hc with hc | hc | hc
    . exact .inl hc
    . rw [hc, hfreed] at hid
      exact absurd hid.symm hne
    . exact .inr (.inr hc)

-- No counterparty has two slots.
theorem Isolated.eq_of_owns {config : AcceptorConfig} (hiso : Isolated config acc)
    (h : acc.Owns id owner) (h' : acc.Owns connId owner)
    : id = connId := by
  obtain ⟨c, hc, hid, hactive, howner⟩ := h
  obtain ⟨c', hc', hid', hactive', howner'⟩ := h'
  have hinj := List.inj_on_of_nodup_map hiso.owners
  have heq := hinj (List.mem_filter.mpr ⟨hc, hactive⟩) (List.mem_filter.mpr ⟨hc', hactive'⟩)
    (howner.trans howner'.symm)
  rw [← hid, ← hid', heq]

end Acceptor

variable {S A : Type}

namespace Thread

-- The counterparty that the thread serves, with the slot that it does so in.
def serves : Thread S A → Option (Nat × Bytes)
  | .connected _ _ => none
  | .logonRead _ _ _ => none
  | .registered connId logonCompId _ => some (connId, logonCompId)
  | .running connId s => some (connId, s.engine.ctx.session.config.targetCompId)
  | .returned _ _ => none
  | .panicked _ => none

def counterparty (thread : Thread S A) : Option Bytes := thread.serves.map (·.2)

-- The acceptor turned the connection away.
def denied : Thread S A → Bool
  | .returned _ (.error (.denied _)) => true
  | _ => false

-- A running session has the configuration that the server gives the sessions of its counterparty.
def Configured (config : FixServerConfig) : Thread S A → Prop
  | .running connId s => s.engine.parser = .new
      ∧ s.engine.ctx.session.config
        = config.sessionConfig connId s.engine.ctx.session.config.targetCompId
  | _ => True

theorem connId_of_serves {thread : Thread S A} {id : Nat} {owner : Bytes}
    (h : thread.serves = some (id, owner))
    : thread.connId = some id := by
  cases thread with
  | connected remote stream => contradiction
  | logonRead remote logonCompId stream => contradiction
  | registered connId logonCompId stream =>
    injection h with h
    exact congrArg (some ·.1) h
  | running connId s =>
    injection h with h
    exact congrArg (some ·.1) h
  | returned connId res => contradiction
  | panicked connId => contradiction

variable [TcpStream S]

section SetUp

variable {config : FixServerConfig} {env : Env A} {connId : Nat} {logonCompId : Bytes} {stream : S}

theorem setUp_configured
    : (setUp config env connId logonCompId stream).Configured config
        ∧ ((setUp config env connId logonCompId stream).serves = none
          ∨ (setUp config env connId logonCompId stream).serves = some (connId, logonCompId)) := by
  unfold setUp
  split
  . exact ⟨trivial, .inl rfl⟩
  . next transport _ =>
    let e : FixEngine (StdTcpTransport S) :=
      .new transport (.new (config.sessionConfig connId logonCompId) env.now) env.clock
    have hbefore := e.sends_connect.trans (FixEngine.sends_onLogon _)
    have hsends := ((e.connect.atInstant .onLogon).record .handledLogon).sendLogon_sends
    have hlogon : e.handleInboundLogon.state.parser = e.parser
        ∧ e.handleInboundLogon.state.ctx.session.config = e.ctx.session.config :=
      ⟨hsends.parser.trans hbefore.parser, hsends.config.trans hbefore.config⟩
    dsimp only
    cases hout : e.handleInboundLogon with
    | next engine =>
      rw [hout] at hlogon
      have hparser : engine.parser = .new := hlogon.1
      have hconfig : engine.ctx.session.config = config.sessionConfig connId logonCompId :=
        hlogon.2
      have htarget : engine.ctx.session.config.targetCompId = logonCompId := by
        rw [hconfig]
        rfl
      refine ⟨⟨hparser, ?_⟩, .inr ?_⟩
      . change engine.ctx.session.config
          = config.sessionConfig connId engine.ctx.session.config.targetCompId
        rw [htarget, hconfig]
      . change some (connId, engine.ctx.session.config.targetCompId) = _
        rw [htarget]
    | halt reason engine =>
      cases reason with
      | error err => exact ⟨trivial, .inl rfl⟩
      | panic => exact ⟨trivial, .inl rfl⟩

end SetUp

variable {config : FixServerConfig} (env : Env A) (app : FixApp A) (acc : Acceptor)

theorem run_configured {connId : Nat} {s : RunState (StdTcpTransport S) A}
    (h : (running connId s).Configured config)
    : (run app acc connId s).2.Configured config
        ∧ ((run app acc connId s).2.serves = none
          ∨ (run app acc connId s).2.serves = (running connId s).serves
            ∧ (run app acc connId s).1 = acc) := by
  have hconfig : (s.step app).engine.parser = s.engine.parser
      ∧ (s.step app).engine.ctx.session.config = s.engine.ctx.session.config := by
    cases RunState.step_cases app h.1 with
    | inl hidle =>
      obtain ⟨_, hidle⟩ := hidle
      exact ⟨hidle.parser, hidle.config⟩
    | inr htook =>
      obtain ⟨_, _, htook⟩ := htook
      exact ⟨htook.parser, htook.config⟩
  have hstep : (running connId (s.step app)).Configured config
      ∧ (running connId (s.step app)).serves = (running connId s).serves := by
    refine ⟨⟨hconfig.1.trans h.1, ?_⟩, ?_⟩
    . rw [hconfig.2]
      exact h.2
    . rw [serves, hconfig.2]
      rfl
  unfold run
  cases s.phase with
  | poll => exact ⟨hstep.1, .inr ⟨hstep.2, rfl⟩⟩
  | process => exact ⟨hstep.1, .inr ⟨hstep.2, rfl⟩⟩
  | returned res => exact ⟨trivial, .inl rfl⟩
  | panicked => exact ⟨trivial, .inl rfl⟩

-- The errors of the read of the Logon are not those of the acceptor.
theorem logonCompId_ne_denied (parser : FixParser) (frame : Bytes) (e : AcceptorError)
    : parser.logonCompId frame ≠ .error (.denied e) := by
  unfold FixParser.logonCompId
  repeat' split
  all_goals exact nofun

theorem readLogon_ne_denied (parser : FixParser) (stream : S) (pre : Bytes) (e : AcceptorError)
    : (readLogon parser stream pre).1 ≠ .error (.denied e) := by
  fun_induction readLogon parser stream pre with
  | case1 => exact nofun
  | case2 => exact nofun
  | case3 => apply logonCompId_ne_denied
  | case4 _ _ _ _ _ _ _ ih => exact ih

theorem preRead_ne_denied (remote : Bytes) (stream : S)
    : (preRead remote stream : Thread S A).denied = false := by
  unfold preRead
  split
  . rfl
  . split
    . rfl
    . split
      . next e _ hread =>
        cases e with
        | denied e => exact absurd (congrArg Prod.fst hread) (readLogon_ne_denied _ _ _ e)
        | _ => rfl
      . rfl

-- A thread serves whom it served, or whom the acceptor has just given a slot, or no one.
theorem step_configured {thread : Thread S A} (h : thread.Configured config)
    : (thread.step config app env acc).2.Configured config
        ∧ ∀ id owner, (thread.step config app env acc).2.serves = some (id, owner) →
          thread.serves = some (id, owner) ∧ (thread.step config app env acc).1 = acc
          ∨ (thread.step config app env acc).1.Owns id owner := by
  cases thread with
  | connected remote stream =>
    have hnone : (preRead remote stream : Thread S A).Configured config
        ∧ (preRead remote stream : Thread S A).serves = none := by
      unfold preRead
      repeat' split
      all_goals exact ⟨trivial, rfl⟩
    refine ⟨hnone.1, ?_⟩
    intro id owner hserves
    exact nomatch hnone.2.symm.trans hserves
  | logonRead remote logonCompId stream =>
    unfold step register
    dsimp only
    cases haccept : acc.acceptConnection remote logonCompId env.nowMs env.now with
    | mk res acc' =>
      cases res with
      | error e => exact ⟨trivial, fun _ _ => nofun⟩
      | ok connId =>
        refine ⟨trivial, ?_⟩
        intro id owner hserves
        injection hserves with hserves
        injection hserves with hid howner
        rw [← hid, ← howner]
        exact .inr (Acceptor.owns_acceptConnection haccept)
  | registered connId logonCompId stream =>
    obtain ⟨hconfigured, hcases⟩ :=
      @setUp_configured _ _ _ config env connId logonCompId stream
    refine ⟨hconfigured, ?_⟩
    intro id owner hserves
    cases hcases with
    | inl hnone => exact nomatch hnone.symm.trans hserves
    | inr hsame => exact .inl ⟨hsame.symm.trans hserves, rfl⟩
  | running connId s =>
    obtain ⟨hconfigured, hcases⟩ := run_configured app acc h
    refine ⟨hconfigured, ?_⟩
    intro id owner hserves
    cases hcases with
    | inl hnone => exact nomatch hnone.symm.trans hserves
    | inr hsame => exact .inl ⟨hsame.1.symm.trans hserves, hsame.2⟩
  | returned connId res => exact ⟨trivial, fun _ _ => nofun⟩
  | panicked connId => exact ⟨trivial, fun _ _ => nofun⟩

-- The thread called the acceptor, and the totals counted what became of its connection.
structure Counted (acc : Acceptor) (thread : Thread S A) (acc' : Acceptor) (thread' : Thread S A)
    : Prop where
  calls : ∃ calls : List Acceptor.Call, acc' = calls.foldl .call acc
  accepted : acc'.totalAccepted + thread.connId.isSome.toNat
    = acc.totalAccepted + thread'.connId.isSome.toNat
  rejected : acc'.totalRejected + thread.denied.toNat
    = acc.totalRejected + thread'.denied.toNat

theorem step_counted (thread : Thread S A)
    : Counted acc thread (thread.step config app env acc).1 (thread.step config app env acc).2 := by
  cases thread with
  | connected remote stream =>
    refine ⟨⟨[], rfl⟩, ?_, ?_⟩
    . change _ = _ + (preRead remote stream : Thread S A).connId.isSome.toNat
      rw [(preRead_ids stream remote).1]
      rfl
    . change _ = _ + (preRead remote stream : Thread S A).denied.toNat
      rw [preRead_ne_denied]
      rfl
  | logonRead remote logonCompId stream =>
    change Counted acc _ (register env acc remote logonCompId stream).1
      (register env acc remote logonCompId stream).2
    have hcall : (acc.acceptConnection remote logonCompId env.nowMs env.now).2
        = acc.call (.accept remote logonCompId env.nowMs env.now) := rfl
    unfold register
    cases acc.acceptConnection_cases remote logonCompId env.nowMs env.now with
    | inl herror =>
      obtain ⟨e, herror⟩ := herror
      rw [herror] at hcall ⊢
      exact ⟨⟨[.accept remote logonCompId env.nowMs env.now], hcall⟩, rfl, rfl⟩
    | inr hok =>
      obtain ⟨_, _, _, _, _, hok⟩ := hok
      rw [hok] at hcall ⊢
      exact ⟨⟨[.accept remote logonCompId env.nowMs env.now], hcall⟩, rfl, rfl⟩
  | registered connId logonCompId stream =>
    change Counted acc _ acc (setUp config env connId logonCompId stream)
    have hsetUp := setUp_result config env connId logonCompId stream
    generalize setUp config env connId logonCompId stream = thread at hsetUp
    cases hsetUp with
    | refused => exact ⟨⟨[], rfl⟩, rfl, rfl⟩
    | started => exact ⟨⟨[], rfl⟩, rfl, rfl⟩
    | panicked => exact ⟨⟨[], rfl⟩, rfl, rfl⟩
  | running connId s =>
    change Counted acc _ (run app acc connId s).1 (run app acc connId s).2
    unfold run
    cases s.phase with
    | poll => exact ⟨⟨[], rfl⟩, rfl, rfl⟩
    | process => exact ⟨⟨[], rfl⟩, rfl, rfl⟩
    | returned res =>
      have hcall : (acc.releaseConnection connId).2 = acc.call (.release connId) := rfl
      obtain ⟨_, _, hacc⟩ := acc.retires_releaseConnection connId
      dsimp only
      rw [hacc] at hcall ⊢
      cases res with
      | ok _ => exact ⟨⟨[.release connId], hcall⟩, rfl, rfl⟩
      | error e => exact ⟨⟨[.release connId], hcall⟩, rfl, rfl⟩
    | panicked => exact ⟨⟨[], rfl⟩, rfl, rfl⟩
  | returned connId res => exact ⟨⟨[], rfl⟩, rfl, rfl⟩
  | panicked connId => exact ⟨⟨[], rfl⟩, rfl, rfl⟩

omit [TcpStream S] in
-- A step leaves the slots of the other threads to their counterparties.
theorem Stepped.owns {env : Env A} {acc acc' : Acceptor} {thread thread' : Thread S A} {id : Nat}
    {owner : Bytes} (h : Stepped env acc thread acc' thread') (hne : thread.connId ≠ some id)
    (howns : acc.Owns id owner)
    : acc'.Owns id owner := by
  cases h with
  | kept hacc =>
    cases hacc with
    | inl hacc =>
      rw [hacc]
      exact howns
    | inr hacc =>
      rw [hacc]
      exact howns
  | granted _ haccept => exact howns.acceptConnection haccept
  | released _ hthread =>
    apply howns.releaseConnection
    intro heq
    rw [hthread, heq] at hne
    exact hne rfl

end Thread

namespace FixServer

-- What the threads and the acceptor keep up together.
structure Orderly (config : FixServerConfig) (server : FixServer S A) : Prop
    extends server.Consistent where
  isolated : server.acceptor.Isolated config.acceptorConfig
  slots : server.acceptor.connections.length = config.connectionPoolSize
  configured : ∀ thread ∈ server.threads, thread.Configured config
  owns : ∀ {i : Nat} {thread : Thread S A} {id : Nat} {owner : Bytes},
    server.threads[i]? = some thread → thread.serves = some (id, owner) →
      server.acceptor.Owns id owner
  accepted : server.acceptor.totalAccepted = server.threads.countP (·.connId.isSome)
  rejected : server.acceptor.totalRejected = server.threads.countP Thread.denied

variable [TcpStream S] (config : FixServerConfig) (app : FixApp A)

omit [TcpStream S] in
theorem orderly_new : (new config : FixServer S A).Orderly config where
  toConsistent := consistent_new config
  isolated := Acceptor.isolated_new _
  slots := Acceptor.length_run config.acceptorConfig []
  configured := by simp [new]
  owns := by simp [new]
  accepted := rfl
  rejected := rfl

variable {config app}

theorem Orderly.advance {server : FixServer S A} (h : server.Orderly config) {i : Nat} {env : Env A}
    {thread : Thread S A} (hthread : server.threads[i]? = some thread)
    : (⟨(thread.step config app env server.acceptor).1,
        server.threads.set i (thread.step config app env server.acceptor).2⟩
          : FixServer S A).Orderly config := by
  have hstepped := thread.step_stepped config env app server.acceptor
  have hmem := List.mem_of_getElem? hthread
  obtain ⟨hconfigured, hserves⟩ :=
    Thread.step_configured env app server.acceptor (h.configured thread hmem)
  obtain ⟨⟨calls, hcalls⟩, haccepted, hrejected⟩ :=
    @Thread.step_counted _ _ _ config env app server.acceptor thread
  have hconsistent := h.toConsistent.advance hthread hstepped
  generalize thread.step config app env server.acceptor = stepped at *
  obtain ⟨acc', thread'⟩ := stepped
  dsimp only at *
  have hlt := (List.getElem?_eq_some_iff.mp hthread).1
  refine ⟨hconsistent, ?_, ?_, ?_, ?_, ?_, ?_⟩
  . dsimp only
    rw [hcalls]
    exact h.isolated.calls calls
  . dsimp only
    rw [hcalls]
    apply @Machine.run_of_step _ _ Acceptor.call _ calls
      (fun acc => acc.connections.length = config.connectionPoolSize) h.slots
    intro acc call hacc
    exact (acc.length_call call).trans hacc
  . intro other hother
    cases List.mem_or_eq_of_mem_set hother with
    | inl hold => exact h.configured other hold
    | inr hnew =>
      rw [hnew]
      exact hconfigured
  . intro j other id owner hother hid
    by_cases hj : i = j
    . rw [← hj, List.getElem?_set_self hlt] at hother
      injection hother with hother
      rw [← hother] at hid
      cases hserves id owner hid with
      | inl hsame =>
        have howns := h.owns hthread hsame.1
        rw [← hsame.2] at howns
        exact howns
      | inr hgranted => exact hgranted
    . rw [List.getElem?_set_ne hj] at hother
      apply hstepped.owns
      . intro heq
        exact hj (h.distinct hthread hother heq (Thread.connId_of_serves hid))
      . exact h.owns hother hid
  . have hcount := List.countP_set_add (p := fun th => th.connId.isSome) hthread (b := thread')
    have hbefore := h.accepted
    dsimp only at hcount ⊢
    omega
  . have hcount := List.countP_set_add (p := Thread.denied) hthread (b := thread')
    have hbefore := h.rejected
    dsimp only
    omega

theorem Orderly.step {server : FixServer S A} (h : server.Orderly config) (move : Move S A)
    : (server.step config app move).Orderly config := by
  cases move with
  | accept remote stream =>
    have hold {i : Nat} {thread : Thread S A} {id : Nat} {owner : Bytes}
        (hthread : (server.threads ++ [.connected remote stream])[i]? = some thread)
        (hserves : thread.serves = some (id, owner))
        : server.threads[i]? = some thread := by
      rw [List.getElem?_append] at hthread
      split at hthread
      . exact hthread
      . rw [List.mem_singleton.mp (List.mem_of_getElem? hthread)] at hserves
        contradiction
    refine ⟨h.toConsistent.step config app (.accept remote stream), h.isolated, h.slots, ?_, ?_, ?_,
      ?_⟩
    . intro thread hthread
      cases List.mem_append.mp hthread with
      | inl hmem => exact h.configured thread hmem
      | inr hnew =>
        rw [List.mem_singleton.mp hnew]
        trivial
    . intro i thread id owner hthread hserves
      exact h.owns (hold hthread hserves) hserves
    . change _ = (server.threads ++ [Thread.connected remote stream]).countP _
      rw [List.countP_append]
      exact h.accepted
    . change _ = (server.threads ++ [Thread.connected remote stream]).countP _
      rw [List.countP_append]
      exact h.rejected
  | advance i env =>
    simp only [FixServer.step]
    cases hthread : server.threads[i]? with
    | none => exact h
    | some thread => exact h.advance hthread

theorem orderly_run (moves : List (Move S A)) : (run config app moves).Orderly config :=
  Machine.run_of_step (orderly_new config) fun _ move h => h.step move

-- Whom the server serves at one moment.
structure Exclusive (config : FixServerConfig) (server : FixServer S A) : Prop where
  nodup : (server.threads.filterMap (·.counterparty)).Nodup
  allowed : ∀ compId ∈ server.threads.filterMap (·.counterparty),
    config.allowedCompIds ≠ [] → compId ∈ config.allowedCompIds
  length_le : (server.threads.filterMap (·.counterparty)).length ≤ config.connectionPoolSize
  sessions : ∀ connId s, .running connId s ∈ server.threads →
    ∃ compId, s.engine.ctx.session.config = config.sessionConfig connId compId
      ∧ server.acceptor.Owns connId compId
  accepted : server.acceptor.totalAccepted = server.threads.countP (·.connId.isSome)
  rejected : server.acceptor.totalRejected = server.threads.countP (·.denied)

omit [TcpStream S] in
theorem Orderly.mem_owners {server : FixServer S A} (h : server.Orderly config) {compId : Bytes}
    (hmem : compId ∈ server.threads.filterMap (·.counterparty))
    : ∃ id, server.acceptor.Owns id compId := by
  obtain ⟨thread, hthread, hcounterparty⟩ := List.mem_filterMap.mp hmem
  obtain ⟨⟨id, owner⟩, hserves, howner⟩ := Option.map_eq_some_iff.mp hcounterparty
  obtain ⟨i, hi⟩ := List.mem_iff_getElem?.mp hthread
  have howns := h.owns hi hserves
  rw [← howner]
  exact ⟨id, howns⟩

-- Two threads that serve one counterparty would be in one slot.
omit [TcpStream S] in
theorem Orderly.nodup {server : FixServer S A} (h : server.Orderly config)
    : (server.threads.filterMap (·.counterparty)).Nodup := by
  unfold List.Nodup
  rw [List.pairwise_filterMap, List.pairwise_iff_getElem]
  intro i j hi hj hij compId hcompId compId' hcompId' heq
  obtain ⟨⟨id, owner⟩, hserves, howner⟩ := Option.map_eq_some_iff.mp hcompId
  obtain ⟨⟨id', owner'⟩, hserves', howner'⟩ := Option.map_eq_some_iff.mp hcompId'
  have hthread := List.getElem?_eq_getElem hi
  have hthread' := List.getElem?_eq_getElem hj
  have howns := h.owns hthread hserves
  have howns' := h.owns hthread' hserves'
  dsimp only at howner howner'
  rw [howner] at howns
  rw [howner', ← heq] at howns'
  have hid := h.isolated.eq_of_owns howns howns'
  have hsame := Thread.connId_of_serves hserves
  rw [hid] at hsame
  exact Nat.ne_of_lt hij
    (h.distinct hthread hthread' hsame (Thread.connId_of_serves hserves'))

theorem run_exclusive (config : FixServerConfig) (app : FixApp A) (moves : List (Move S A))
    : (run config app moves).Exclusive config := by
  have h : (run config app moves).Orderly config := orderly_run moves
  constructor
  case nodup => exact h.nodup
  case allowed =>
    intro compId hmem hne
    obtain ⟨_, c, hc, _, hactive, howner⟩ := h.mem_owners hmem
    rw [← howner]
    exact h.isolated.allowed c hc hactive hne
  case length_le =>
    have hsubset : (run config app moves).threads.filterMap (·.counterparty)
        ⊆ (run config app moves).acceptor.owners := by
      intro compId hmem
      obtain ⟨_, howns⟩ := h.mem_owners hmem
      exact howns.mem_owners
    have hle := (h.nodup.subperm hsubset).length_le
    have hactive := (run config app moves).acceptor.activeCount_le_length
    rw [Acceptor.length_owners] at hle
    rw [h.slots] at hactive
    exact Nat.le_trans hle hactive
  case sessions =>
    intro connId s hmem
    obtain ⟨i, hi⟩ := List.mem_iff_getElem?.mp hmem
    have hconfigured : (Thread.running connId s).Configured config := h.configured _ hmem
    exact ⟨_, hconfigured.2, h.owns hi rfl⟩
  case accepted => exact h.accepted
  case rejected => exact h.rejected

end FixServer

end Velocitas
