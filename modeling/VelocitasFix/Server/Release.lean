import VelocitasFix.Acceptor.Lemmas
import VelocitasFix.Server.PreRead

/-!
This module contains the life of a connection slot in the server: it is held from the registration of
a connection until its thread releases it, and a thread whose set-up fails never does.
-/

namespace Velocitas

variable {S A : Type}

namespace Thread

def connId : Thread S A → Option Nat
  | .connected _ _ => none
  | .logonRead _ _ _ => none
  | .registered connId _ _ => some connId
  | .running connId _ => some connId
  | .returned connId _ => connId
  | .panicked connId => some connId

-- The slot that the thread has not released yet, nor left behind.
def holds : Thread S A → Option Nat
  | .connected _ _ => none
  | .logonRead _ _ _ => none
  | .registered connId _ _ => some connId
  | .running connId _ => some connId
  | .returned _ _ => none
  | .panicked _ => none

theorem connId_of_holds {thread : Thread S A} {connId : Nat} (h : thread.holds = some connId)
    : thread.connId = some connId := by
  cases thread with
  | connected remote stream => contradiction
  | logonRead remote logonCompId stream => contradiction
  | registered connId logonCompId stream => exact h
  | running connId s => exact h
  | returned connId res => contradiction
  | panicked connId => contradiction

variable [TcpStream S]

def logonResponse (config : FixServerConfig) (env : Env A) (connId : Nat) (logonCompId : Bytes)
    : OutMessage :=
  FixEngine.logonMessage (config.sessionConfig connId logonCompId) 1
    env.clock.tick.tick.tick.timestamp

-- The socket takes its options and the Logon response.
def SetsUp (config : FixServerConfig) (env : Env A) (connId : Nat) (logonCompId : Bytes)
    (stream : S) : Prop :=
  let nodelay := TcpStream.setNodelay stream true
  let timeout := TcpStream.setReadTimeout nodelay.2 (some (.fromMillis 100))
  let response := logonResponse config env connId logonCompId
  nodelay.1 = .ok () ∧ timeout.1 = .ok () ∧ (TcpStream.writeAll timeout.2 response.bytes).1 = .ok ()

variable (config : FixServerConfig) (env : Env A) (connId : Nat) (logonCompId : Bytes) (stream : S)

-- The stages of a connection whose set-up is over.
inductive SetUpResult : Thread S A → Prop where
  | refused (e : ErrorKind) (h : ¬ SetsUp config env connId logonCompId stream)
    : SetUpResult (.returned (some connId) (.error (.io e)))
  | started (e : FixEngine (StdTcpTransport S)) (h : SetsUp config env connId logonCompId stream)
    : SetUpResult (.running connId (Call.runAcceptor.start e env.app))
  | panicked (h : 4096 < (logonResponse config env connId logonCompId).bytes.length)
    : SetUpResult (.panicked connId)

variable {config env connId logonCompId stream}

-- The last step of the set-up, when the socket has taken its options.
theorem response_result {stream' : S} {connected : Bool} {transportConfig : TransportConfig}
    (hsets : SetsUp config env connId logonCompId stream
      ↔ (TcpStream.writeAll stream' (logonResponse config env connId logonCompId).bytes).1 = .ok ())
    : SetUpResult config env connId logonCompId stream
        (match (FixEngine.new (StdTcpTransport.mk (some stream') connected transportConfig)
          (.new (config.sessionConfig connId logonCompId) env.now) env.clock).handleInboundLogon with
        | .halt (.error e) _ => .returned (some connId) (.error (.io e))
        | .halt .panic _ => .panicked connId
        | .next engine => .running connId (Call.runAcceptor.start engine env.app)) := by
  let e : FixEngine (StdTcpTransport S) :=
    ((FixEngine.new (StdTcpTransport.mk (some stream') connected transportConfig)
      (.new (config.sessionConfig connId logonCompId) env.now)
      env.clock).connect.atInstant .onLogon).record .handledLogon
  have hcases : FixEngine.SendBuilt e (logonResponse config env connId logonCompId)
      (e.sendBuilt FixEngine.logonMessage) := e.sendBuilt_cases _
  have hsend := StdTcpTransport.exists_send_iff stream' connected transportConfig
    (logonResponse config env connId logonCompId).bytes
  unfold FixEngine.handleInboundLogon FixEngine.sendLogon
  cases hbuilt : e.sendBuilt FixEngine.logonMessage with
  | next e' =>
    rw [hbuilt] at hcases
    cases hcases with
    | sent _ k _ hok =>
      apply SetUpResult.started
      rw [hsets, ← hsend]
      exact ⟨k, hok⟩
  | halt reason e' =>
    rw [hbuilt] at hcases
    cases hcases with
    | panicked _ hlong =>
      apply SetUpResult.panicked
      have hlen : e.sendBuf.length = 4096 := List.length_replicate
      rw [← hlen]
      exact hlong
    | failed _ err _ herror =>
      apply SetUpResult.refused
      rw [hsets, ← hsend]
      rintro ⟨k, hok⟩
      exact nomatch herror.symm.trans hok

variable (config env connId logonCompId stream)

theorem setUp_result
    : SetUpResult config env connId logonCompId stream
        (setUp config env connId logonCompId stream) := by
  unfold setUp StdTcpTransport.fromStream
  have hnodelay : TransportConfig.kernelTcp.tcpNodelay = true := rfl
  rw [hnodelay]
  cases hset : TcpStream.setNodelay stream true with
  | mk res stream1 =>
    cases res with
    | error e =>
      apply SetUpResult.refused
      intro h
      have hok := h.1
      rw [hset] at hok
      contradiction
    | ok _ =>
      dsimp only
      cases htimeout : TcpStream.setReadTimeout stream1 (some (.fromMillis 100)) with
      | mk res stream2 =>
        cases res with
        | error e =>
          apply SetUpResult.refused
          intro h
          have hok := h.2.1
          rw [hset] at hok
          dsimp only at hok
          rw [htimeout] at hok
          contradiction
        | ok _ =>
          apply response_result
          unfold SetsUp
          rw [hset]
          dsimp only
          rw [htimeout]
          simp

-- What one step of a thread does to the acceptor.
inductive Stepped (acc : Acceptor) (thread : Thread S A) : Acceptor → Thread S A → Prop where
  | kept {acc' : Acceptor} {thread' : Thread S A} (hacc : acc' = acc ∨ acc' = acc.reject)
    (hid : thread'.connId = thread.connId)
    (hholds : thread'.holds = none ∨ thread'.holds = thread.holds) : Stepped acc thread acc' thread'
  | granted {acc' : Acceptor} {connId : Nat} {remote logonCompId : Bytes} {stream : S}
    (hid : thread.connId = none)
    (haccept : acc.acceptConnection remote logonCompId env.nowMs env.now = (.ok connId, acc'))
    : Stepped acc thread acc' (.registered connId logonCompId stream)
  | released {connId : Nat} {s : RunState (StdTcpTransport S) A} (res : Except HandleError Unit)
    (hthread : thread = .running connId s)
    : Stepped acc thread (acc.releaseConnection connId).2 (.returned (some connId) res)

theorem preRead_ids (remote : Bytes)
    : (preRead remote stream : Thread S A).connId = none
        ∧ (preRead remote stream : Thread S A).holds = none := by
  unfold preRead
  repeat' split
  all_goals exact ⟨rfl, rfl⟩

theorem SetUpResult.ids {thread : Thread S A}
    (h : SetUpResult config env connId logonCompId stream thread)
    : thread.connId = some connId ∧ (thread.holds = none ∨ thread.holds = some connId) := by
  cases h with
  | refused => exact ⟨rfl, .inl rfl⟩
  | started => exact ⟨rfl, .inr rfl⟩
  | panicked => exact ⟨rfl, .inl rfl⟩

theorem run_stepped (app : FixApp A) (acc : Acceptor) (s : RunState (StdTcpTransport S) A)
    : Stepped env acc (.running connId s) (run app acc connId s).1 (run app acc connId s).2 := by
  unfold run
  cases s.phase with
  | poll => exact .kept (.inl rfl) rfl (.inr rfl)
  | process => exact .kept (.inl rfl) rfl (.inr rfl)
  | returned res => exact .released _ rfl
  | panicked => exact .kept (.inl rfl) rfl (.inl rfl)

theorem step_stepped (app : FixApp A) (acc : Acceptor) (thread : Thread S A)
    : Stepped env acc thread (step config app env acc thread).1
        (step config app env acc thread).2 := by
  cases thread with
  | connected remote stream =>
    have hids := preRead_ids (A := A) stream remote
    exact .kept (.inl rfl) hids.1 (.inl hids.2)
  | logonRead remote logonCompId stream =>
    change Stepped env acc _ (register env acc remote logonCompId stream).1
      (register env acc remote logonCompId stream).2
    unfold register
    cases haccept : acc.acceptConnection remote logonCompId env.nowMs env.now with
    | mk res acc' =>
      cases res with
      | error e => exact .kept (.inr (Acceptor.acceptConnection_of_error haccept)) rfl (.inl rfl)
      | ok connId => exact .granted rfl haccept
  | registered connId logonCompId stream =>
    have hids := (setUp_result config env connId logonCompId stream).ids
    exact .kept (.inl rfl) hids.1 hids.2
  | running connId s => exact run_stepped env connId app acc s
  | returned connId res => exact .kept (.inl rfl) rfl (.inl rfl)
  | panicked connId => exact .kept (.inl rfl) rfl (.inl rfl)

namespace Stepped

omit [TcpStream S]

variable {env : Env A} {acc acc' : Acceptor} {thread thread' : Thread S A}

theorem wellFormed (h : Stepped env acc thread acc' thread') (hwf : acc.WellFormed)
    : acc'.WellFormed ∧ acc.nextConnId ≤ acc'.nextConnId := by
  cases h with
  | kept hacc =>
    cases hacc with
    | inl hacc =>
      rw [hacc]
      exact ⟨hwf, Nat.le_refl _⟩
    | inr hacc =>
      rw [hacc]
      exact ⟨hwf.reject, Nat.le_refl _⟩
  | granted _ haccept =>
    have hnext := (Acceptor.exists_of_acceptConnection haccept).2.1
    exact ⟨hwf.acceptConnection haccept, by omega⟩
  | released =>
    exact ⟨hwf.releaseConnection, Nat.le_of_eq (acc.nextConnId_releaseConnection _).symm⟩

-- A step changes no other slot.
theorem held_iff (h : Stepped env acc thread acc' thread') (hwf : acc.WellFormed) {id : Nat}
    (hlt : id < acc.nextConnId) (hne : thread.connId ≠ some id)
    : acc'.Held id ↔ acc.Held id := by
  cases h with
  | kept hacc =>
    cases hacc with
    | inl hacc => rw [hacc]
    | inr hacc =>
      rw [hacc]
      exact Iff.rfl
  | granted _ haccept =>
    have hid := (Acceptor.exists_of_acceptConnection haccept).1
    rw [Acceptor.held_acceptConnection haccept, or_iff_left (by omega)]
  | released _ hthread =>
    rw [hthread] at hne
    rw [Acceptor.held_releaseConnection hwf, and_iff_left]
    intro heq
    apply hne
    rw [heq]
    rfl

theorem connId_cases (h : Stepped env acc thread acc' thread')
    : thread'.connId = thread.connId
        ∨ thread'.connId = some acc.nextConnId ∧ acc.nextConnId < acc'.nextConnId := by
  cases h with
  | kept _ hid => exact .inl hid
  | granted _ haccept =>
    obtain ⟨hid, hnext, _⟩ := Acceptor.exists_of_acceptConnection haccept
    right
    rw [← hid]
    exact ⟨rfl, by omega⟩
  | released _ hthread =>
    rw [hthread]
    exact .inl rfl

theorem held_of_holds (h : Stepped env acc thread acc' thread') {id : Nat}
    (hheld : thread.holds = some id → acc.Held id) (hholds : thread'.holds = some id)
    : acc'.Held id := by
  cases h with
  | kept hacc _ hkept =>
    have hbefore : acc.Held id := by
      apply hheld
      cases hkept with
      | inl hnone =>
        rw [hnone] at hholds
        contradiction
      | inr hsame => exact hsame.symm.trans hholds
    cases hacc with
    | inl hacc =>
      rw [hacc]
      exact hbefore
    | inr hacc =>
      rw [hacc]
      exact hbefore
  | granted _ haccept =>
    injection hholds with hid
    rw [Acceptor.held_acceptConnection haccept, hid]
    exact .inr rfl
  | released => contradiction

end Stepped

end Thread

namespace FixServer

-- Every thread has a slot of its own.
structure Consistent (server : FixServer S A) : Prop where
  wellFormed : server.acceptor.WellFormed
  connId_lt : ∀ {i : Nat} {thread : Thread S A} {connId : Nat}, server.threads[i]? = some thread →
    thread.connId = some connId → connId < server.acceptor.nextConnId
  distinct : ∀ {i j : Nat} {thread thread' : Thread S A} {connId : Nat},
    server.threads[i]? = some thread → server.threads[j]? = some thread' →
    thread.connId = some connId → thread'.connId = some connId → i = j
  held : ∀ {i : Nat} {thread : Thread S A} {connId : Nat}, server.threads[i]? = some thread →
    thread.holds = some connId → server.acceptor.Held connId

variable [TcpStream S] (config : FixServerConfig) (app : FixApp A)

theorem step_cases (server : FixServer S A) (move : Move S A)
    : (∃ started, (∀ thread ∈ started, thread.connId = none)
          ∧ step config app server move = ⟨server.acceptor, server.threads ++ started⟩)
        ∨ ∃ i env thread, move = .advance i env ∧ server.threads[i]? = some thread
          ∧ step config app server move = ⟨(thread.step config app env server.acceptor).1,
            server.threads.set i (thread.step config app env server.acceptor).2⟩ := by
  cases move with
  | accept remote stream => exact .inl ⟨[.connected remote stream], by simp [Thread.connId], rfl⟩
  | advance i env =>
    simp only [step]
    cases hthread : server.threads[i]? with
    | none => exact .inl ⟨[], by simp, by simp⟩
    | some thread => exact .inr ⟨i, env, thread, rfl, hthread, rfl⟩

omit [TcpStream S] in
theorem consistent_new : (new config : FixServer S A).Consistent where
  wellFormed := Acceptor.wellFormed_new _
  connId_lt := by simp [new]
  distinct := by simp [new]
  held := by simp [new]

omit [TcpStream S] in
theorem Consistent.start {server : FixServer S A} (h : server.Consistent)
    {started : List (Thread S A)} (hstarted : ∀ thread ∈ started, thread.connId = none)
    : (⟨server.acceptor, server.threads ++ started⟩ : FixServer S A).Consistent := by
  have hold {i : Nat} {thread : Thread S A} {connId : Nat}
      (hthread : (server.threads ++ started)[i]? = some thread)
      (hid : thread.connId = some connId)
      : server.threads[i]? = some thread := by
    rw [List.getElem?_append] at hthread
    split at hthread
    . exact hthread
    . have hnone := hstarted thread (List.mem_of_getElem? hthread)
      rw [hnone] at hid
      contradiction
  constructor
  case wellFormed => exact h.wellFormed
  case connId_lt =>
    intro i thread connId hthread hid
    exact h.connId_lt (hold hthread hid) hid
  case distinct =>
    intro i j thread thread' connId hthread hthread' hid hid'
    exact h.distinct (hold hthread hid) (hold hthread' hid') hid hid'
  case held =>
    intro i thread connId hthread hholds
    exact h.held (hold hthread (Thread.connId_of_holds hholds)) hholds

omit [TcpStream S] in
theorem Consistent.advance {server : FixServer S A} (h : server.Consistent) {i : Nat}
    {env : Env A} {thread thread' : Thread S A} {acc' : Acceptor}
    (hthread : server.threads[i]? = some thread)
    (hstep : Thread.Stepped env server.acceptor thread acc' thread')
    : (⟨acc', server.threads.set i thread'⟩ : FixServer S A).Consistent := by
  obtain ⟨hwf, hnext⟩ := hstep.wellFormed h.wellFormed
  have hcases {j : Nat} {th : Thread S A} (hth : (server.threads.set i thread')[j]? = some th)
      : j = i ∧ th = thread' ∨ j ≠ i ∧ server.threads[j]? = some th := by
    by_cases hj : j = i
    . rw [hj, List.getElem?_set_self (List.getElem?_eq_some_iff.mp hthread).1] at hth
      injection hth with hth
      exact .inl ⟨hj, hth.symm⟩
    . rw [List.getElem?_set_ne (Ne.symm hj)] at hth
      exact .inr ⟨hj, hth⟩
  -- A slot of the thread that took the step is its old one, or a new one.
  have hnew {connId : Nat} (hid : thread'.connId = some connId)
      : thread.connId = some connId
        ∨ connId = server.acceptor.nextConnId ∧ connId < acc'.nextConnId := by
    cases hstep.connId_cases with
    | inl hsame => exact .inl (hsame.symm.trans hid)
    | inr hgranted =>
      have heq := Option.some.inj (hid.symm.trans hgranted.1)
      exact .inr ⟨heq, by omega⟩
  have hother {j : Nat} {th : Thread S A} {connId : Nat} (hj : j ≠ i)
      (hth : server.threads[j]? = some th) (hid : th.connId = some connId)
      : thread'.connId ≠ some connId := by
    intro hid'
    cases hnew hid' with
    | inl hold => exact hj (h.distinct hth hthread hid hold)
    | inr hfresh =>
      have hlt := h.connId_lt hth hid
      omega
  constructor
  case wellFormed => exact hwf
  case connId_lt =>
    intro j th connId hth hid
    cases hcases hth with
    | inl hself =>
      rw [hself.2] at hid
      cases hnew hid with
      | inl hold => exact Nat.lt_of_lt_of_le (h.connId_lt hthread hold) hnext
      | inr hfresh => exact hfresh.2
    | inr hne => exact Nat.lt_of_lt_of_le (h.connId_lt hne.2 hid) hnext
  case distinct =>
    intro j k th th' connId hth hth' hid hid'
    cases hcases hth with
    | inl hself =>
      cases hcases hth' with
      | inl hself' => exact hself.1.trans hself'.1.symm
      | inr hne' =>
        rw [hself.2] at hid
        exact absurd hid (hother hne'.1 hne'.2 hid')
    | inr hne =>
      cases hcases hth' with
      | inl hself' =>
        rw [hself'.2] at hid'
        exact absurd hid' (hother hne.1 hne.2 hid)
      | inr hne' => exact h.distinct hne.2 hne'.2 hid hid'
  case held =>
    intro j th connId hth hholds
    cases hcases hth with
    | inl hself =>
      rw [hself.2] at hholds
      exact hstep.held_of_holds (h.held hthread) hholds
    | inr hne =>
      have hid := Thread.connId_of_holds hholds
      apply (hstep.held_iff h.wellFormed (h.connId_lt hne.2 hid) _).mpr (h.held hne.2 hholds)
      intro hid'
      exact hne.1 (h.distinct hne.2 hthread hid hid')

theorem Consistent.step {server : FixServer S A} (h : server.Consistent) (move : Move S A)
    : (server.step config app move).Consistent := by
  cases step_cases config app server move with
  | inl hstarted =>
    obtain ⟨started, hnone, hstep⟩ := hstarted
    rw [hstep]
    exact h.start hnone
  | inr hadvanced =>
    obtain ⟨i, env, thread, _, hthread, hstep⟩ := hadvanced
    rw [hstep]
    exact h.advance hthread (thread.step_stepped config env app server.acceptor)

theorem consistent_run (moves : List (Move S A)) : (run config app moves).Consistent := by
  unfold run
  generalize hnew : (new config : FixServer S A) = server
  have hserver : server.Consistent := by
    rw [← hnew]
    exact consistent_new config
  clear hnew
  induction moves generalizing server with
  | nil => exact hserver
  | cons move moves ih => exact ih _ (hserver.step config app move)

theorem run_take_succ (moves : List (Move S A)) {n : Nat} {move : Move S A}
    (h : moves[n]? = some move)
    : run config app (moves.take (n + 1))
        = (run config app (moves.take n)).step config app move := by
  unfold run
  rw [List.take_add_one, h, List.foldl_append]
  rfl

variable {config app}

-- What every move of a consistent server preserves holds from one moment of a run to any later one.
theorem run_preserves {P : FixServer S A → Prop}
    (hP : ∀ server move, server.Consistent → P server → P (server.step config app move))
    (moves : List (Move S A)) {t u : Nat} (htu : t ≤ u) (ht : P (run config app (moves.take t)))
    : P (run config app (moves.take u)) := by
  induction u, htu using Nat.le_induction with
  | base => exact ht
  | succ u _ ih =>
    cases hmove : moves[u]? with
    | none =>
      rw [List.take_add_one, hmove]
      simpa using ih
    | some move =>
      rw [run_take_succ config app moves hmove]
      exact hP _ move (consistent_run config app _) ih

-- The thread has returned, and its slot stays with it.
def Leaks (i connId : Nat) (server : FixServer S A) : Prop :=
  (∃ res, server.threads[i]? = some (.returned (some connId) res))
    ∧ server.acceptor.Held connId

-- The thread runs its engine, or it has released the slot, or it did not return.
def Serves (i connId : Nat) (server : FixServer S A) : Prop :=
  (∃ s, server.threads[i]? = some (.running connId s))
    ∨ (∃ res, server.threads[i]? = some (.returned (some connId) res))
      ∧ ¬ server.acceptor.Held connId
    ∨ server.threads[i]? = some (.panicked connId)

section Fate

variable {server : FixServer S A} {i connId : Nat} {thread : Thread S A}

variable (config app)

-- The moves of the others leave a thread and its slot alone.
theorem Consistent.step_other (h : server.Consistent) (hthread : server.threads[i]? = some thread)
    (hid : thread.connId = some connId) {move : Move S A} (hne : ∀ env, move ≠ .advance i env)
    : (server.step config app move).threads[i]? = some thread
        ∧ ((server.step config app move).acceptor.Held connId
          ↔ server.acceptor.Held connId) := by
  cases step_cases config app server move with
  | inl hstarted =>
    obtain ⟨started, _, hstep⟩ := hstarted
    rw [hstep]
    refine ⟨?_, Iff.rfl⟩
    rw [List.getElem?_append_left (List.getElem?_eq_some_iff.mp hthread).1]
    exact hthread
  | inr hadvanced =>
    obtain ⟨j, env, thread', hmove, hthread', hstep⟩ := hadvanced
    have hj : j ≠ i := by
      intro heq
      rw [heq] at hmove
      exact hne env hmove
    rw [hstep]
    constructor
    . rw [List.getElem?_set_ne hj]
      exact hthread
    . apply (thread'.step_stepped config env app server.acceptor).held_iff h.wellFormed
      . exact h.connId_lt hthread hid
      . intro hid'
        exact hj (h.distinct hthread' hthread hid' hid)

theorem step_self (hthread : server.threads[i]? = some thread) (env : Env A)
    : (server.step config app (.advance i env)).threads[i]?
          = some (thread.step config app env server.acceptor).2
        ∧ (server.step config app (.advance i env)).acceptor
          = (thread.step config app env server.acceptor).1 := by
  simp only [step, hthread]
  exact ⟨List.getElem?_set_self (List.getElem?_eq_some_iff.mp hthread).1, trivial⟩

variable {config app}

theorem Leaks.step {move : Move S A} (hserver : server.Consistent) (h : server.Leaks i connId)
    : (server.step config app move).Leaks i connId := by
  obtain ⟨⟨res, hthread⟩, hheld⟩ := h
  by_cases hmove : ∃ env, move = .advance i env
  . obtain ⟨env, hmove⟩ := hmove
    have hself := step_self config app hthread env
    rw [hmove]
    refine ⟨⟨res, hself.1⟩, ?_⟩
    rw [hself.2]
    exact hheld
  . have hother := hserver.step_other config app hthread rfl
      (not_exists.mp hmove)
    exact ⟨⟨res, hother.1⟩, hother.2.mpr hheld⟩

theorem Serves.step {move : Move S A} (hserver : server.Consistent) (h : server.Serves i connId)
    : (server.step config app move).Serves i connId := by
  by_cases hmove : ∃ env, move = .advance i env
  . obtain ⟨env, hmove⟩ := hmove
    rw [hmove]
    cases h with
    | inl hrunning =>
      obtain ⟨s, hthread⟩ := hrunning
      have hself := step_self config app hthread env
      change _ = some (Thread.run app server.acceptor connId s).2
        ∧ _ = (Thread.run app server.acceptor connId s).1 at hself
      unfold Thread.run at hself
      cases hphase : s.phase with
      | poll =>
        rw [hphase] at hself
        exact .inl ⟨_, hself.1⟩
      | process =>
        rw [hphase] at hself
        exact .inl ⟨_, hself.1⟩
      | returned res =>
        rw [hphase] at hself
        refine .inr (.inl ⟨⟨_, hself.1⟩, ?_⟩)
        rw [hself.2, Acceptor.held_releaseConnection hserver.wellFormed]
        exact fun h => h.2 rfl
      | panicked =>
        rw [hphase] at hself
        exact .inr (.inr hself.1)
    | inr hover =>
      cases hover with
      | inl hreturned =>
        obtain ⟨⟨res, hthread⟩, hheld⟩ := hreturned
        have hself := step_self config app hthread env
        refine .inr (.inl ⟨⟨res, hself.1⟩, ?_⟩)
        rw [hself.2]
        exact hheld
      | inr hpanicked =>
        exact .inr (.inr (step_self config app hpanicked env).1)
  . have hother {thread : Thread S A} (hthread : server.threads[i]? = some thread)
        (hid : thread.connId = some connId) :=
      hserver.step_other config app hthread hid (not_exists.mp hmove)
    cases h with
    | inl hrunning =>
      obtain ⟨s, hthread⟩ := hrunning
      exact .inl ⟨s, (hother hthread rfl).1⟩
    | inr hover =>
      cases hover with
      | inl hreturned =>
        obtain ⟨⟨res, hthread⟩, hheld⟩ := hreturned
        refine .inr (.inl ⟨⟨res, (hother hthread rfl).1⟩, ?_⟩)
        rw [(hother hthread rfl).2]
        exact hheld
      | inr hpanicked => exact .inr (.inr (hother hpanicked rfl).1)

theorem panicked_step {move : Move S A} (hserver : server.Consistent)
    (h : server.threads[i]? = some (.panicked connId))
    : (server.step config app move).threads[i]? = some (.panicked connId) := by
  by_cases hmove : ∃ env, move = .advance i env
  . obtain ⟨env, hmove⟩ := hmove
    rw [hmove]
    exact (step_self config app h env).1
  . exact (hserver.step_other config app h rfl (not_exists.mp hmove)).1

end Fate

omit [TcpStream S] in
theorem Serves.not_held {server : FixServer S A} {i connId : Nat} {res : Except HandleError Unit}
    (h : server.Serves i connId)
    (hreturned : server.threads[i]? = some (.returned (some connId) res))
    : ¬ server.acceptor.Held connId := by
  cases h with
  | inl hrunning =>
    obtain ⟨s, hthread⟩ := hrunning
    exact nomatch hthread.symm.trans hreturned
  | inr hover =>
    cases hover with
    | inl hreleased => exact hreleased.2
    | inr hpanicked => exact nomatch hpanicked.symm.trans hreturned

section SetUp

variable {moves : List (Move S A)} {t i connId : Nat} {logonCompId : Bytes} {stream : S} {env : Env A}
  (hregistered : (run config app (moves.take t)).threads[i]?
    = some (.registered connId logonCompId stream))
  (hmove : moves[t]? = some (.advance i env))

include hregistered hmove

theorem run_setUp
    : (run config app (moves.take (t + 1))).threads[i]?
          = some (Thread.setUp config env connId logonCompId stream)
        ∧ (run config app (moves.take (t + 1))).acceptor.Held connId := by
  have hself := step_self config app hregistered env
  rw [← run_take_succ config app moves hmove] at hself
  refine ⟨hself.1, ?_⟩
  rw [hself.2]
  exact (consistent_run config app (moves.take t)).held hregistered rfl

theorem released_iff {u : Nat} {res : Except HandleError Unit} (htu : t < u)
    (hreturned : (run config app (moves.take u)).threads[i]?
      = some (.returned (some connId) res))
    : ¬ (run config app (moves.take u)).acceptor.Held connId
        ↔ Thread.SetsUp config env connId logonCompId stream := by
  obtain ⟨hthread, hheld⟩ := run_setUp hregistered hmove
  have hsetUp := Thread.setUp_result config env connId logonCompId stream
  generalize Thread.setUp config env connId logonCompId stream = thread at hthread hsetUp
  cases hsetUp with
  | refused e hnot =>
    have hend := run_preserves (fun _ _ => Leaks.step) moves htu ⟨⟨_, hthread⟩, hheld⟩
    exact iff_of_false (not_not.mpr hend.2) hnot
  | started e hsets =>
    have hend := run_preserves (fun _ _ => Serves.step) moves htu (.inl ⟨_, hthread⟩)
    exact iff_of_true (hend.not_held hreturned) hsets
  | panicked =>
    -- The thread did not return.
    have hend := run_preserves (fun _ _ => panicked_step) moves htu hthread
    exact nomatch hend.symm.trans hreturned

end SetUp

-- The client sends its Logon and is gone when the server sends the response.
def refusedMoves : List (Move Socket Unit) :=
  [.accept [] ⟨[.ok (logonFrame 1 ++ [])], [.ok (), .ok (), .ok (), .ok (), .error .brokenPipe]⟩,
    .advance 0 sampleEnv, .advance 0 sampleEnv, .advance 0 sampleEnv]

theorem refusedMoves_registered
    : (run .default silentApp (refusedMoves.take 3)).threads[0]?
        = some (.registered 64 (ascii "PEER") ⟨[], [.ok (), .ok (), .error .brokenPipe]⟩) := by
  have hread := preRead_logonFrame (A := Unit) [] [] [] [.ok (), .ok (), .error .brokenPipe]
    (by decide +kernel)
  have htwo : run .default silentApp (refusedMoves.take 2)
      = ⟨.new FixServerConfig.default.acceptorConfig,
        [.logonRead [] (ascii "PEER") ⟨[], [.ok (), .ok (), .error .brokenPipe]⟩]⟩ := by
    rw [← hread]
    rfl
  have hmove : refusedMoves[2]? = some (.advance 0 sampleEnv) := rfl
  rw [run_take_succ .default silentApp refusedMoves hmove, htwo]
  rfl

theorem refusedMoves_leaks
    : (run .default silentApp refusedMoves).Leaks 0 64 := by
  obtain ⟨hthread, hheld⟩ := run_setUp refusedMoves_registered rfl
  have hsetUp := Thread.setUp_result .default sampleEnv 64 (ascii "PEER")
    (Socket.mk [] [.ok (), .ok (), .error .brokenPipe])
  have hfits : (FixServerConfig.default.sessionConfig 64 (ascii "PEER")).Fits :=
    SessionConfig.fits_of_length_le (by decide)
  generalize Thread.setUp .default sampleEnv 64 (ascii "PEER")
    (Socket.mk [] [.ok (), .ok (), .error .brokenPipe]) = thread at hthread hsetUp
  refine ⟨?_, hheld⟩
  cases hsetUp with
  | refused e => exact ⟨_, hthread⟩
  | started e hsets => exact nomatch hsets.2.2
  | panicked hlong =>
    have hle := hfits FixEngine.logonMessage (by simp [Preserved.allKinds]) 1
      sampleEnv.clock.tick.tick.tick
    exact absurd hlong (Nat.not_lt_of_le hle)

theorem released_iff_refused
    : ¬ (run .default silentApp refusedMoves).acceptor.Held 64
        ↔ Thread.SetsUp .default sampleEnv 64 (ascii "PEER")
          (Socket.mk [] [.ok (), .ok (), .error .brokenPipe]) := by
  obtain ⟨⟨res, hreturned⟩, _⟩ := refusedMoves_leaks
  exact released_iff refusedMoves_registered rfl (u := 4) (by decide) hreturned

theorem not_released
    : ¬ ∀ (moves : List (Move Socket Unit)) (i connId : Nat) (res : Except HandleError Unit),
        (run .default silentApp moves).threads[i]? = some (.returned (some connId) res) →
          ¬ (run .default silentApp moves).acceptor.Held connId := by
  intro h
  obtain ⟨⟨res, hreturned⟩, hheld⟩ := refusedMoves_leaks
  exact h refusedMoves 0 64 res hreturned hheld

end FixServer

end Velocitas
