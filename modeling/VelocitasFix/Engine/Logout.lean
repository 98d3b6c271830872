import VelocitasFix.Engine.Numbering

/-!
This module contains the Logouts of a session: the state LogoutSent stands for a Logout that was sent
and for one that was only requested, and the steps of the loop are told apart by which one it is.
-/

namespace Velocitas

variable {T A : Type}

-- 35=5, as the receiver of the message finds it.
def Outbound.isLogout : Outbound → Bool
  | .built m => m.msgType = MsgType.logout
  | .raw data => (accepted data).bind MessageView.msgType = some MsgType.logout

def Outbound.isBuiltLogout : Outbound → Bool
  | .built m => m.msgType = MsgType.logout
  | .raw _ => false

def logouts (log : List Event) : Nat := (sentOf log).countP Outbound.isLogout

def builtLogouts (log : List Event) : Nat := (sentOf log).countP Outbound.isBuiltLogout

theorem logouts_eq {log : List Event}
    (h : ∀ data, .raw data ∈ sentOf log → Outbound.isLogout (.raw data) = false)
    : logouts log = builtLogouts log := by
  apply List.countP_congr
  intro o ho
  cases o with
  | built m => rfl
  | raw data =>
    rw [h data ho]
    rfl

theorem builtLogouts_append (log log' : List Event)
    : builtLogouts (log ++ log') = builtLogouts log + builtLogouts log' := by
  rw [builtLogouts, sentOf_append, List.countP_append]
  rfl

theorem builtLogouts_sent (m : OutMessage)
    : builtLogouts [.sent (.built m)] = if m.msgType = MsgType.logout then 1 else 0 := by
  change List.countP Outbound.isBuiltLogout [.built m] = _
  rw [List.countP_singleton]
  simp [Outbound.isBuiltLogout]

variable [Transport T]

theorem builtLogouts_run {α : Type} (prog : AppProg α) (ctx : EngineContext T)
    : builtLogouts (prog.run ctx).2.log = builtLogouts ctx.log := by
  induction prog generalizing ctx with
  | done result => rfl
  | sendRaw data next ih =>
    apply (ih (ctx.sendRaw data).1 (ctx.sendRaw data).2).trans
    rw [ctx.sendRaw_log, builtLogouts_append]
    rfl
  | session next ih => exact ih _ ctx
  | requestStop next ih => exact ih _

-- Callbacks, Logons and heartbeats leave the number of Logouts the engine has built as it is.
theorem preserved_builtLogouts (app : FixApp A) (k : Nat)
    : Preserved app [FixEngine.logonMessage, FixEngine.heartbeatMessage]
        (fun ctx : EngineContext T => builtLogouts ctx.log = k) := by
  constructor
  case quiet =>
    intro ctx ctx' hquiet h
    rw [builtLogouts, hquiet.sent]
    exact h
  case built =>
    intro message hkind e _ h
    have htype : (e.nextMessage message).msgType ≠ MsgType.logout := by
      simp only [List.mem_cons, List.not_mem_nil, or_false] at hkind
      rcases hkind with rfl | rfl
      . exact (by decide : MsgType.logon ≠ MsgType.logout)
      . exact (by decide : MsgType.heartbeat ≠ MsgType.logout)
    cases e.sendBuilt_log message with
    | inl hpanic =>
      obtain ⟨e', hpanic, hlog⟩ := hpanic
      rw [hpanic]
      change builtLogouts e'.ctx.log = k
      rw [hlog]
      exact h
    | inr hsent =>
      rw [hsent.2, builtLogouts_append, builtLogouts_sent, if_neg htype]
      exact h
  case onLogon => exact fun a ctx h => (builtLogouts_run _ ctx).trans h
  case onMessage => exact fun a msgType view ctx h => (builtLogouts_run _ ctx).trans h

theorem passive_builtLogouts (k : Nat)
    : Preserved.Passive (fun ctx : EngineContext T => builtLogouts ctx.log = k) :=
  ⟨fun _ _ h => h, fun _ h => h⟩

namespace FixEngine

theorem sendBuilt_logout (e : FixEngine T)
    : (∃ e', e.sendBuilt logoutMessage = .halt .panic e')
        ∨ builtLogouts (e.sendBuilt logoutMessage).state.ctx.log = builtLogouts e.ctx.log + 1 := by
  cases e.sendBuilt_log logoutMessage with
  | inl hpanic =>
    obtain ⟨e', hpanic, _⟩ := hpanic
    exact .inl ⟨e', hpanic⟩
  | inr hsent =>
    right
    rw [hsent.2, builtLogouts_append, builtLogouts_sent]
    rfl

theorem sendLogout_logouts {e e' : FixEngine T} (h : e.sendLogout = .next e')
    : builtLogouts e'.ctx.log = builtLogouts e.ctx.log + 1 ∧ e'.shouldStop = e.shouldStop
        ∧ e'.ctx.session.state = .logoutSent := by
  have hsends := e.sendBuilt_sends logoutMessage
  have hcount := e.sendBuilt_logout
  unfold sendLogout at h
  cases hbuilt : e.sendBuilt logoutMessage with
  | halt reason e1 =>
    rw [hbuilt] at h
    contradiction
  | next e1 =>
    rw [hbuilt] at h hsends hcount
    injection h with h
    rw [← h]
    cases hcount with
    | inl hpanic =>
      obtain ⟨e2, hpanic⟩ := hpanic
      contradiction
    | inr hcount => exact ⟨hcount, hsends.1.shouldStop, rfl⟩

-- A Logout that is handled stops the loop; it is answered unless the session is in LogoutSent.
theorem handleLogout_logouts {app : FixApp A} {e e' : FixEngine T} {a a' : A}
    (h : handleLogout app e a = .next (e', a'))
    : e'.shouldStop = true
        ∧ builtLogouts e'.ctx.log = builtLogouts e.ctx.log
          + if e.ctx.session.state = .logoutSent then 0 else 1 := by
  have hrecord : builtLogouts (e.record .onLogout).ctx.log = builtLogouts e.ctx.log := by
    rw [record_log, builtLogouts_append]
    rfl
  have hdisconnect (e1 : FixEngine T)
      : builtLogouts e1.disconnect.ctx.log = builtLogouts e1.ctx.log := by
    change builtLogouts (e1.ctx.log ++ [Event.disconnected]) = _
    rw [builtLogouts_append]
    rfl
  unfold handleLogout at h
  dsimp only at h
  cases hres : app.onLogout a with
  | mk res a1 =>
    rw [hres] at h
    cases res with
    | error err => contradiction
    | ok _ =>
      dsimp only at h
      by_cases hstate : e.ctx.session.state = .logoutSent
      . rw [if_neg (by simpa using hstate)] at h
        injection h with h
        injection h with h
        rw [← h, if_pos hstate]
        exact ⟨rfl, (hdisconnect _).trans hrecord⟩
      . rw [if_pos (by simpa using hstate)] at h
        cases hsent : (e.record .onLogout).sendLogout with
        | halt reason e1 =>
          rw [hsent] at h
          contradiction
        | next e1 =>
          rw [hsent] at h
          injection h with h
          injection h with h
          rw [← h, if_neg hstate]
          exact ⟨rfl, by rw [← hrecord, ← (sendLogout_logouts hsent).1]; exact hdisconnect e1⟩

end FixEngine

omit [Transport T] in
theorem FixEngine.Handled.shouldStop_eq {view : MessageView} {expected : UInt64}
    {e e' : FixEngine T} {left : Prop} {evs : List Event}
    (h : Handled view expected e e' left evs) (htype : view.msgType ≠ some MsgType.logout)
    : e'.shouldStop = e.shouldStop := by
  cases h with
  | ignored heq => rw [heq]
  | logonFailed _ _ _ _ hstop => exact hstop
  | logon _ _ _ _ _ hstop => exact hstop
  | testRequest _ _ _ hstop => exact hstop
  | logoutFailed _ hlogout => exact absurd hlogout htype
  | logout _ hlogout => exact absurd hlogout htype
  | message _ _ _ _ _ hstop => exact hstop

-- The loop takes an inbound Logout, or a batch ends after the application has requested a stop.
def RunState.StopsByLogout (s : RunState T A) : Prop :=
  s.phase = .process ∧
    match s.engine.recv.takeFrame with
    | some (frame, _) => (accepted frame).bind MessageView.msgType = some MsgType.logout
    | none => s.engine.ctx.session.state = .logoutSent

-- No Logout was sent yet: neither by the embedder nor for a Logout taken earlier in the batch.
def RunState.Owes (initiated : Prop) (s : RunState T A) : Prop :=
  ¬ initiated ∧ s.engine.shouldStop = false

/-
The state the step starts in tells right whether a Logout is still to be sent: a Logout is answered in
every state but LogoutSent, and a batch that ends in LogoutSent ends with a Logout.
-/
def RunState.TellsLogout (initiated : Prop) (s : RunState T A) : Prop :=
  s.phase = .process →
    match s.engine.recv.takeFrame with
    | some (frame, _) => ∀ view, accepted frame = some view →
      view.msgType = some MsgType.logout →
        ((s.engine.ctx.session.control.receive view).state ≠ .logoutSent ↔ s.Owes initiated)
    | none => s.engine.ctx.session.state = .logoutSent → s.Owes initiated

-- The loop is running, or it has ended without an error.
def Phase.Clean : Phase → Prop
  | .poll => True
  | .process => True
  | .returned (.ok _) => True
  | .returned (.error _) => False
  | .panicked => False

structure RunState.Settled (initiated stopped : Prop) (s : RunState T A) : Prop where
  sent : s.phase.Clean → initiated ∨ stopped → builtLogouts s.engine.ctx.log = 1
  unsent : s.phase.Clean → ¬ (initiated ∨ stopped) → builtLogouts s.engine.ctx.log = 0
  process : s.phase = .process → (s.engine.shouldStop = true ↔ stopped)
  poll : s.phase = .poll → s.engine.shouldStop = false → ¬ stopped

namespace RunState

omit [Transport T] in
theorem not_clean_halted (reason : Halt) : ¬ (halted reason).Clean := by
  cases reason with
  | error err => exact id
  | panic => exact id

omit [Transport T] in
theorem Settled.of_not_clean {initiated stopped : Prop} {s : RunState T A} (h : ¬ s.phase.Clean)
    : s.Settled initiated stopped where
  sent := fun hclean => absurd hclean h
  unsent := fun hclean => absurd hclean h
  process := by
    intro hphase
    rw [hphase] at h
    exact absurd trivial h
  poll := by
    intro hphase
    rw [hphase] at h
    exact absurd trivial h

theorem receive_shouldStop {e : FixEngine T} {a : A} (h : (receive e a).phase = .process)
    : (receive e a).engine.shouldStop = e.shouldStop := by
  unfold receive at h ⊢
  cases hrecv : Transport.recv e.ctx.transport 8192 with
  | mk res transport =>
    rw [hrecv] at h
    cases res with
    | ok data =>
      dsimp only
      split
      . rfl
      . rfl
    | error err =>
      dsimp only at h
      split at h
      . exact nomatch h
      . exact nomatch h

theorem poll_shouldStop {e : FixEngine T} {a : A} (h : (poll e a).phase = .process)
    : (poll e a).engine.shouldStop = e.shouldStop := by
  unfold poll at h ⊢
  split
  . next hstop =>
    rw [if_pos hstop] at h
    contradiction
  . next hstop =>
    rw [if_neg hstop] at h
    have hsends := (timer_sends e).1
    cases htimed : timer e with
    | mk action e1 =>
      rw [htimed] at h hsends
      cases action with
      | none => exact (receive_shouldStop h).trans hsends.shouldStop
      | disconnect => contradiction
      | send data =>
        dsimp only at h ⊢
        split
        . next hactive =>
          rw [if_pos hactive] at h
          have hsent := e1.sendHeartbeat_sends
          cases hout : e1.sendHeartbeat with
          | next e2 =>
            rw [hout] at h hsent
            exact (receive_shouldStop h).trans (hsent.shouldStop.trans hsends.shouldStop)
          | halt reason e2 =>
            rw [hout] at h
            cases reason with
            | error err => contradiction
            | panic => contradiction
        . next hactive =>
          rw [if_neg hactive] at h
          exact (receive_shouldStop h).trans hsends.shouldStop

theorem Settled.poll_step {initiated stopped : Prop} {e : FixEngine T} {a : A} (app : FixApp A)
    (hlen : e.sendBuf.length = 4096) (h : Settled initiated stopped ⟨e, a, .poll⟩)
    : (RunState.poll e a).Settled initiated stopped := by
  have hcount : builtLogouts (RunState.poll e a).engine.ctx.log = builtLogouts e.ctx.log :=
    (preserved_builtLogouts app _).poll (passive_builtLogouts _) (by simp) a hlen rfl
  obtain ⟨evs, hidle⟩ := idle_poll e a
  have hstop (hrunning : (RunState.poll e a).Running) : e.shouldStop = false := by
    cases (hidle.running hrunning).1 with
    | inl hphase => contradiction
    | inr hpoll => exact hpoll.2
  constructor
  case sent =>
    intro _ hor
    rw [hcount]
    exact h.sent trivial hor
  case unsent =>
    intro _ hnot
    rw [hcount]
    exact h.unsent trivial hnot
  case process =>
    intro hphase
    have hfalse := hstop (.inl hphase)
    rw [poll_shouldStop hphase, hfalse]
    have hnot := h.poll rfl hfalse
    simp [hnot]
  case poll =>
    intro hphase hfalse
    exact h.poll rfl (hstop (.inr ⟨hphase, hfalse⟩))

omit [Transport T] in
theorem settle_process_phase (o : Outcome (FixEngine T × A))
    : (settle .process o).phase = .process ∨ ¬ (settle .process o).phase.Clean := by
  cases o with
  | next s => exact .inl rfl
  | halt reason s => exact .inr (not_clean_halted reason)

theorem Settled.took {initiated stopped : Prop} {e : FixEngine T} {a : A} {app : FixApp A}
    {frame : Bytes} {recv : RecvBuffer} (hparser : e.parser = .new) (hlen : e.sendBuf.length = 4096)
    (htake : e.recv.takeFrame = some (frame, recv))
    (hnot : ∀ view, accepted frame = some view → view.msgType ≠ some MsgType.logout)
    (h : Settled initiated stopped ⟨e, a, .process⟩)
    : (RunState.process app e a).Settled initiated stopped := by
  have hcount : builtLogouts (RunState.process app e a).engine.ctx.log = builtLogouts e.ctx.log :=
    (preserved_builtLogouts app _).process (by simp) (by simp) a hparser htake
      (fun view hview htype => absurd htype (hnot view hview)) hlen rfl
  have hstop : (RunState.process app e a).engine.shouldStop = e.shouldStop := by
    obtain ⟨evs, htook⟩ := @took_process _ _ _ app _ a _ _ hparser htake
    cases haccepted : accepted frame with
    | none => exact (htook.rejected haccepted).2.2
    | some view =>
      obtain ⟨e1, _, _, hstop, hhandled⟩ := htook.handled view haccepted
      exact (hhandled.shouldStop_eq (hnot view haccepted)).trans hstop
  have hphase : (RunState.process app e a).phase = .process
      ∨ ¬ (RunState.process app e a).phase.Clean := by
    simp only [RunState.process, htake]
    exact settle_process_phase _
  cases hphase with
  | inr hclean => exact .of_not_clean hclean
  | inl hphase =>
    constructor
    case sent =>
      intro _ hor
      rw [hcount]
      exact h.sent trivial hor
    case unsent =>
      intro _ hnone
      rw [hcount]
      exact h.unsent trivial hnone
    case process =>
      intro _
      rw [hstop]
      exact h.process rfl
    case poll =>
      intro hpoll
      rw [hphase] at hpoll
      contradiction

theorem Settled.tookLogout {initiated stopped : Prop} {e : FixEngine T} {a : A} {app : FixApp A}
    {frame : Bytes} {recv : RecvBuffer} {view : MessageView} (hparser : e.parser = .new)
    (htake : e.recv.takeFrame = some (frame, recv)) (hview : accepted frame = some view)
    (htype : view.msgType = some MsgType.logout)
    (htells : (e.ctx.session.control.receive view).state ≠ .logoutSent
      ↔ Owes initiated ⟨e, a, .process⟩)
    (h : Settled initiated stopped ⟨e, a, .process⟩)
    : (RunState.process app e a).Settled initiated True := by
  let e1 := (({ e with recv } : FixEngine T).record (.taken frame)).validated view
  have hparser1 : (({ e with recv } : FixEngine T).record (.taken frame)).parser = .new := hparser
  have hprocess : RunState.process app e a = settle .process (FixEngine.handleLogout app e1 a) := by
    simp only [RunState.process, htake, processMessage_of_accepted app a hparser1 hview,
      FixEngine.dispatch, htype]
    rfl
  have hstate : e1.ctx.session.state = (e.ctx.session.control.receive view).state :=
    congrArg Control.state (FixEngine.validated_control _ view)
  have hlog : builtLogouts e1.ctx.log = builtLogouts e.ctx.log := by
    rw [(FixEngine.validated_fields _ view).2.2.2.2.2.2.2, FixEngine.record_log,
      builtLogouts_append]
    rfl
  rw [hprocess]
  cases hout : FixEngine.handleLogout app e1 a with
  | halt reason s => exact .of_not_clean (not_clean_halted reason)
  | next s =>
    cases s with
    | mk e2 a2 =>
      have hspec := FixEngine.handleLogout_logouts hout
      rw [hstate, hlog] at hspec
      have hone : builtLogouts e2.ctx.log = 1 := by
        rw [hspec.2]
        by_cases howes : Owes initiated ⟨e, a, .process⟩
        . have hstopped : ¬ stopped := by
            rw [← h.process rfl, howes.2]
            simp
          rw [if_neg (htells.mpr howes), h.unsent trivial (by simp [howes.1, hstopped])]
        . have hsent : initiated ∨ stopped := by
            rw [← h.process rfl]
            simp only [Owes, not_and, Bool.not_eq_false] at howes
            tauto
          rw [if_pos (by simpa [howes] using htells), h.sent trivial hsent]
      constructor
      case sent => exact fun _ _ => hone
      case unsent => simp
      case process =>
        intro _
        change e2.shouldStop = true ↔ True
        simp [hspec.1]
      case poll =>
        intro hpoll
        contradiction

omit [Transport T] in
theorem Settled.of_iff {initiated stopped stopped' : Prop} {s : RunState T A}
    (h : s.Settled initiated stopped) (hiff : stopped' ↔ stopped)
    : s.Settled initiated stopped' := by
  rw [propext hiff]
  exact h

theorem Settled.endBatch {initiated stopped : Prop} {e : FixEngine T} {a : A}
    (htells : e.ctx.session.state = .logoutSent → Owes initiated ⟨e, a, .process⟩)
    (h : Settled initiated stopped ⟨e, a, .process⟩)
    : (settleEngine .poll a e.endBatch).Settled initiated
        (stopped ∨ e.ctx.session.state = .logoutSent) := by
  unfold FixEngine.endBatch
  split
  . next hstate =>
    have hiff : stopped ∨ e.ctx.session.state = .logoutSent ↔ stopped := by
      simp [hstate]
    apply Settled.of_iff _ hiff
    exact ⟨fun _ => h.sent trivial, fun _ => h.unsent trivial, fun hphase => (nomatch hphase),
      fun _ hfalse => (nomatch hfalse)⟩
  . next hstate =>
    have howes := htells hstate
    have hstopped : ¬ stopped := by
      rw [← h.process rfl, howes.2]
      simp
    have hzero := h.unsent trivial (by simp [howes.1, hstopped])
    have hcount := e.sendBuilt_logout
    have hone {e1 : FixEngine T} (hlog : builtLogouts e1.ctx.log = builtLogouts e.ctx.log + 1)
        : Settled initiated (stopped ∨ e.ctx.session.state = .logoutSent)
            ⟨{ e1.disconnect with shouldStop := true }, a, .poll⟩ := by
      have hdisconnect : builtLogouts e1.disconnect.ctx.log = 1 := by
        change builtLogouts (e1.ctx.log ++ [Event.disconnected]) = 1
        rw [builtLogouts_append, hlog, hzero]
        rfl
      exact ⟨fun _ _ => hdisconnect, fun _ hnot => absurd (.inr (.inr hstate)) hnot,
        fun hphase => (nomatch hphase), fun _ hfalse => (nomatch hfalse)⟩
    cases hout : e.sendBuilt FixEngine.logoutMessage with
    | next e1 =>
      rw [hout] at hcount
      cases hcount with
      | inl hpanic =>
        obtain ⟨e2, hpanic⟩ := hpanic
        contradiction
      | inr hcount => exact hone hcount
    | halt reason e1 =>
      rw [hout] at hcount
      cases reason with
      | panic => exact .of_not_clean id
      | error err =>
        cases hcount with
        | inl hpanic =>
          obtain ⟨e2, hpanic⟩ := hpanic
          injection hpanic with hreason
          contradiction
        | inr hcount => exact hone hcount
  . next hdisconnected hlogout =>
    apply Settled.of_iff _ (or_iff_left hlogout)
    refine ⟨fun _ => h.sent trivial, fun _ => h.unsent trivial, fun hphase => (nomatch hphase), ?_⟩
    intro _ hfalse hstopped
    have htrue := (h.process rfl).mpr hstopped
    change e.shouldStop = false at hfalse
    change e.shouldStop = true at htrue
    rw [hfalse] at htrue
    contradiction

-- One step of the loop from a state that tells right whether a Logout is still to be sent.
theorem Settled.step {initiated stopped : Prop} {s : RunState T A} (app : FixApp A)
    (hparser : s.engine.parser = .new) (hlen : s.engine.sendBuf.length = 4096)
    (htells : s.TellsLogout initiated) (h : s.Settled initiated stopped)
    : (RunState.step app s).Settled initiated (stopped ∨ s.StopsByLogout) := by
  cases s with
  | mk e a phase =>
    cases phase with
    | poll =>
      have hiff : stopped ∨ StopsByLogout ⟨e, a, .poll⟩ ↔ stopped := by
        simp [StopsByLogout]
      exact (h.poll_step app hlen).of_iff hiff
    | returned res =>
      have hiff : stopped ∨ StopsByLogout ⟨e, a, .returned res⟩ ↔ stopped := by
        simp [StopsByLogout]
      exact h.of_iff hiff
    | panicked =>
      have hiff : stopped ∨ StopsByLogout ⟨e, a, .panicked⟩ ↔ stopped := by
        simp [StopsByLogout]
      exact h.of_iff hiff
    | process =>
      have htells' := htells rfl
      cases htake : e.recv.takeFrame with
      | none =>
        have hprocess : RunState.step app ⟨e, a, .process⟩ = settleEngine .poll a e.endBatch := by
          simp only [RunState.step, RunState.process, htake]
        have hiff : stopped ∨ StopsByLogout ⟨e, a, .process⟩
            ↔ stopped ∨ e.ctx.session.state = .logoutSent := by
          simp [StopsByLogout, htake]
        dsimp only at htells'
        rw [htake] at htells'
        rw [hprocess]
        exact (h.endBatch htells').of_iff hiff
      | some res =>
        cases res with
        | mk frame recv =>
          dsimp only at htells'
          rw [htake] at htells'
          change (RunState.process app e a).Settled _ _
          by_cases hlogout : (accepted frame).bind MessageView.msgType = some MsgType.logout
          . obtain ⟨view, hview, htype⟩ := Option.bind_eq_some_iff.mp hlogout
            have hiff : stopped ∨ StopsByLogout ⟨e, a, .process⟩ ↔ True := by
              simp [StopsByLogout, htake, hlogout]
            exact (h.tookLogout hparser htake hview htype (htells' view hview htype)).of_iff hiff
          . have hiff : stopped ∨ StopsByLogout ⟨e, a, .process⟩ ↔ stopped := by
              simp [StopsByLogout, htake, hlogout]
            apply Settled.of_iff _ hiff
            apply h.took hparser hlen htake
            intro view hview htype
            rw [hview, Option.bind_some] at hlogout
            exact hlogout htype

end RunState

-- The embedder makes the call unless the one before it has failed.
def Call.after (s : RunState T A) (call : Call) : RunState T A :=
  match s.phase with
  | .returned (.ok ()) => call.start s.engine s.app
  | _ => s

theorem ne_ok_of_not_clean {phase : Phase} (h : ¬ phase.Clean) : phase ≠ .returned (.ok ()) := by
  intro heq
  rw [heq] at h
  exact h trivial

theorem Call.after_of_not_clean (call : Call) {s : RunState T A} (h : ¬ s.phase.Clean)
    : call.after s = s := by
  unfold after
  split
  . next hphase => exact absurd hphase (ne_ok_of_not_clean h)
  . rfl

def prepared (e : FixEngine T) (a : A) (before : List Call) : RunState T A :=
  before.foldl Call.after (e.atRest a)

structure RunState.Prepared (k : Nat) (s : RunState T A) : Prop where
  parser : s.engine.parser = .new
  sendBuf : s.engine.sendBuf.length = 4096
  count : s.phase.Clean → builtLogouts s.engine.ctx.log = k
  shouldStop : s.phase.Clean → s.engine.shouldStop = false

namespace RunState

omit [Transport T] in
theorem Prepared.of_sends {k : Nat} {e : FixEngine T} {a : A} {o : Outcome (FixEngine T)}
    {phase : Phase} (hparser : e.parser = .new) (hlen : e.sendBuf.length = 4096)
    (hstop : e.shouldStop = false) (hsends : e.Sends o.state)
    (hcount : ∀ e', o = .next e' → builtLogouts e'.ctx.log = k)
    : (settleEngine phase a o).Prepared k := by
  cases o with
  | next e' =>
    exact ⟨hsends.parser.trans hparser, hsends.sendBuf.trans hlen, fun _ => hcount e' rfl,
      fun _ => hsends.shouldStop.trans hstop⟩
  | halt reason e' =>
    exact ⟨hsends.parser.trans hparser, hsends.sendBuf.trans hlen,
      fun hclean => absurd hclean (not_clean_halted reason),
      fun hclean => absurd hclean (not_clean_halted reason)⟩

-- Only a call of `initiate_logout` sends a Logout before the loop.
theorem Prepared.start {k : Nat} {s : RunState T A} (call : Call) (app : FixApp A)
    (hclean : s.phase.Clean) (h : s.Prepared k)
    : (call.start s.engine s.app).Prepared (k + if call = .initiateLogout then 1 else 0) := by
  have hstop := h.shouldStop hclean
  have hcount := h.count hclean
  have hpreserved := preserved_builtLogouts (T := T) app k
  cases call with
  | runInitiator =>
    have hsends := s.engine.sends_connect.trans s.engine.connect.sendLogon_sends
    have hP := hpreserved.sendLogon (e := s.engine.connect) (by simp) h.sendBuf hcount
    apply Prepared.of_sends h.parser h.sendBuf hstop hsends
    intro e' hout
    rw [hout] at hP
    exact hP
  | runAcceptor => exact ⟨h.parser, h.sendBuf, fun _ => hcount, fun _ => hstop⟩
  | handleInboundLogon =>
    let e1 := (s.engine.connect.atInstant .onLogon).record .handledLogon
    have hquiet : builtLogouts e1.ctx.log = k := by
      rw [FixEngine.record_log, builtLogouts_append]
      exact hcount
    have hP := hpreserved.sendLogon (e := e1) (by simp) h.sendBuf hquiet
    have hsent := e1.sendLogon_sends
    have hfields := s.engine.sends_connect
    have hstop1 : e1.shouldStop = false := hfields.shouldStop.trans hstop
    apply Prepared.of_sends (e := e1) h.parser h.sendBuf hstop1 hsent
    intro e' hout
    change e1.sendLogon = .next e' at hout
    rw [hout] at hP
    exact hP
  | initiateLogout =>
    apply Prepared.of_sends h.parser h.sendBuf hstop s.engine.sendLogout_sends
    intro e' hout
    rw [(FixEngine.sendLogout_logouts hout).1, hcount]
    rfl

-- No call is running, and the loop was not entered.
def AtRest (s : RunState T A) : Prop := s.phase = .returned (.ok ()) ∨ ¬ s.phase.Clean

theorem Prepared.after {k : Nat} {s : RunState T A} (call : Call) (app : FixApp A)
    (hrest : s.AtRest) (h : s.Prepared k)
    : (call.after s).Prepared (k + if call = .initiateLogout then 1 else 0) := by
  cases hrest with
  | inl hphase =>
    unfold Call.after
    rw [hphase]
    apply h.start call app
    rw [hphase]
    trivial
  | inr hclean =>
    rw [call.after_of_not_clean hclean]
    exact ⟨h.parser, h.sendBuf, fun hc => absurd hc hclean, fun hc => absurd hc hclean⟩

omit [Transport T] in
theorem atRest_settleEngine (a : A) (o : Outcome (FixEngine T))
    : (settleEngine (.returned (.ok ())) a o).AtRest := by
  cases o with
  | next e => exact .inl rfl
  | halt reason e => exact .inr (not_clean_halted reason)

theorem AtRest.after {s : RunState T A} {call : Call}
    (hcall : call = .handleInboundLogon ∨ call = .initiateLogout) (h : s.AtRest)
    : (call.after s).AtRest := by
  unfold Call.after
  split
  . cases hcall with
    | inl hcall =>
      rw [hcall]
      apply atRest_settleEngine
    | inr hcall =>
      rw [hcall]
      apply atRest_settleEngine
  . exact h

theorem Prepared.foldl {k : Nat} {s : RunState T A} {before : List Call} (app : FixApp A)
    (hbefore : ∀ c ∈ before, c = .handleInboundLogon ∨ c = .initiateLogout)
    (hrest : s.AtRest) (h : s.Prepared k)
    : (before.foldl Call.after s).Prepared (k + before.count .initiateLogout)
        ∧ (before.foldl Call.after s).AtRest := by
  induction before generalizing s k with
  | nil => exact ⟨h, hrest⟩
  | cons call before ih =>
    rw [List.forall_mem_cons] at hbefore
    have htail := ih hbefore.2 (hrest.after hbefore.1) (h.after call app hrest)
    rw [List.foldl_cons, List.count_cons]
    have hsum : k + (before.count .initiateLogout + if call == .initiateLogout then 1 else 0)
        = k + (if call = .initiateLogout then 1 else 0) + before.count .initiateLogout := by
      simp only [beq_iff_eq]
      omega
    rw [hsum]
    exact htail

omit [Transport T] in
theorem Prepared.settled {s : RunState T A} {before : List Call}
    (honce : before.count .initiateLogout ≤ 1) (h : s.Prepared (before.count .initiateLogout))
    : s.Settled (.initiateLogout ∈ before) False where
  sent := by
    intro hclean hor
    have hpos := List.count_pos_iff.mpr (hor.resolve_right id)
    rw [h.count hclean]
    omega
  unsent := by
    intro hclean hnone
    rw [h.count hclean]
    exact List.count_eq_zero.mpr fun hmem => hnone (.inl hmem)
  process := by
    intro hphase
    have hclean : s.phase.Clean := by
      rw [hphase]
      trivial
    rw [h.shouldStop hclean]
    simp
  poll := fun _ _ => id

end RunState

section Runs

variable (app : FixApp A) (a : A) (transport : T) (config : SessionConfig) (now : Instant)
  (clock : Clock) (before : List Call) (loop : Call)

-- A run of the loop on a fresh session after the calls of the embedder.
def loopRun (n : Nat) : RunState T A :=
  runFor app n (loop.after (prepared (.new transport (.new config now) clock) a before))

variable {before loop} (hbefore : ∀ c ∈ before, c = .handleInboundLogon ∨ c = .initiateLogout)
  (hloop : loop = .runInitiator ∨ loop = .runAcceptor)
  (honce : before.count .initiateLogout ≤ 1)

include hbefore hloop honce

theorem settled_loopRun_zero
    : (loopRun app a transport config now clock before loop 0).Settled
          (.initiateLogout ∈ before) False
        ∧ (loopRun app a transport config now clock before loop 0).engine.parser = .new
        ∧ (loopRun app a transport config now clock before loop 0).engine.sendBuf.length = 4096 := by
  let e : FixEngine T := .new transport (.new config now) clock
  have hfresh : (e.atRest a).Prepared 0 := ⟨rfl, List.length_replicate, fun _ => rfl, fun _ => rfl⟩
  have hprepared := hfresh.foldl app hbefore (.inl rfl)
  have hnot : loop ≠ .initiateLogout := by
    cases hloop with
    | inl hloop =>
      rw [hloop]
      decide
    | inr hloop =>
      rw [hloop]
      decide
  have hstart := hprepared.1.after loop app hprepared.2
  rw [if_neg hnot, Nat.zero_add, Nat.add_zero] at hstart
  exact ⟨hstart.settled honce, hstart.parser, hstart.sendBuf⟩

theorem settled_loopRun {n : Nat}
    (htells : ∀ k < n, (loopRun app a transport config now clock before loop k).TellsLogout
      (.initiateLogout ∈ before))
    : (loopRun app a transport config now clock before loop n).Settled (.initiateLogout ∈ before)
          (∃ k < n, (loopRun app a transport config now clock before loop k).StopsByLogout)
        ∧ (loopRun app a transport config now clock before loop n).engine.parser = .new
        ∧ (loopRun app a transport config now clock before loop n).engine.sendBuf.length = 4096 := by
  induction n with
  | zero =>
    have hzero := settled_loopRun_zero app a transport config now clock hbefore hloop honce
    exact ⟨hzero.1.of_iff (by simp), hzero.2⟩
  | succ n ih =>
    obtain ⟨hsettled, hparser, hlen⟩ := ih fun k hk => htells k (Nat.lt_succ_of_lt hk)
    have hsucc : loopRun app a transport config now clock before loop (n + 1)
        = RunState.step app (loopRun app a transport config now clock before loop n) :=
      runFor_succ app n _
    rw [hsucc]
    have hstep := hsettled.step app hparser hlen (htells n (Nat.lt_succ_self n))
    have hiff : (∃ k < n + 1, (loopRun app a transport config now clock before loop k).StopsByLogout)
        ↔ (∃ k < n, (loopRun app a transport config now clock before loop k).StopsByLogout)
          ∨ (loopRun app a transport config now clock before loop n).StopsByLogout :=
      Nat.exists_lt_succ_right
    refine ⟨hstep.of_iff hiff, ?_⟩
    cases RunState.step_cases app hparser with
    | inl hidle =>
      obtain ⟨evs, hidle⟩ := hidle
      exact ⟨hidle.parser.trans hparser, hidle.sendBuf.trans hlen⟩
    | inr htook =>
      obtain ⟨frame, evs, htook⟩ := htook
      exact ⟨htook.parser.trans hparser, htook.sendBuf.trans hlen⟩

end Runs

-- The embedder has called `initiate_logout` and then runs the loop.
structure InitiatedBy (reads : List Bytes) (e : FixEngine Script) : Prop where
  prepared_eq : prepared (.new (Script.mk reads) (.new acceptorConfig 0) stoppedClock) ()
    [.initiateLogout] = e.atRest ()
  transport : e.ctx.transport = ⟨reads⟩
  state : e.ctx.session.state = .logoutSent
  config : e.ctx.session.config = acceptorConfig
  shouldStop : e.shouldStop = false
  unread : e.recv.unread = []
  parser : e.parser = .new
  sendBuf : e.sendBuf.length = 4096
  sent : ∃ m, sentOf e.ctx.log = [.built m] ∧ m.msgType = MsgType.logout

theorem sendBuilt_logout_script {e : FixEngine Script}
    (hconfig : e.ctx.session.config = acceptorConfig) (hlen : e.sendBuf.length = 4096)
    : ∃ e', e.sendBuilt FixEngine.logoutMessage = .next e' ∧ e.Sends e'
        ∧ sentOf e'.ctx.log
          = sentOf e.ctx.log ++ [.built (e.nextMessage FixEngine.logoutMessage)]
        ∧ e'.ctx.transport = e.ctx.transport := by
  have hkind : FixEngine.logoutMessage ∈ Preserved.allKinds := by simp [Preserved.allKinds]
  obtain ⟨e', hout, hsends, hlog, -, htransport, -⟩ := exists_sendBuilt_script hkind hconfig hlen
  refine ⟨e', hout, hsends, ?_, htransport⟩
  rw [hlog, sentOf_append]
  rfl

theorem exists_initiatedBy (reads : List Bytes) : ∃ e, InitiatedBy reads e := by
  let e0 : FixEngine Script := .new (Script.mk reads) (.new acceptorConfig 0) stoppedClock
  have hlen : e0.sendBuf.length = 4096 := List.length_replicate
  obtain ⟨e1, hout, hsends, hsent, htransport⟩ := sendBuilt_logout_script (e := e0) rfl hlen
  let e2 := (e1.modifySession .onLogoutSent).atInstant .onMessageSent
  have hinitiate : e0.initiateLogout = .next e2 := by
    unfold FixEngine.initiateLogout FixEngine.sendLogout
    rw [hout]
    rfl
  refine ⟨e2, ?_, htransport, rfl, hsends.config, hsends.shouldStop, ?_, hsends.parser,
    hsends.sendBuf.trans hlen, e0.nextMessage FixEngine.logoutMessage, hsent, rfl⟩
  . change Call.start .initiateLogout e0 () = e2.atRest ()
    unfold Call.start
    rw [hinitiate]
    rfl
  . change e1.recv.unread = []
    rw [hsends.recv]
    exact RecvBuffer.unread_new

omit [Transport T] in
theorem RunState.timer_of_ne_active {e : FixEngine T} (hstate : e.ctx.session.state ≠ .active)
    : timer e = (.none, { e with ctx := { e.ctx with clock := e.ctx.clock.tick } }) := by
  unfold timer
  rw [e.ctx.session.checkHeartbeat_of_ne_active _ hstate]

theorem RunState.poll_of_ne_active {e : FixEngine T} (a : A) (hstop : e.shouldStop = false)
    (hstate : e.ctx.session.state ≠ .active)
    : poll e a = receive { e with ctx := { e.ctx with clock := e.ctx.clock.tick } } a := by
  unfold poll
  rw [if_neg (by simp [hstop]), timer_of_ne_active hstate]

def initiatedRun (reads : List Bytes) (n : Nat) : RunState Script Unit :=
  loopRun silentApp () (Script.mk reads) acceptorConfig 0 stoppedClock [.initiateLogout]
    .runAcceptor n

theorem InitiatedBy.run_zero {reads : List Bytes} {e : FixEngine Script} (h : InitiatedBy reads e)
    : initiatedRun reads 0 = ⟨e, (), .poll⟩ := by
  change Call.after (prepared _ _ _) _ = _
  rw [h.prepared_eq]
  rfl

theorem initiatedRun_one_closed
    : (initiatedRun [] 1).phase = .returned (.ok ())
        ∧ ∃ m, sentOf (initiatedRun [] 1).engine.ctx.log = [.built m] := by
  obtain ⟨e, he⟩ := exists_initiatedBy []
  have hrun : initiatedRun [] 1 = RunState.poll e () := by
    have hsucc : initiatedRun [] 1 = RunState.step silentApp (initiatedRun [] 0) :=
      runFor_succ silentApp 0 _
    rw [hsucc, he.run_zero]
    rfl
  obtain ⟨m, hm, _⟩ := he.sent
  rw [hrun, RunState.poll_of_ne_active () he.shouldStop (by rw [he.state]; decide)]
  unfold RunState.receive
  rw [he.transport]
  refine ⟨rfl, m, ?_⟩
  change sentOf (e.ctx.log ++ [Event.disconnected]) = _
  rw [sentOf_append, hm]
  rfl

-- The first bytes of a message; the rest has not arrived yet.
def partialFrame : Bytes := ascii "8=FIX.4.4"

theorem cut_partialFrame : FixParser.framer.cut partialFrame = none := by
  decide +kernel

-- The Logout of the embedder is sent, and the end of the next batch sends another one.
theorem initiatedRun_three
    : (initiatedRun [partialFrame] 3).phase = .returned (.ok ())
        ∧ ∃ m m', sentOf (initiatedRun [partialFrame] 3).engine.ctx.log = [.built m, .built m']
          ∧ m.msgType = MsgType.logout ∧ m'.msgType = MsgType.logout := by
  obtain ⟨e, he⟩ := exists_initiatedBy [partialFrame]
  have hsucc (n : Nat) : initiatedRun [partialFrame] (n + 1)
      = RunState.step silentApp (initiatedRun [partialFrame] n) := runFor_succ silentApp n _
  have htimer := RunState.timer_of_ne_active (e := e) (by rw [he.state]; decide)
  let e1 := RunState.receiveChunk (RunState.timer e).2 partialFrame []
  have hone : initiatedRun [partialFrame] 1 = ⟨e1, (), .process⟩ := by
    rw [hsucc, he.run_zero]
    exact RunState.poll_script () he.shouldStop (by rw [htimer]) he.transport (by decide +kernel)
      (by decide +kernel)
  have hnone : e1.recv.takeFrame = none := by
    apply RecvBuffer.takeFrame_eq_none.mpr
    change FixParser.framer.cut ((RunState.timer e).2.recv.append partialFrame).unread = none
    rw [RecvBuffer.unread_append, htimer, he.unread]
    exact cut_partialFrame
  have hstate : e1.ctx.session.state = .logoutSent := by
    change (RunState.timer e).2.ctx.session.state = _
    rw [htimer]
    exact he.state
  have hconfig : e1.ctx.session.config = acceptorConfig := by
    change (RunState.timer e).2.ctx.session.config = _
    rw [htimer]
    exact he.config
  have hlen : e1.sendBuf.length = 4096 := by
    change (RunState.timer e).2.sendBuf.length = _
    rw [htimer]
    exact he.sendBuf
  have hsent1 : sentOf e1.ctx.log = sentOf e.ctx.log := by
    change sentOf ((RunState.timer e).2.ctx.log ++ [Event.received partialFrame]) = _
    rw [htimer, sentOf_append]
    exact List.append_nil _
  obtain ⟨e2, hout, _, hsent, _⟩ := sendBuilt_logout_script hconfig hlen
  let e3 : FixEngine Script := { e2.disconnect with shouldStop := true }
  have htwo : initiatedRun [partialFrame] 2 = ⟨e3, (), .poll⟩ := by
    rw [hsucc, hone]
    change RunState.process silentApp e1 () = _
    unfold RunState.process
    rw [hnone]
    unfold FixEngine.endBatch
    rw [hstate, hout]
    rfl
  have hthree : initiatedRun [partialFrame] 3 = RunState.finish e3 () := by
    rw [hsucc, htwo]
    rfl
  rw [hthree]
  obtain ⟨m, hm, htype⟩ := he.sent
  refine ⟨rfl, m, e1.nextMessage FixEngine.logoutMessage, ?_, htype, rfl⟩
  change sentOf (e2.ctx.log ++ [Event.disconnected]) = _
  rw [sentOf_append, hsent, hsent1, hm]
  rfl

end Velocitas
