import VelocitasFix.Engine.Preserved

/-!
This module contains what the session of a running engine says of the time of its last message: it
is a reading of the clock from when a message was handed to the transport.
-/

namespace Velocitas

variable {T A : Type}

def EngineContext.sentCount (ctx : EngineContext T) : Nat := (sentOf ctx.log).length

-- The session only moves the time of the last message when a message is sent.
structure EngineContext.Voices (ctx ctx' : EngineContext T) : Prop where
  instants : ctx'.clock.instants = ctx.clock.instants
  reads : ctx.clock.reads ≤ ctx'.clock.reads
  count : ctx.sentCount ≤ ctx'.sentCount
  last : ctx'.session.lastSentTime = ctx.session.lastSentTime
    ∨ (ctx.sentCount < ctx'.sentCount
      ∧ ∃ k < ctx'.clock.reads, ctx'.session.lastSentTime = ctx'.clock.instants k)

namespace EngineContext

variable {ctx ctx' ctx'' : EngineContext T}

theorem Voices.refl (ctx : EngineContext T) : ctx.Voices ctx :=
  ⟨rfl, Nat.le_refl _, Nat.le_refl _, .inl rfl⟩

theorem Voices.trans (h : ctx.Voices ctx') (h' : ctx'.Voices ctx'') : ctx.Voices ctx'' where
  instants := h'.instants.trans h.instants
  reads := Nat.le_trans h.reads h'.reads
  count := Nat.le_trans h.count h'.count
  last := by
    rcases h'.last with hsame | ⟨hmore, hreading⟩
    . rcases h.last with hsame' | ⟨hmore, k, hk, hreading⟩
      . exact .inl (hsame.trans hsame')
      . refine .inr ⟨Nat.lt_of_lt_of_le hmore h'.count, k, Nat.lt_of_lt_of_le hk h'.reads, ?_⟩
        rw [hsame, hreading, h'.instants]
    . exact .inr ⟨Nat.lt_of_le_of_lt h.count hmore, hreading⟩

theorem voices_record (ctx : EngineContext T) (event : Event)
    : ctx.Voices (ctx.record event) where
  instants := rfl
  reads := Nat.le_refl _
  count := by
    unfold sentCount
    rw [record, sentOf_append, List.length_append]
    exact Nat.le_add_right _ _
  last := .inl rfl

theorem voices_atInstant (ctx : EngineContext T) {f : Session → Instant → Session}
    (hlast : ∀ s now, (f s now).lastSentTime = s.lastSentTime)
    : ctx.Voices (ctx.atInstant f) where
  instants := rfl
  reads := Nat.le_succ _
  count := Nat.le_refl _
  last := .inl (hlast _ _)

variable [Transport T]

theorem voices_sendRaw (ctx : EngineContext T) (data : Bytes) : ctx.Voices (ctx.sendRaw data).2 := by
  have hlog := ctx.sendRaw_log data
  have hcount : ctx.sentCount < (ctx.sendRaw data).2.sentCount := by
    unfold sentCount
    rw [hlog, sentOf_append, List.length_append]
    exact Nat.lt_add_one _
  unfold sendRaw send at hcount ⊢
  cases hsend : Transport.send ctx.transport data with
  | mk res transport =>
    rw [hsend] at hcount
    cases res with
    | error err => exact ⟨rfl, Nat.le_refl _, Nat.le_of_lt hcount, .inl rfl⟩
    | ok k =>
      exact ⟨rfl, Nat.le_succ _, Nat.le_of_lt hcount,
        .inr ⟨hcount, ctx.clock.reads, Nat.lt_succ_self _, rfl⟩⟩

theorem voices_run {α : Type} (prog : AppProg α) (ctx : EngineContext T)
    : ctx.Voices (prog.run ctx).2 := by
  induction prog generalizing ctx with
  | done result => exact .refl ctx
  | sendRaw data next ih => exact (ctx.voices_sendRaw data).trans (ih _ _)
  | session next ih => exact ih _ ctx
  | requestStop next ih =>
    have hstop : ctx.Voices ctx.requestStop := ⟨rfl, Nat.le_refl _, Nat.le_refl _, .inl rfl⟩
    exact hstop.trans (ih _)

end EngineContext

theorem Session.lastSentTime_validateInboundSeq (s : Session) (seq : UInt64) (now : Instant)
    : (s.validateInboundSeq seq now).2.lastSentTime = s.lastSentTime := by
  unfold validateInboundSeq
  split
  . rfl
  . split
    . rfl
    . rfl

-- The timer asks for a message: a heartbeat, or a TestRequest if no heartbeat is due.
theorem Session.of_checkHeartbeat_send (s : Session) {s' : Session} {now : Instant} {data : Bytes}
    (h : s.checkHeartbeat now = (.send data, s'))
    : s'.state = .active ∧ s'.config = s.config ∧ s'.lastReceivedTime = s.lastReceivedTime
        ∧ (¬ s.HeartbeatDue now →
          s.testRequestPending = false ∧ s'.testRequestPending = true) := by
  have haction := congrArg Prod.fst h
  have hsession := congrArg Prod.snd h
  have htick := s.tick_checkHeartbeat now
  generalize s.checkHeartbeat now = result at haction hsession htick
  cases htick with
  | inactive _ => contradiction
  | disconnect _ _ _ _ => contradiction
  | quiet _ _ _ => contradiction
  | heartbeat hactive hdue =>
    rw [← show _ = s' from hsession]
    exact ⟨hactive, rfl, rfl, fun hnot => absurd hdue hnot⟩
  | testRequest hactive _ _ hpending =>
    rw [← show _ = s' from hsession]
    exact ⟨hactive, rfl, rfl, fun _ => ⟨hpending, rfl⟩⟩

namespace FixEngine

theorem voices_validated (e : FixEngine T) (view : MessageView)
    : e.ctx.Voices (e.validated view).ctx := by
  have hreceived : e.ctx.Voices (e.atInstant .onMessageReceived).ctx :=
    e.ctx.voices_atInstant fun _ _ => rfl
  unfold validated validateSeq
  cases view.msgSeqNum with
  | none => exact hreceived
  | some seq =>
    exact hreceived.trans (EngineContext.voices_atInstant _ fun s now =>
      s.lastSentTime_validateInboundSeq seq now)

variable [Transport T]

theorem sendBuilt_session (e : FixEngine T) (message : Builder)
    : (e.sendBuilt message).state.ctx.session = e.ctx.session.nextOutboundSeqNum.2 := by
  unfold sendBuilt
  dsimp [Session.nextOutboundSeqNum]
  unfold transmit
  split
  . rfl
  . simp only [EngineContext.send]
    split
    all_goals
      next heq =>
        injection heq with _ heq
        rw [← heq]
        rfl

theorem sentCount_of_sendBuilt {e e' : FixEngine T} {message : Builder}
    (h : e.sendBuilt message = .next e')
    : e'.ctx.sentCount = e.ctx.sentCount + 1 := by
  have hlog := e.sendBuilt_log message
  rw [h] at hlog
  rcases hlog with ⟨_, hpanic, _⟩ | ⟨_, hlog⟩
  . contradiction
  . unfold EngineContext.sentCount
    rw [show e'.ctx.log = _ from hlog, sentOf_append, List.length_append]
    rfl

-- Whatever becomes of a message, building it does not move the time of the last one.
theorem voices_sendBuilt (e : FixEngine T) (message : Builder)
    : e.ctx.Voices (e.sendBuilt message).state.ctx := by
  have hclock := e.sendBuilt_clock message
  obtain ⟨msgs, hlog⟩ := (e.sendBuilt_sends message).1.log
  constructor
  . rw [hclock]
    rfl
  . rw [hclock]
    exact Nat.le_succ _
  . unfold EngineContext.sentCount
    rw [hlog, sentOf_append, List.length_append]
    exact Nat.le_add_right _ _
  . rw [e.sendBuilt_session message]
    exact .inl rfl

-- The engine has sent a message, and the session has noted the time of it.
structure Spoke (e e' : FixEngine T) : Prop where
  instants : e'.ctx.clock.instants = e.ctx.clock.instants
  reads : e'.ctx.clock.reads = e.ctx.clock.reads + 2
  count : e'.ctx.sentCount = e.ctx.sentCount + 1
  last : e'.ctx.session.lastSentTime = e.ctx.clock.instants (e.ctx.clock.reads + 1)

theorem spoke_of_next {e e' : FixEngine T} {message : Builder} {f : FixEngine T → FixEngine T}
    (hf : ∀ e : FixEngine T, (f e).ctx.clock = e.ctx.clock.tick ∧ (f e).ctx.log = e.ctx.log
      ∧ (f e).ctx.session.lastSentTime = e.ctx.clock.now)
    (h : (e.sendBuilt message).bind (fun e => .next (f e)) id = .next e')
    : e.Spoke e' := by
  have hclock := e.sendBuilt_clock message
  cases hsent : e.sendBuilt message with
  | halt reason e1 =>
    rw [hsent] at h
    contradiction
  | next e1 =>
    have hcount := sentCount_of_sendBuilt hsent
    rw [hsent] at h hclock
    injection h with h
    obtain ⟨hclock', hlog, hlast⟩ := hf e1
    rw [h] at hclock' hlog hlast
    change e1.ctx.clock = _ at hclock
    constructor
    . rw [hclock', hclock]
      rfl
    . rw [hclock', hclock]
      rfl
    . unfold EngineContext.sentCount at hcount ⊢
      rw [hlog, hcount]
    . rw [hlast, hclock]
      rfl

theorem spoke_sendLogon {e e' : FixEngine T} (h : e.sendLogon = .next e') : e.Spoke e' :=
  @spoke_of_next _ _ _ _ _ (fun e => e.atInstant .onMessageSent) (fun _ => ⟨rfl, rfl, rfl⟩) h

theorem spoke_sendHeartbeat {e e' : FixEngine T} (h : e.sendHeartbeat = .next e') : e.Spoke e' :=
  @spoke_of_next _ _ _ _ _ (fun e => e.atInstant .onMessageSent) (fun _ => ⟨rfl, rfl, rfl⟩) h

theorem spoke_sendLogout {e e' : FixEngine T} (h : e.sendLogout = .next e') : e.Spoke e' :=
  @spoke_of_next _ _ _ _ _ (fun e => (e.modifySession .onLogoutSent).atInstant .onMessageSent)
    (fun _ => ⟨rfl, rfl, rfl⟩) h

theorem session_of_sendHeartbeat {e e' : FixEngine T} (h : e.sendHeartbeat = .next e')
    : e'.ctx.session
        = e.ctx.session.nextOutboundSeqNum.2.onMessageSent
          (e.ctx.clock.instants (e.ctx.clock.reads + 1)) := by
  have hsession := e.sendBuilt_session heartbeatMessage
  have hclock := e.sendBuilt_clock heartbeatMessage
  unfold sendHeartbeat at h
  cases hsent : e.sendBuilt heartbeatMessage with
  | halt reason e1 =>
    rw [hsent] at h
    contradiction
  | next e1 =>
    rw [hsent] at h hsession hclock
    injection h with h
    change e1.ctx.session = _ at hsession
    change e1.ctx.clock = _ at hclock
    rw [← h]
    change e1.ctx.session.onMessageSent e1.ctx.clock.now = _
    rw [hsession, hclock]
    rfl

omit [Transport T] in
-- What the session was before the message makes no difference.
theorem Spoke.voices {e e1 e' : FixEngine T} (h : e1.Spoke e')
    (hinstants : e1.ctx.clock.instants = e.ctx.clock.instants)
    (hreads : e.ctx.clock.reads ≤ e1.ctx.clock.reads) (hcount : e.ctx.sentCount ≤ e1.ctx.sentCount)
    : e.ctx.Voices e'.ctx := by
  have hlater := h.reads
  have hmore := h.count
  refine ⟨h.instants.trans hinstants, by omega, by omega, .inr ⟨by omega, ?_⟩⟩
  refine ⟨e1.ctx.clock.reads + 1, by omega, ?_⟩
  rw [h.last, h.instants]

-- An operation that does not leave the loop.
def VoicesNext (e : FixEngine T) (o : Outcome (FixEngine T × A)) : Prop :=
  ∀ e' a, o = .next (e', a) → e.ctx.Voices e'.ctx

variable (app : FixApp A)

theorem voices_callback (e : FixEngine T) (prog : AppProg (Except ErrorKind Unit × A))
    : e.VoicesNext (e.callback prog) := by
  intro e' a h
  have hctx := Preserved.callback_state e prog
  rw [h] at hctx
  change e'.ctx = _ at hctx
  rw [hctx]
  exact EngineContext.voices_run prog e.ctx

theorem voices_acceptLogon (e : FixEngine T) (a : A) : e.VoicesNext (acceptLogon app e a) := by
  intro e' a' h
  exact (e.ctx.voices_record .onLogon).trans (voices_callback _ _ e' a' h)

theorem voices_handleLogon (e : FixEngine T) (a : A) : e.VoicesNext (handleLogon app e a) := by
  intro e' a' h
  unfold handleLogon at h
  dsimp only at h
  split at h
  . generalize he1 : (if e.ctx.session.state = .disconnected then e.connect else e) = e1 at h
    have hbefore : e1.ctx.clock.instants = e.ctx.clock.instants
        ∧ e.ctx.clock.reads ≤ e1.ctx.clock.reads ∧ e.ctx.sentCount ≤ e1.ctx.sentCount := by
      rw [← he1]
      split
      . exact ⟨rfl, Nat.le_add_right _ 2, Nat.le_refl _⟩
      . exact ⟨rfl, Nat.le_refl _, Nat.le_refl _⟩
    cases hsent : (e1.atInstant .onLogon).sendLogon with
    | halt reason e2 =>
      rw [hsent] at h
      contradiction
    | next e2 =>
      rw [hsent] at h
      have hvoices : e.ctx.Voices e2.ctx :=
        (spoke_sendLogon hsent).voices hbefore.1 (Nat.le_succ_of_le hbefore.2.1) hbefore.2.2
      exact hvoices.trans (voices_acceptLogon app e2 a e' a' h)
  . split at h
    . have hlogon : e.ctx.Voices (e.atInstant .onLogon).ctx := e.ctx.voices_atInstant fun _ _ => rfl
      exact hlogon.trans (voices_acceptLogon app _ a e' a' h)
    . injection h with h
      injection h with h
      rw [← h]
      exact .refl _

omit [Transport T] in
theorem voices_disconnect (e : FixEngine T) : e.ctx.Voices e.disconnect.ctx := by
  have hsession : e.ctx.Voices (e.modifySession .onDisconnected).ctx :=
    ⟨rfl, Nat.le_refl _, Nat.le_refl _, .inl rfl⟩
  exact hsession.trans (EngineContext.voices_record _ .disconnected)

theorem voices_handleLogout (e : FixEngine T) (a : A) : e.VoicesNext (handleLogout app e a) := by
  intro e' a' h
  have hrecord : e.ctx.Voices (e.record .onLogout).ctx := e.ctx.voices_record _
  unfold handleLogout at h
  dsimp only at h
  cases hlogout : app.onLogout a with
  | mk res a1 =>
    rw [hlogout] at h
    cases res with
    | error err => contradiction
    | ok _ =>
      dsimp only at h
      split at h
      . cases hsent : (e.record .onLogout).sendLogout with
        | halt reason e1 =>
          rw [hsent] at h
          contradiction
        | next e1 =>
          rw [hsent] at h
          injection h with h
          injection h with h
          have hspoke : (e.record .onLogout).ctx.Voices e1.ctx :=
            (spoke_sendLogout hsent).voices rfl (Nat.le_refl _) (Nat.le_refl _)
          rw [← h]
          exact hrecord.trans (hspoke.trans e1.voices_disconnect)
      . injection h with h
        injection h with h
        rw [← h]
        exact hrecord.trans (e.record .onLogout).voices_disconnect

theorem voices_dispatch (e : FixEngine T) (a : A) (view : MessageView) (expected : UInt64)
    : e.VoicesNext (dispatch app e a view expected) := by
  have hsame : e.VoicesNext (.next (e, a)) := by
    intro e' a' h
    injection h with h
    injection h with h
    rw [← h]
    exact .refl _
  unfold dispatch
  cases view.msgType with
  | none => exact hsame
  | some msgType =>
    dsimp only
    split
    . exact e.voices_handleLogon app a
    . split
      . exact hsame
      . split
        . intro e' a' h
          cases hsent : e.sendHeartbeat with
          | halt reason e1 =>
            rw [hsent] at h
            contradiction
          | next e1 =>
            rw [hsent] at h
            injection h with h
            injection h with h
            rw [← h]
            exact (spoke_sendHeartbeat hsent).voices rfl (Nat.le_refl _) (Nat.le_refl _)
        . split
          . exact e.voices_handleLogout app a
          . intro e' a' h
            exact (e.ctx.voices_record _).trans (voices_callback _ _ e' a' h)

theorem voices_processMessage (e : FixEngine T) (a : A) (frame : Bytes)
    : e.VoicesNext (processMessage app e a frame) := by
  intro e' a' h
  unfold processMessage at h
  split at h
  . injection h with h
    injection h with h
    rw [← h]
    exact .refl _
  . next view _ _ => exact (e.voices_validated view).trans (voices_dispatch app _ a view _ e' a' h)

theorem voices_endBatch {e e' : FixEngine T} (h : e.endBatch = .next e') : e.ctx.Voices e'.ctx := by
  unfold endBatch at h
  split at h
  . injection h with h
    rw [← h]
    exact ⟨rfl, Nat.le_refl _, Nat.le_refl _, .inl rfl⟩
  . have hsent := e.voices_sendBuilt logoutMessage
    cases hout : e.sendBuilt logoutMessage with
    | next e1 =>
      rw [hout] at h hsent
      injection h with h
      rw [← h]
      exact hsent.trans e1.voices_disconnect
    | halt reason e1 =>
      rw [hout] at h hsent
      cases reason with
      | panic => contradiction
      | error err =>
        injection h with h
        rw [← h]
        exact hsent.trans e1.voices_disconnect
  . injection h with h
    rw [← h]
    exact .refl _

end FixEngine

namespace RunState

variable [Transport T] (app : FixApp A)

-- What a read of the transport leaves as it was, unless it ends the loop.
theorem receive_cases (e : FixEngine T) (a : A)
    : ¬ (receive e a).Running
        ∨ (receive e a).engine.ctx.session = e.ctx.session
          ∧ (receive e a).engine.ctx.clock = e.ctx.clock
          ∧ (receive e a).engine.ctx.sentCount = e.ctx.sentCount
          ∧ ((receive e a).phase = .poll
            ∨ received (receive e a).engine.ctx.log ≠ received e.ctx.log) := by
  unfold receive
  cases Transport.recv e.ctx.transport 8192 with
  | mk res transport =>
    cases res with
    | error err =>
      left
      dsimp only
      split
      . exact not_running_of_returned
      . exact not_running_of_returned
    | ok data =>
      right
      dsimp only
      split
      . exact ⟨rfl, rfl, rfl, .inl rfl⟩
      . next hne =>
        refine ⟨rfl, rfl, ?_, .inr ?_⟩
        . unfold EngineContext.sentCount
          change (sentOf (e.ctx.log ++ [.received data])).length = _
          rw [sentOf_append, List.length_append]
          rfl
        . change received (e.ctx.log ++ [.received data]) ≠ received e.ctx.log
          rw [received_append, Ne, List.append_right_eq_self]
          intro hnil
          apply hne
          have hdata : received [.received data] = data := List.append_nil data
          rw [← hdata, hnil]
          rfl

-- A poll that stays in the loop has read the transport, after the heartbeat if the timer asked for it.
theorem poll_of_running {e : FixEngine T} {a : A} (h : (poll e a).Running)
    : (∃ e1, timer e = (.none, e1) ∧ poll e a = receive e1 a)
        ∨ ∃ data e1 e2, timer e = (.send data, e1) ∧ e1.sendHeartbeat = .next e2
          ∧ poll e a = receive e2 a := by
  unfold poll at h ⊢
  split at h
  . exact absurd h not_running_of_returned
  . next hstop =>
    rw [if_neg hstop]
    have htick := e.ctx.session.tick_checkHeartbeat e.ctx.clock.now
    have hstate : (timer e).1 ≠ .none → (timer e).2.ctx.session.state = .active := by
      change (e.ctx.session.checkHeartbeat e.ctx.clock.now).1 ≠ .none →
        (e.ctx.session.checkHeartbeat e.ctx.clock.now).2.state = .active
      generalize e.ctx.session.checkHeartbeat e.ctx.clock.now = result at htick
      intro hne
      cases htick with
      | inactive _ => contradiction
      | heartbeat hactive _ => exact hactive
      | disconnect hactive _ _ _ => exact hactive
      | testRequest hactive _ _ _ => exact hactive
      | quiet _ _ _ => contradiction
    cases htimer : timer e with
    | mk action e1 =>
      rw [htimer] at h hstate
      cases action with
      | none => exact .inl ⟨e1, rfl, rfl⟩
      | disconnect => exact absurd h not_running_of_returned
      | send data =>
        have hactive : e1.ctx.session.state = .active := hstate (by simp)
        dsimp only at h ⊢
        rw [if_pos hactive] at h ⊢
        cases hsent : e1.sendHeartbeat with
        | next e2 => exact .inr ⟨data, e1, e2, rfl, hsent, rfl⟩
        | halt reason e2 =>
          rw [hsent] at h
          exact absurd h not_running_halted

omit [Transport T] in
theorem timer_clock {e e1 : FixEngine T} {action : SessionAction} (h : timer e = (action, e1))
    : e.ctx.session.checkHeartbeat e.ctx.clock.now = (action, e1.ctx.session)
        ∧ e1.ctx.clock = e.ctx.clock.tick ∧ e1.ctx.log = e.ctx.log := by
  unfold timer at h
  injection h with haction h
  rw [← h, ← haction]
  exact ⟨rfl, rfl, rfl⟩

theorem voices_receive {e : FixEngine T} {a : A} (h : (receive e a).Running)
    : e.ctx.Voices (receive e a).engine.ctx := by
  rcases receive_cases e a with hnot | ⟨hsession, hclock, hcount, -⟩
  . exact absurd h hnot
  . constructor
    . rw [hclock]
    . rw [hclock]
    . rw [hcount]
    . rw [hsession]
      exact .inl rfl

theorem voices_poll {e : FixEngine T} {a : A} (h : (poll e a).Running)
    : e.ctx.Voices (poll e a).engine.ctx := by
  rcases poll_of_running h with ⟨e1, htimer, hpoll⟩ | ⟨data, e1, e2, htimer, hsent, hpoll⟩
  . obtain ⟨hcheck, hclock, hlog⟩ := timer_clock htimer
    rw [hpoll] at h ⊢
    apply EngineContext.Voices.trans _ (voices_receive h)
    have hsession := e.ctx.session.checkHeartbeat_of_none (congrArg Prod.fst hcheck)
    rw [hcheck] at hsession
    constructor
    . rw [hclock]
      rfl
    . rw [hclock]
      exact Nat.le_succ _
    . unfold EngineContext.sentCount
      rw [hlog]
    . exact .inl (congrArg Session.lastSentTime hsession)
  . obtain ⟨-, hclock, hlog⟩ := timer_clock htimer
    rw [hpoll] at h ⊢
    apply EngineContext.Voices.trans _ (voices_receive h)
    apply (FixEngine.spoke_sendHeartbeat hsent).voices
    . rw [hclock]
      rfl
    . rw [hclock]
      exact Nat.le_succ _
    . unfold EngineContext.sentCount
      rw [hlog]

-- A poll on which a heartbeat is due sends something.
theorem sends_of_heartbeatDue {e : FixEngine T} {a : A} (h : (poll e a).Running)
    (hactive : e.ctx.session.state = .active) (hdue : e.ctx.session.HeartbeatDue e.ctx.clock.now)
    : e.ctx.sentCount < (poll e a).engine.ctx.sentCount := by
  rcases poll_of_running h with ⟨e1, htimer, -⟩ | ⟨data, e1, e2, htimer, hsent, hpoll⟩
  . obtain ⟨hcheck, -, -⟩ := timer_clock htimer
    have haction := congrArg Prod.fst hcheck
    have htick := e.ctx.session.tick_checkHeartbeat e.ctx.clock.now
    generalize e.ctx.session.checkHeartbeat e.ctx.clock.now = result at haction htick
    cases htick with
    | inactive hstate => exact absurd hactive hstate
    | heartbeat _ _ => contradiction
    | disconnect _ _ _ _ => contradiction
    | testRequest _ _ _ _ => contradiction
    | quiet _ hnot _ => exact absurd hdue hnot
  . obtain ⟨-, -, hlog⟩ := timer_clock htimer
    have hsame : e1.ctx.sentCount = e.ctx.sentCount := by
      unfold EngineContext.sentCount
      rw [hlog]
    have hmore := (FixEngine.spoke_sendHeartbeat hsent).count
    rw [hpoll] at h ⊢
    have hle := (voices_receive h).count
    omega

theorem voices_step {s : RunState T A} (h : (step app s).Running)
    : s.engine.ctx.Voices (step app s).engine.ctx ∧ s.Running := by
  rcases s with ⟨e, a, phase⟩
  cases phase with
  | returned res => exact ⟨.refl _, h⟩
  | panicked => exact ⟨.refl _, h⟩
  | poll =>
    refine ⟨voices_poll h, .inr ⟨rfl, ?_⟩⟩
    change (poll e a).Running at h
    unfold poll at h
    split at h
    . exact absurd h not_running_of_returned
    . next hstop => exact Bool.eq_false_of_not_eq_true hstop
  | process =>
    refine ⟨?_, .inl rfl⟩
    change (process app e a).Running at h
    change e.ctx.Voices (process app e a).engine.ctx
    unfold process at h ⊢
    cases htake : e.recv.takeFrame with
    | none =>
      rw [htake] at h
      dsimp only at h ⊢
      cases hout : e.endBatch with
      | next e' => exact FixEngine.voices_endBatch hout
      | halt reason e' =>
        rw [hout] at h
        exact absurd h not_running_halted
    | some res =>
      rw [htake] at h
      dsimp only at h ⊢
      have htaken : e.ctx.Voices (({ e with recv := res.2 } : FixEngine T).record (.taken res.1)).ctx :=
        e.ctx.voices_record _
      generalize ({ e with recv := res.2 } : FixEngine T).record (.taken res.1) = e1 at h htaken ⊢
      cases hout : FixEngine.processMessage app e1 a res.1 with
      | next s' => exact htaken.trans (e1.voices_processMessage app a res.1 s'.1 s'.2 hout)
      | halt reason s' =>
        rw [hout] at h
        exact absurd h not_running_halted

theorem voices_runFor {s : RunState T A} (n : Nat) (h : (runFor app n s).Running)
    : s.engine.ctx.Voices (runFor app n s).engine.ctx ∧ s.Running := by
  induction n with
  | zero => exact ⟨.refl _, h⟩
  | succ n ih =>
    rw [runFor_succ] at h ⊢
    obtain ⟨hstep, hrunning⟩ := voices_step app h
    obtain ⟨hrun, hstart⟩ := ih hrunning
    exact ⟨hrun.trans hstep, hstart⟩

end RunState

theorem Entry.voices_start [Transport T] (entry : Entry) (e : FixEngine T) (a : A)
    (h : (entry.start e a).Running)
    : e.ctx.Voices (entry.start e a).engine.ctx := by
  cases entry with
  | runAcceptor => exact .refl _
  | runInitiator =>
    simp only [start] at h ⊢
    cases hsent : e.connect.sendLogon with
    | next e' =>
      have hspoke := FixEngine.spoke_sendLogon hsent
      exact hspoke.voices rfl (Nat.le_add_right _ 2) (Nat.le_refl _)
    | halt reason e' =>
      rw [hsent] at h
      exact absurd h RunState.not_running_halted
  | handleInboundLogon =>
    simp only [start, FixEngine.handleInboundLogon] at h ⊢
    let e1 := (e.connect.atInstant .onLogon).record .handledLogon
    have hbefore : (e.connect.atInstant .onLogon).ctx.Voices e1.ctx := EngineContext.voices_record _ _
    cases hsent : e1.sendLogon with
    | next e' =>
      have hspoke := FixEngine.spoke_sendLogon hsent
      exact hspoke.voices rfl (Nat.le_add_right _ 3) hbefore.count
    | halt reason e' =>
      rw [hsent] at h
      exact absurd h RunState.not_running_halted

section

variable [Transport T] (app : FixApp A) (a : A) (transport : T) (session : Session) (clock : Clock)
  (entry : Entry)

-- What the session says of the time and of what was sent, at any two points of a run.
theorem voices_run {n m : Nat} (hle : n ≤ m)
    (h : (runOf app a transport session clock entry m).Running)
    : (FixEngine.new transport session clock).ctx.Voices
          (runOf app a transport session clock entry n).engine.ctx
        ∧ (runOf app a transport session clock entry n).engine.ctx.Voices
          (runOf app a transport session clock entry m).engine.ctx := by
  obtain ⟨k, hk⟩ := Nat.exists_eq_add_of_le hle
  have hm : runOf app a transport session clock entry m
      = runFor app k (runOf app a transport session clock entry n) := by
    rw [hk]
    exact runFor_add app n k _
  rw [hm] at h ⊢
  obtain ⟨hlater, hrunning⟩ := RunState.voices_runFor app k h
  obtain ⟨hrun, hstart⟩ := RunState.voices_runFor app n hrunning
  exact ⟨(entry.voices_start _ a hstart).trans hrun, hlater⟩

omit [Transport T] in
-- The last message was sent in the past.
theorem EngineContext.Voices.lastSentTime_le {ctx ctx' : EngineContext T} (h : ctx.Voices ctx')
    (hclock : Monotone ctx.clock.instants) (hsession : ctx.session.lastSentTime ≤ ctx.clock.now)
    : ctx'.session.lastSentTime ≤ ctx'.clock.now := by
  unfold Clock.now at hsession ⊢
  rw [h.instants]
  rcases h.last with hsame | ⟨-, k, hk, hreading⟩
  . rw [hsame]
    exact Nat.le_trans hsession (hclock h.reads)
  . rw [hreading, h.instants]
    exact hclock (Nat.le_of_lt hk)

end

end Velocitas
