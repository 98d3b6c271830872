import VelocitasFix.Engine.Delivery
import VelocitasFix.Engine.Embedder
import VelocitasFix.Engine.Script

/-!
This module contains which session level messages reach the application: the dispatch of the engine
knows four of the seven types that the classification of the message types calls session level.
-/

namespace Velocitas

variable {T A : Type}

namespace MsgTypeEnum

-- The types of session level that the dispatch has no arm for.
def undispatched : List MsgTypeEnum := [.resendRequest, .reject, .sequenceReset]

-- Only the bytes of an arm give its type, and `Unknown` is of no level.
theorem mem_arms_of_fromBytes {bytes : Bytes} {ty : MsgTypeEnum} (h : fromBytes bytes = some ty)
    (hlevel : ty.isSessionLevel = true)
    : (bytes, ty) ∈ arms := by
  unfold fromBytes at h
  split at h
  . next bytes' ty' hfind =>
    have hbytes : bytes' = bytes := by simpa using List.find?_some hfind
    rw [← Option.some.inj h, ← hbytes]
    exact List.mem_of_find?_eq_some hfind
  . rw [← Option.some.inj h] at hlevel
    contradiction

theorem dispatched_or_undispatched : ∀ arm ∈ arms, arm.2.isSessionLevel = true →
    arm.1 ∈ [MsgType.logon, MsgType.heartbeat, MsgType.testRequest, MsgType.logout]
      ∨ arm.2 ∈ undispatched := by
  decide

theorem undispatched_isSessionLevel : ∀ ty ∈ undispatched, ty.isSessionLevel = true := by decide

theorem not_undispatched_of_dispatched
    : ∀ bytes ∈ [MsgType.logon, MsgType.heartbeat, MsgType.testRequest, MsgType.logout],
      ∀ ty ∈ undispatched, fromBytes bytes ≠ some ty := by
  decide

end MsgTypeEnum

-- The type of the message has session level, but the engine hands it to the application.
def MessageView.Undispatched (view : MessageView) : Prop :=
  ∃ ty ∈ MsgTypeEnum.undispatched, view.msgTypeEnum = some ty

-- No delivered message is of session level.
def SessionLevelKept (log : List Event) : Prop :=
  ∀ msgType view expected, .onMessage msgType view expected ∈ log →
    ∀ ty, MsgTypeEnum.fromBytes msgType = some ty → ty.isSessionLevel = false

theorem sessionLevelKept_append (log evs : List Event)
    : SessionLevelKept (log ++ evs) ↔ SessionLevelKept log ∧ SessionLevelKept evs := by
  simp only [SessionLevelKept, List.mem_append, or_imp, forall_and]

theorem MessageView.Undispatched.isApplication {view : MessageView} (h : view.Undispatched)
    : view.IsApplication := by
  obtain ⟨ty, hty, henum⟩ := h
  unfold msgTypeEnum at henum
  cases htype : view.msgType with
  | none =>
    rw [htype] at henum
    contradiction
  | some msgType =>
    rw [htype, Option.bind_some] at henum
    refine ⟨msgType, htype, ?_⟩
    intro hdispatched
    exact MsgTypeEnum.not_undispatched_of_dispatched msgType hdispatched ty hty henum

theorem FixEngine.Handled.msgType_of_onMessage {view view' : MessageView}
    {expected expected' : UInt64} {e e' : FixEngine T} {left : Prop} {evs : List Event}
    {msgType : Bytes} (h : Handled view expected e e' left evs)
    (hmem : .onMessage msgType view' expected' ∈ evs)
    : view.msgType = some msgType := by
  cases h with
  | message _ _ htype =>
    rw [List.mem_cons] at hmem
    rcases hmem with hmem | hmem
    . injection hmem with htype' _ _
      rw [htype', htype]
    . simp at hmem
  | _ => simp at hmem

theorem FixEngine.Handled.sessionLevelKept_iff {view : MessageView} {expected : UInt64}
    {e e' : FixEngine T} {left : Prop} {evs : List Event} (h : Handled view expected e e' left evs)
    : SessionLevelKept evs ↔ ¬ view.Undispatched := by
  constructor
  . intro hkept hundispatched
    obtain ⟨msgType, hmem⟩ := h.exists_onMessage hundispatched.isApplication
    obtain ⟨ty, hty, henum⟩ := hundispatched
    rw [MessageView.msgTypeEnum, h.msgType_of_onMessage hmem, Option.bind_some] at henum
    have hlevel := hkept msgType view expected hmem ty henum
    rw [MsgTypeEnum.undispatched_isSessionLevel ty hty] at hlevel
    contradiction
  . intro hnot msgType view' expected' hmem ty hty
    have htype := h.msgType_of_onMessage hmem
    obtain ⟨_, _, msgType', htype', happ⟩ := h.of_onMessage hmem
    rw [htype, Option.some.injEq] at htype'
    by_contra hlevel
    rw [Bool.not_eq_false] at hlevel
    have harm := MsgTypeEnum.mem_arms_of_fromBytes hty hlevel
    rcases MsgTypeEnum.dispatched_or_undispatched _ harm hlevel with hdispatched | hundispatched
    . rw [htype'] at hdispatched
      exact happ hdispatched
    . apply hnot
      refine ⟨ty, hundispatched, ?_⟩
      rw [MessageView.msgTypeEnum, htype, Option.bind_some, hty]

-- Exactly the messages of those types that were taken from the stream break the property.
def LevelTracked (log : List Event) : Prop :=
  SessionLevelKept log
    ↔ ∀ frame ∈ taken log, ∀ view, accepted frame = some view → ¬ view.Undispatched

-- Events that neither take a frame nor deliver a message.
structure Undelivering (evs : List Event) : Prop where
  taken : taken evs = []
  onMessage : ∀ msgType view expected, .onMessage msgType view expected ∉ evs

theorem Undelivering.of_sent (msgs : List Outbound) : Undelivering (msgs.map Event.sent) :=
  ⟨taken_map_sent msgs, not_onMessage_of_isIdle RunState.isIdle_map_sent⟩

theorem LevelTracked.append {log evs : List Event} (h : LevelTracked log)
    (hevs : Undelivering evs)
    : LevelTracked (log ++ evs) := by
  have hkept : SessionLevelKept evs := by
    intro msgType view expected hmem
    exact absurd hmem (hevs.onMessage msgType view expected)
  rw [LevelTracked, taken_append, hevs.taken, List.append_nil, sessionLevelKept_append,
    and_iff_left hkept]
  exact h

theorem RunState.Idle.levelTracked {s s' : RunState T A} {evs : List Event} (h : s.Idle s' evs)
    (hs : LevelTracked s.engine.ctx.log)
    : LevelTracked s'.engine.ctx.log := by
  rw [h.log]
  exact hs.append ⟨taken_eq_nil h.events, not_onMessage_of_isIdle h.events⟩

theorem RunState.Took.levelTracked {s s' : RunState T A} {frame : Bytes} {evs : List Event}
    (h : s.Took s' frame evs) (hs : LevelTracked s.engine.ctx.log)
    : LevelTracked s'.engine.ctx.log := by
  have htail : SessionLevelKept (.taken frame :: evs) ↔ SessionLevelKept evs := by
    simp [SessionLevelKept]
  have hframe : SessionLevelKept evs
      ↔ ∀ view, accepted frame = some view → ¬ view.Undispatched := by
    cases haccepted : accepted frame with
    | none =>
      rw [(h.rejected haccepted).1]
      simp [SessionLevelKept]
    | some view =>
      obtain ⟨e, _, _, _, hhandled⟩ := h.handled view haccepted
      rw [hhandled.sessionLevelKept_iff]
      simp
  unfold LevelTracked at hs ⊢
  rw [h.taken_received.1, h.log, sessionLevelKept_append, htail, hs, hframe]
  simp only [List.mem_append, List.mem_singleton, or_imp, forall_and, forall_eq]

variable [Transport T]

theorem Call.start_log (call : Call) (e : FixEngine T) (a : A)
    : ∃ evs, (call.start e a).engine.ctx.log = e.ctx.log ++ evs ∧ Undelivering evs := by
  cases call with
  | runInitiator =>
    obtain ⟨msgs, hlog⟩ := (e.sends_connect.trans e.connect.sendLogon_sends).log
    simp only [start, settleEngine_engine]
    exact ⟨_, hlog, .of_sent msgs⟩
  | runAcceptor => exact ⟨[], (List.append_nil _).symm, .of_sent []⟩
  | handleInboundLogon =>
    obtain ⟨msgs, hlog⟩ := ((e.connect.atInstant .onLogon).record .handledLogon).sendLogon_sends.log
    have hsent := Undelivering.of_sent msgs
    simp only [start, settleEngine_engine]
    refine ⟨.handledLogon :: msgs.map Event.sent, ?_, ?_⟩
    . change (FixEngine.sendLogon _).state.ctx.log = _
      rw [hlog, FixEngine.record_log, List.append_assoc]
      rfl
    . refine ⟨hsent.taken, ?_⟩
      intro msgType view expected hmem
      rw [List.mem_cons] at hmem
      rcases hmem with hmem | hmem
      . contradiction
      . exact hsent.onMessage msgType view expected hmem
  | initiateLogout =>
    obtain ⟨msgs, hlog⟩ := e.sendLogout_sends.log
    simp only [start, settleEngine_engine]
    exact ⟨_, hlog, .of_sent msgs⟩

theorem Reachable.levelTracked {app : FixApp A} {start s : RunState T A}
    (hreach : Reachable app start s) (hparser : start.engine.parser = .new)
    (hstart : LevelTracked start.engine.ctx.log)
    : s.engine.parser = .new ∧ LevelTracked s.engine.ctx.log := by
  induction hreach with
  | refl => exact ⟨hparser, hstart⟩
  | @step s _ ih =>
    refine ⟨(s.step_fields app ih.1).1.trans ih.1, ?_⟩
    rcases RunState.step_cases app ih.1 with ⟨evs, hidle⟩ | ⟨frame, evs, htook⟩
    . exact hidle.levelTracked ih.2
    . exact htook.levelTracked ih.2
  | @call s res call a _ _ ih =>
    refine ⟨(call.start_fields s.engine a).1.trans ih.1, ?_⟩
    obtain ⟨evs, hlog, hevs⟩ := call.start_log s.engine a
    rw [hlog]
    exact ih.2.append hevs

theorem Reachable.levelTracked_of_new {app : FixApp A} {a : A} {transport : T} {session : Session}
    {clock : Clock} {s : RunState T A}
    (hreach : Reachable app (FixEngine.atRest (.new transport session clock) a) s)
    : LevelTracked s.engine.ctx.log := by
  have hempty : LevelTracked [] := by
    simp [LevelTracked, SessionLevelKept, taken]
  exact (hreach.levelTracked rfl hempty).2

theorem MessageView.undispatched_iff (view : MessageView)
    : view.Undispatched
        ↔ view.msgTypeEnum ∈ [some .resendRequest, some .reject, some .sequenceReset] := by
  simp [Undispatched, MsgTypeEnum.undispatched]

theorem session_level_kept_iff (app : FixApp A) (a : A) (transport : T) (session : Session)
    (clock : Clock) {s : RunState T A}
    (hreach : Reachable app (FixEngine.atRest (.new transport session clock) a) s)
    : SessionLevelKept s.engine.ctx.log
        ↔ ∀ frame ∈ taken s.engine.ctx.log, ∀ view, accepted frame = some view →
          view.msgTypeEnum ∉ [some .resendRequest, some .reject, some .sequenceReset] := by
  simp only [← MessageView.undispatched_iff]
  exact hreach.levelTracked_of_new

def resendRequestFrame (seq : UInt64) : Bytes :=
  OutMessage.bytes {
    beginString := ascii "FIX.4.4"
    msgType := ascii "2"
    args := [.str 49 (ascii "PEER"), .str 56 (ascii "ENGINE"), .u64 34 seq,
      .str 52 (ascii "20260321-10:00:00.000"), .u64 7 1, .u64 16 0]
  }

theorem peerFrame_resendRequest (seq : UInt64)
    : PeerFrame (ascii "2") seq (resendRequestFrame seq) := by
  have hlen : (resendRequestFrame seq).length ≤ 8192 := by
    apply Nat.le_trans (OutMessage.length_bytes_le _)
    change 40 + 7 + 1 + (12 + 4 + (12 + 6 + (32 + (12 + 21 + (32 + (32 + 0)))))) ≤ 8192
    decide
  have hbegin : Tags.soh ∉ ascii "FIX.4.4" := by decide
  have htype : Tags.soh ∉ ascii "2" := by decide
  apply peerFrame_of_readable _ hlen
  apply OutMessage.Readable.of_args hbegin htype (by decide) (by decide) (by decide)
    (Nat.le_trans hlen (by decide)) rfl
  . intro arg harg
    simp only [List.mem_cons, List.not_mem_nil, or_false] at harg
    rcases harg with rfl | rfl
    . exact ⟨(by decide : (7 : UInt32) ≠ Tags.checksum), by decide, by decide⟩
    . exact ⟨(by decide : (16 : UInt32) ≠ Tags.checksum), by decide, by decide⟩
  . decide

-- An acceptor to which a ResendRequest is the first message.
def resendRun : RunState Script Unit :=
  acceptorRun (.new acceptorConfig 0) [resendRequestFrame 1] 2

theorem resendRun_reachable
    : Reachable silentApp (FixEngine.atRest
        (.new (Script.mk [resendRequestFrame 1]) (.new acceptorConfig 0) stoppedClock) ())
        resendRun :=
  (Reachable.first .runAcceptor _ ()).runFor 2

theorem session_level_kept_iff_resendRun
    : Reachable silentApp (FixEngine.atRest
          (.new (Script.mk [resendRequestFrame 1]) (.new acceptorConfig 0) stoppedClock) ())
          resendRun
        ∧ (SessionLevelKept resendRun.engine.ctx.log
          ↔ ∀ frame ∈ taken resendRun.engine.ctx.log, ∀ view, accepted frame = some view →
            view.msgTypeEnum ∉ [some .resendRequest, some .reject, some .sequenceReset]) :=
  ⟨resendRun_reachable, session_level_kept_iff silentApp () _ _ _ resendRun_reachable⟩

theorem not_session_level_kept
    : ¬ ∀ (app : FixApp Unit) (transport : Script) (session : Session) (clock : Clock)
        (s : RunState Script Unit),
        Reachable app (FixEngine.atRest (.new transport session clock) ()) s →
        SessionLevelKept s.engine.ctx.log := by
  intro h
  have hkept := h silentApp _ _ _ resendRun resendRun_reachable
  obtain ⟨evs, htook⟩ := acceptorRun_two [] quiet_new (peerFrame_resendRequest 1)
  obtain ⟨view, hview, htype, _⟩ := (peerFrame_resendRequest 1).exists_view
  have hmem : resendRequestFrame 1 ∈ taken resendRun.engine.ctx.log := by
    rw [resendRun, htook.taken_received.1]
    exact List.mem_append_right _ List.mem_cons_self
  apply resendRun_reachable.levelTracked_of_new.mp hkept _ hmem view hview
  refine ⟨.resendRequest, by decide, ?_⟩
  rw [MessageView.msgTypeEnum, htype]
  decide

end Velocitas
