import VelocitasFix.Data.History
import VelocitasFix.Engine.Logon
import VelocitasFix.Engine.Numbering

/-!
This module contains the relation between the CompIDs of the messages and the callbacks. Nothing in
the loop reads `validateCompIds` or looks at a CompID, so that the callbacks are only called for the
counterparty of the session exactly in the runs whose stream brings no message of anybody else that
reaches a callback.
-/

namespace Velocitas

variable {T A : Type}

namespace Event

def IsCallback : Event → Prop
  | .onLogon => True
  | .onMessage _ _ _ => True
  | _ => False

-- A callback that is given a message is given this one.
def Concerns (view : MessageView) : Event → Prop
  | .onMessage _ view' _ => view' = view
  | _ => True

end Event

-- The message was sent by the counterparty of the session, and to this side of it.
def MessageView.HasCompIds (config : SessionConfig) (view : MessageView) : Prop :=
  view.getField Tags.senderCompId = some config.targetCompId
    ∧ view.getField Tags.targetCompId = some config.senderCompId

def lastMessage (log : List Event) : Option MessageView := (taken log).getLast?.bind accepted

def CompIdsValidated (config : SessionConfig) (log : List Event) : Prop :=
  History.Each (fun earlier ev => ev.IsCallback →
    ∃ view, lastMessage earlier = some view ∧ ev.Concerns view ∧ view.HasCompIds config) log

section

variable {config : SessionConfig} {log evs : List Event} {view : MessageView}

theorem compIdsValidated_append (h : ∀ ev ∈ evs, ¬ ev.IsCallback)
    : CompIdsValidated config (log ++ evs) ↔ CompIdsValidated config log := by
  apply History.each_append
  intro ev hmem earlier hcallback
  exact absurd hcallback (h ev hmem)

theorem compIdsValidated_callback {ev : Event} (hlast : lastMessage log = some view)
    (hcallback : ev.IsCallback) (hconcerns : ev.Concerns view)
    : CompIdsValidated config (log ++ [ev])
        ↔
      CompIdsValidated config log ∧ view.HasCompIds config := by
  unfold CompIdsValidated
  rw [History.each_concat]
  simp [hlast, hcallback, hconcerns]

theorem not_isCallback_map_sent {msgs : List Outbound}
    : ∀ ev ∈ msgs.map Event.sent, ¬ ev.IsCallback := by
  simp [Event.IsCallback]

theorem Event.IsIdle.not_isCallback {ev : Event} (h : ev.IsIdle) : ¬ ev.IsCallback := by
  cases ev with
  | onLogon => exact absurd h id
  | onMessage msgType view expected => exact absurd h id
  | _ => exact id

theorem lastMessage_append_sent (log : List Event) (msgs : List Outbound)
    : lastMessage (log ++ msgs.map Event.sent) = lastMessage log := by
  rw [lastMessage, taken_append, taken_map_sent, List.append_nil, lastMessage]

theorem lastMessage_taken (log : List Event) (frame : Bytes)
    : lastMessage (log ++ [.taken frame]) = accepted frame := by
  rw [lastMessage, taken_append]
  change (taken log ++ [frame]).getLast?.bind accepted = _
  rw [List.getLast?_concat, Option.bind_some]

end

namespace FixEngine

variable [Transport T]

-- A Logon that is dispatched now is reported to the application.
def AcceptsLogon (e : FixEngine T) : Prop :=
  (e.ctx.session.config.role = .acceptor
      ∧ (e.ctx.session.state = .disconnected ∨ e.ctx.session.state = .connecting)
      ∧ e.CanSend (e.logonAnswer 0))
    ∨ e.ctx.session.state = .logonSent

-- A message that is dispatched now reaches `onLogon` or `onMessage`.
def Tells (e : FixEngine T) (view : MessageView) : Prop :=
  view.IsApplication ∨ view.msgType = some MsgType.logon ∧ e.AcceptsLogon

theorem handleLogon_cases (app : FixApp A) (e : FixEngine T) (a : A)
    : (e.AcceptsLogon ∧ ∃ msgs msgs' : List Outbound, (handleLogon app e a).state.1.ctx.log
          = e.ctx.log ++ msgs.map Event.sent ++ [.onLogon] ++ msgs'.map Event.sent)
        ∨ (¬ e.AcceptsLogon ∧ ∃ msgs : List Outbound, (handleLogon app e a).state.1.ctx.log
          = e.ctx.log ++ msgs.map Event.sent) := by
  by_cases hsent : e.ctx.session.state = .logonSent
  . left
    rcases handleLogon_logonSent app a hsent with ⟨msgs, hlog⟩
    refine ⟨.inr hsent, [], msgs, ?_⟩
    rw [hlog]
    simp
  by_cases hacceptor : e.ctx.session.config.role = .acceptor
      ∧ (e.ctx.session.state = .disconnected ∨ e.ctx.session.state = .connecting)
  . rcases handleLogon_acceptor app a hacceptor.1 hacceptor.2
      with ⟨hcan, msgs, hlog⟩ | ⟨hcan, msgs, hlog⟩
    . left
      refine ⟨.inl ⟨hacceptor.1, hacceptor.2, hcan⟩, [.built (e.logonAnswer 0)], msgs, ?_⟩
      rw [hlog]
      simp
    . right
      refine ⟨?_, msgs, hlog⟩
      intro haccepts
      rcases haccepts with haccepts | haccepts
      . exact hcan haccepts.2.2
      . exact hsent haccepts
  . right
    refine ⟨?_, [], ?_⟩
    . intro haccepts
      rcases haccepts with haccepts | haccepts
      . exact hacceptor ⟨haccepts.1, haccepts.2.1⟩
      . exact hsent haccepts
    . unfold handleLogon
      rw [if_neg hacceptor, if_neg hsent]
      exact (List.append_nil _).symm

variable {config : SessionConfig} {view : MessageView}

theorem handleLogon_compIds (app : FixApp A) {e : FixEngine T} (a : A)
    (hlast : lastMessage e.ctx.log = some view)
    : CompIdsValidated config (handleLogon app e a).state.1.ctx.log
        ↔
      CompIdsValidated config e.ctx.log ∧ (e.AcceptsLogon → view.HasCompIds config) := by
  rcases handleLogon_cases app e a with ⟨haccepts, msgs, msgs', hlog⟩ | ⟨haccepts, msgs, hlog⟩
  . have hlast' := (lastMessage_append_sent e.ctx.log msgs).trans hlast
    have hcallback : Event.onLogon.IsCallback ∧ Event.onLogon.Concerns view := ⟨trivial, trivial⟩
    rw [hlog, compIdsValidated_append not_isCallback_map_sent,
      compIdsValidated_callback hlast' hcallback.1 hcallback.2,
      compIdsValidated_append not_isCallback_map_sent]
    simp [haccepts]
  . rw [hlog, compIdsValidated_append not_isCallback_map_sent]
    simp [haccepts]

omit [Transport T] in
theorem Handled.not_isCallback {expected : UInt64} {e e' : FixEngine T} {left : Prop}
    {evs : List Event} (h : Handled view expected e e' left evs) (happ : ¬ view.IsApplication)
    (hlogon : view.msgType ≠ some MsgType.logon)
    : ∀ ev ∈ evs, ¬ ev.IsCallback := by
  cases h with
  | ignored => simp
  | logonFailed _ htype => exact absurd htype hlogon
  | logon _ _ htype => exact absurd htype hlogon
  | testRequest => exact not_isCallback_map_sent
  | logoutFailed => simp [Event.IsCallback]
  | logout => simp [Event.IsCallback, or_imp, forall_and]
  | message _ _ _ h => exact absurd h happ

theorem dispatch_compIds (app : FixApp A) {e : FixEngine T} (a : A) (expected : UInt64)
    (hlast : lastMessage e.ctx.log = some view)
    : CompIdsValidated config (dispatch app e a view expected).state.1.ctx.log
        ↔
      CompIdsValidated config e.ctx.log ∧ (e.Tells view → view.HasCompIds config) := by
  rcases dispatch_handled app e a view expected with ⟨evs, hhandled, hlog⟩
  by_cases happ : view.IsApplication
  . rcases hhandled.exists_onMessage happ with ⟨msgType, hmem⟩
    rw [hlog]
    cases hhandled with
    | message msgType' msgs =>
      have hcallback : (Event.onMessage msgType' view expected).IsCallback := trivial
      rw [List.append_cons, compIdsValidated_append not_isCallback_map_sent,
        compIdsValidated_callback hlast hcallback rfl]
      simp [Tells, happ]
    | _ => simp at hmem
  . by_cases hlogon : view.msgType = some MsgType.logon
    . have hdispatch : dispatch app e a view expected = handleLogon app e a := by
        simp [dispatch, hlogon]
      rw [hdispatch, handleLogon_compIds app a hlast]
      simp [Tells, happ, hlogon]
    . rw [hlog, compIdsValidated_append (hhandled.not_isCallback happ hlogon)]
      simp [Tells, happ, hlogon]

end FixEngine

namespace RunState

variable [Transport T]

/-
A message that is about to be taken and that will reach a callback carries the CompIDs of the
session; the engine that dispatches it has counted its number.
-/
def MatchesCompIds (s : RunState T A) : Prop :=
  ∀ frame recv view, s.phase = .process → s.engine.recv.takeFrame = some (frame, recv) →
    accepted frame = some view →
    ((({ s.engine with recv } : FixEngine T).record (.taken frame)).validated view).Tells view →
    view.HasCompIds s.engine.ctx.session.config

theorem process_compIds {app : FixApp A} {e : FixEngine T} (a : A) {frame : Bytes}
    {recv : RecvBuffer} {config : SessionConfig} (hparser : e.parser = .new)
    (htake : e.recv.takeFrame = some (frame, recv))
    : CompIdsValidated config (process app e a).engine.ctx.log
        ↔
      CompIdsValidated config e.ctx.log
        ∧ ∀ view, accepted frame = some view →
          ((({ e with recv } : FixEngine T).record (.taken frame)).validated view).Tells view →
          view.HasCompIds config := by
  let e1 := ({ e with recv } : FixEngine T).record (.taken frame)
  have hparser1 : e1.parser = .new := hparser
  have htaken : CompIdsValidated config e1.ctx.log ↔ CompIdsValidated config e.ctx.log := by
    apply compIdsValidated_append
    simp [Event.IsCallback]
  have hprocess : process app e a = settle .process (FixEngine.processMessage app e1 a frame) := by
    simp only [process, htake, e1]
  rw [hprocess, settle_engine, ← htaken]
  cases haccepted : accepted frame with
  | none =>
    rw [processMessage_of_rejected app a hparser1 haccepted]
    simp [Outcome.state]
  | some view =>
    have hlog : (e1.validated view).ctx.log = e1.ctx.log := (e1.validated_fields view).2.2.2.2.2.2.2
    have hlast : lastMessage (e1.validated view).ctx.log = some view := by
      rw [hlog, ← haccepted]
      exact lastMessage_taken e.ctx.log frame
    rw [processMessage_of_accepted app a hparser1 haccepted,
      FixEngine.dispatch_compIds app a _ hlast, hlog]
    simp [e1]

theorem step_compIds (app : FixApp A) {s : RunState T A} (hparser : s.engine.parser = .new)
    : CompIdsValidated s.engine.ctx.session.config (step app s).engine.ctx.log
        ↔
      CompIdsValidated s.engine.ctx.session.config s.engine.ctx.log ∧ s.MatchesCompIds := by
  have hidle {s' : RunState T A} {evs : List Event} (h : s.Idle s' evs)
      (hnone : s.phase = .process → s.engine.recv.takeFrame = none)
      : CompIdsValidated s.engine.ctx.session.config s'.engine.ctx.log
          ↔
        CompIdsValidated s.engine.ctx.session.config s.engine.ctx.log ∧ s.MatchesCompIds := by
    have hmatches : s.MatchesCompIds := by
      intro frame recv view hphase htake
      rw [hnone hphase] at htake
      contradiction
    rw [h.log, compIdsValidated_append fun ev hmem => (h.events ev hmem).not_isCallback]
    simp [hmatches]
  rcases s with ⟨e, a, phase⟩
  cases phase with
  | poll =>
    rcases idle_poll e a with ⟨evs, h⟩
    apply hidle h
    intro hphase
    contradiction
  | process =>
    cases htake : e.recv.takeFrame with
    | none =>
      have hprocess : step app ⟨e, a, .process⟩ = settleEngine .poll a e.endBatch := by
        simp only [step, process, htake]
      rcases idle_endBatch e a with ⟨evs, h⟩
      rw [hprocess]
      exact hidle h fun _ => htake
    | some res =>
      have hprocess := @process_compIds _ _ _ app e a res.1 res.2 e.ctx.session.config hparser htake
      simp only [step, hprocess, MatchesCompIds, htake]
      constructor
      . intro h
        refine ⟨h.1, ?_⟩
        intro frame recv view _ heq haccepted
        injection heq with heq
        rw [heq] at h
        exact h.2 view haccepted
      . intro h
        exact ⟨h.1, fun view => h.2 res.1 res.2 view trivial rfl⟩
  | returned res =>
    apply hidle (.refl _)
    intro hphase
    contradiction
  | panicked =>
    apply hidle (.refl _)
    intro hphase
    contradiction

end RunState

section Runs

variable [Transport T] (app : FixApp A) (a : A) (transport : T) (session : Session) (clock : Clock)
  (entry : Entry) (n : Nat)

theorem start_compIds
    : CompIdsValidated session.config
        (entry.start (.new transport session clock) a).engine.ctx.log := by
  rcases (start_started a transport session clock entry).log with ⟨msgs, hlog⟩
  have hnot : ∀ ev ∈ entry.events, ¬ ev.IsCallback := by
    cases entry
    all_goals simp [Entry.events, Event.IsCallback]
  rw [hlog, compIdsValidated_append not_isCallback_map_sent, ← List.nil_append entry.events,
    compIdsValidated_append hnot]
  exact History.each_nil

/-
Whatever `validateCompIds` is, the callbacks of a run are called for the counterparty iff every
message that reached one carried the CompIDs of the session.
-/
theorem comp_ids_validated_iff
    : CompIdsValidated session.config (runOf app a transport session clock entry n).engine.ctx.log
        ↔
      ∀ k < n, (runOf app a transport session clock entry k).MatchesCompIds := by
  induction n with
  | zero =>
    have hstart := start_compIds a transport session clock entry
    exact iff_of_true hstart (by simp)
  | succ n ih =>
    rcases run_fields app a transport session clock entry n with ⟨hparser, -, hconfig⟩
    have hstep := RunState.step_compIds app hparser
    rw [hconfig, ih, ← runOf_succ] at hstep
    rw [hstep, Nat.forall_lt_succ_right]

end Runs

def strangerFrame : Bytes :=
  (OutMessage.logon (ascii "FIX.4.4") (ascii "STRANGER") (ascii "ENGINE") 1
    (ascii "20260321-10:00:00.000") 30).bytes

theorem peerFrame_stranger : PeerFrame (ascii "A") 1 strangerFrame :=
  peerFrame_logon_of (by decide) (by decide) 1

theorem not_hasCompIds_stranger {view : MessageView} (h : accepted strangerFrame = some view)
    : ¬ view.HasCompIds acceptorConfig := by
  have hsender : (accepted strangerFrame).bind (fun view => view.getField Tags.senderCompId)
      = some (ascii "STRANGER") := by
    decide +kernel
  intro hids
  rw [h, Option.bind_some, hids.1] at hsender
  exact absurd hsender (by decide)

-- An acceptor that waits for a Logon accepts one with the expected number.
theorem acceptsLogon_script {e : FixEngine Script} {view : MessageView}
    (hconfig : e.ctx.session.config = acceptorConfig) (hlen : e.sendBuf.length = 4096)
    (hstate : e.ctx.session.state = .disconnected)
    (hseq : view.msgSeqNum = some e.ctx.session.inboundSeqNum)
    : (e.validated view).AcceptsLogon := by
  have hfields := e.validated_fields view
  have hcontrol := e.validated_control view
  simp only [Control.receive, hseq] at hcontrol
  have hstate' : (e.validated view).ctx.session.state = e.ctx.session.state :=
    (congrArg Control.state hcontrol).trans (Control.state_receiveSeq_of_le (UInt64.le_refl _))
  have hconfig' : (e.validated view).ctx.session.config = acceptorConfig :=
    hfields.2.2.2.2.1.trans hconfig
  refine .inl ⟨?_, .inl (hstate'.trans hstate), ?_, ?_⟩
  . rw [hconfig']
    rfl
  . rw [hfields.2.2.1, hlen, FixEngine.logonAnswer, hconfig']
    exact fits_acceptorConfig FixEngine.logonMessage (by simp [Preserved.allKinds]) _ _
  . exact ⟨_, rfl⟩

-- A stranger logs on to a session with PEER, and the application hears of an established session.
theorem not_comp_ids_validated
    : acceptorConfig.validateCompIds = true
        ∧ ¬ CompIdsValidated acceptorConfig
          (acceptorRun (.new acceptorConfig 0) [strangerFrame] 2).engine.ctx.log := by
  refine ⟨rfl, ?_⟩
  have hframe := peerFrame_stranger
  have hone := acceptorRun_one [] quiet_new hframe.length_le hframe.ne_nil
  rcases acceptorRun_two [] quiet_new hframe with ⟨evs, htook⟩
  rcases htook.recv with ⟨recv, htake, -⟩
  rcases hframe.exists_view with ⟨view, hview, hkind, hseq⟩
  have hfields := run_fields silentApp () (Script.mk [strangerFrame]) (.new acceptorConfig 0)
    stoppedClock .runAcceptor 1
  have hstep := RunState.step_compIds silentApp hfields.1
  rw [hfields.2.2, ← runOf_succ] at hstep
  intro hvalidated
  have hmatches := (hstep.mp hvalidated).2 strangerFrame recv view htook.phase htake hview
  rw [hfields.2.2] at hmatches
  apply not_hasCompIds_stranger hview
  apply hmatches
  refine .inr ⟨hkind, acceptsLogon_script hfields.2.2 hfields.2.1 ?_ ?_⟩
  . change (acceptorRun _ _ 1).engine.ctx.session.state = _
    rw [hone]
    rfl
  . change _ = some (acceptorRun _ _ 1).engine.ctx.session.inboundSeqNum
    rw [hone]
    exact hseq

end Velocitas
