import VelocitasFix.Data.History
import VelocitasFix.Engine.Script

/-!
This module contains the relation between the messages that the application receives and the life of
the session. The dispatch does not look at the state of the session when it hands over a message, so
that messages stay inside an established session exactly in the runs whose stream keeps them there.
-/

namespace Velocitas

variable {T A : Type}

namespace Event

def IsLogon : Event → Prop
  | .onLogon => True
  | .handledLogon => True
  | _ => False

def IsEnd : Event → Prop
  | .onLogout => True
  | .disconnected => True
  | _ => False

def IsMessage : Event → Prop
  | .onMessage _ _ _ => True
  | _ => False

end Event

-- A Logon was exchanged, and neither was a Logout handled nor the connection marked as ended.
def Established (log : List Event) : Prop :=
  (∃ ev ∈ log, ev.IsLogon) ∧ ∀ ev ∈ log, ¬ ev.IsEnd

def DeliveredInSession (log : List Event) : Prop :=
  ∀ earlier later msgType view expected,
    log = earlier ++ .onMessage msgType view expected :: later → Established earlier

theorem deliveredInSession_iff {log : List Event}
    : DeliveredInSession log
        ↔
      History.Each (fun earlier ev => ev.IsMessage → Established earlier) log := by
  constructor
  . intro h earlier ev later heq hmsg
    cases ev with
    | onMessage msgType view expected => exact h earlier later msgType view expected heq
    | _ => exact absurd hmsg id
  . intro h earlier later msgType view expected heq
    exact h earlier (.onMessage msgType view expected) later heq trivial

theorem deliveredInSession_nil : DeliveredInSession [] :=
  deliveredInSession_iff.mpr History.each_nil

theorem deliveredInSession_concat {log : List Event} {ev : Event}
    : DeliveredInSession (log ++ [ev])
        ↔
      DeliveredInSession log ∧ (ev.IsMessage → Established log) := by
  rw [deliveredInSession_iff, deliveredInSession_iff, History.each_concat]

theorem deliveredInSession_append {log evs : List Event} (h : ∀ ev ∈ evs, ¬ ev.IsMessage)
    : DeliveredInSession (log ++ evs) ↔ DeliveredInSession log := by
  rw [deliveredInSession_iff, deliveredInSession_iff, History.each_append]
  intro ev hmem earlier hmsg
  exact absurd hmsg (h ev hmem)

theorem Event.IsIdle.not_isMessage {ev : Event} (h : ev.IsIdle) : ¬ ev.IsMessage := by
  cases ev with
  | onMessage msgType view expected => exact absurd h id
  | _ => exact id

theorem Event.IsIdle.not_isLogon {ev : Event} (h : ev.IsIdle) : ¬ ev.IsLogon := by
  cases ev with
  | onLogon => exact absurd h id
  | handledLogon => exact absurd h id
  | _ => exact id

-- The part of a session's life that the frames of the stream decide.
inductive Stage where
  | waiting (c : Control)
  | established
  | ended

def Stage.next (role : SessionRole) (stage : Stage) (frame : Bytes) : Stage :=
  match accepted frame with
  | none => stage
  | some view =>
    match stage with
    | .waiting c =>
      if view.msgType = some MsgType.logon ∧ Waiting role (c.receive view).state then
        .established
      else if view.msgType = some MsgType.logout then
        .ended
      else
        .waiting (c.receive view)
    | .established => if view.msgType = some MsgType.logout then .ended else .established
    | .ended => .ended

-- Application messages come only after the Logon and before the Logout.
def Orderly (role : SessionRole) : Stage → List Bytes → Prop
  | _, [] => True
  | stage, frame :: frames =>
    (∀ view, accepted frame = some view → view.IsApplication → stage = .established)
      ∧ Orderly role (stage.next role frame) frames

theorem orderly_concat {role : SessionRole} {stage : Stage} {frames : List Bytes} {frame : Bytes}
    : Orderly role stage (frames ++ [frame])
        ↔
      Orderly role stage frames
        ∧ ∀ view, accepted frame = some view → view.IsApplication →
            frames.foldl (Stage.next role) stage = .established := by
  induction frames generalizing stage with
  | nil => simp [Orderly]
  | cons f frames ih =>
    simp only [List.cons_append, Orderly, ih, List.foldl_cons]
    tauto

def Stage.Describes (s : RunState T A) : Stage → Prop
  | .waiting c =>
    s.engine.ctx.session.control = c ∧ ∀ ev ∈ s.engine.ctx.log, ¬ ev.IsLogon ∧ ¬ ev.IsEnd
  | .established => Established s.engine.ctx.log
  | .ended => ∃ ev ∈ s.engine.ctx.log, ev.IsEnd

theorem Stage.Describes.established_iff {s : RunState T A} {stage : Stage} (h : stage.Describes s)
    : Established s.engine.ctx.log ↔ stage = .established := by
  cases stage with
  | waiting c =>
    constructor
    . intro hest
      rcases hest.1 with ⟨ev, hmem, hlogon⟩
      exact absurd hlogon (h.2 ev hmem).1
    . intro heq
      contradiction
  | established =>
    constructor
    . intro _
      rfl
    . intro _
      exact h
  | ended =>
    constructor
    . intro hest
      rcases h with ⟨ev, hmem, hend⟩
      exact absurd hend (hest.2 ev hmem)
    . intro heq
      contradiction

namespace FixEngine

variable {view : MessageView} {expected : UInt64} {e e' : FixEngine T} {left : Prop}
  {evs : List Event}

theorem not_of_mem_map_sent {msgs : List Outbound} {ev : Event} (h : ev ∈ msgs.map Event.sent)
    : ¬ ev.IsLogon ∧ ¬ ev.IsEnd ∧ ¬ ev.IsMessage := by
  rw [List.mem_map] at h
  rcases h with ⟨msg, -, rfl⟩
  exact ⟨id, id, id⟩

theorem Handled.exists_isEnd (h : Handled view expected e e' left evs)
    : (∃ ev ∈ evs, ev.IsEnd) ↔ view.msgType = some MsgType.logout := by
  have hlogon : MsgType.logon ≠ MsgType.logout := by decide
  have hheartbeat : MsgType.heartbeat ≠ MsgType.logout := by decide
  have htest : MsgType.testRequest ≠ MsgType.logout := by decide
  cases h with
  | ignored heq htype =>
    rcases htype with htype | htype | htype
    . simp [htype]
    . simp [htype, hheartbeat]
    . simp [htype.1, hlogon]
  | logonFailed msgs htype => simp [htype, hlogon, Event.IsEnd]
  | logon msgs msgs' htype => simp [htype, hlogon, Event.IsEnd, or_and_right, exists_or]
  | testRequest msgs htype => simp [htype, htest, Event.IsEnd]
  | logoutFailed msgs htype => simp [htype, Event.IsEnd]
  | logout msgs htype => simp [htype, Event.IsEnd]
  | message msgType msgs _ happ => simp [happ.msgType_ne, Event.IsEnd]

theorem Handled.exists_isLogon (h : Handled view expected e e' left evs) (hleft : ¬ left)
    : (∃ ev ∈ evs, ev.IsLogon)
        ↔
      view.msgType = some MsgType.logon ∧ Waiting e.ctx.session.config.role e.ctx.session.state := by
  have hheartbeat : MsgType.heartbeat ≠ MsgType.logon := by decide
  have htest : MsgType.testRequest ≠ MsgType.logon := by decide
  have hlogout : MsgType.logout ≠ MsgType.logon := by decide
  cases h with
  | ignored heq htype =>
    rcases htype with htype | htype | htype
    . simp [htype]
    . simp [htype, hheartbeat]
    . simp [htype.2]
  | logonFailed _ _ _ _ _ _ hhalted => exact absurd hhalted hleft
  | logon msgs msgs' htype hwaiting =>
    simp [htype, hwaiting, Event.IsLogon, or_and_right, exists_or]
  | testRequest msgs htype => simp [htype, htest, Event.IsLogon]
  | logoutFailed msgs htype => simp [htype, hlogout, Event.IsLogon]
  | logout msgs htype => simp [htype, hlogout, Event.IsLogon]
  | message msgType msgs _ happ => simp [happ.msgType_ne, Event.IsLogon]

theorem Handled.control_of_not (h : Handled view expected e e' left evs)
    (happ : ¬ view.IsApplication) (hlogout : view.msgType ≠ some MsgType.logout)
    (hlogon : ¬ (view.msgType = some MsgType.logon
      ∧ Waiting e.ctx.session.config.role e.ctx.session.state))
    : e'.ctx.session.control = e.ctx.session.control := by
  cases h with
  | ignored heq => rw [heq]
  | logonFailed _ htype hwaiting => exact absurd ⟨htype, hwaiting⟩ hlogon
  | logon _ _ htype hwaiting => exact absurd ⟨htype, hwaiting⟩ hlogon
  | testRequest _ _ hkeeps _ hstate => simp only [Session.control, hstate, hkeeps.inbound]
  | logoutFailed _ htype => exact absurd htype hlogout
  | logout _ htype => exact absurd htype hlogout
  | message _ _ _ h => exact absurd h happ

theorem Handled.deliveredInSession (h : Handled view expected e e' left evs) {log : List Event}
    : DeliveredInSession (log ++ evs)
        ↔
      DeliveredInSession log ∧ (view.IsApplication → Established log) := by
  have hsent {msgs : List Outbound} : ∀ ev ∈ msgs.map Event.sent, ¬ ev.IsMessage := by
    simp [Event.IsMessage]
  by_cases happ : view.IsApplication
  . rcases h.exists_onMessage happ with ⟨msgType, hmem⟩
    cases h with
    | message msgType' msgs =>
      rw [List.append_cons, deliveredInSession_append hsent, deliveredInSession_concat]
      simp [happ, Event.IsMessage]
    | _ => simp at hmem
  . rw [deliveredInSession_append]
    . simp [happ]
    . intro ev hmem hmsg
      cases ev with
      | onMessage msgType view' expected' => apply happ (h.of_onMessage hmem).2.2
      | _ => exact hmsg

end FixEngine

theorem established_append {log evs : List Event} (hlog : Established log)
    (h : ∀ ev ∈ evs, ¬ ev.IsEnd)
    : Established (log ++ evs) := by
  rcases hlog.1 with ⟨ev, hmem, hlogon⟩
  constructor
  . exact ⟨ev, List.mem_append_left _ hmem, hlogon⟩
  . rw [List.forall_mem_append]
    exact ⟨hlog.2, h⟩

theorem Stage.describes_ended {s s' : RunState T A} {evs : List Event}
    (hlog : s'.engine.ctx.log = s.engine.ctx.log ++ evs)
    (h : (∃ ev ∈ s.engine.ctx.log, ev.IsEnd) ∨ ∃ ev ∈ evs, ev.IsEnd)
    : Stage.ended.Describes s' := by
  cases h with
  | inl hbefore =>
    rcases hbefore with ⟨ev, hmem, hev⟩
    refine ⟨ev, ?_, hev⟩
    rw [hlog]
    apply List.mem_append_left _ hmem
  | inr hnow =>
    rcases hnow with ⟨ev, hmem, hev⟩
    refine ⟨ev, ?_, hev⟩
    rw [hlog]
    apply List.mem_append_right _ hmem

-- As long as nobody logs on and nothing ends the session, it goes on waiting.
theorem Stage.describes_waiting {s s' : RunState T A} {c c' : Control} {evs : List Event}
    (hs : (Stage.waiting c).Describes s)
    (hlog : s'.engine.ctx.log = s.engine.ctx.log ++ evs)
    (hcontrol : s'.engine.ctx.session.control = c')
    (h : ∀ ev ∈ evs, ¬ ev.IsLogon ∧ ¬ ev.IsEnd)
    : (Stage.waiting c').Describes s' := by
  refine ⟨hcontrol, ?_⟩
  rw [hlog, List.forall_mem_append]
  exact ⟨hs.2, h⟩

theorem Stage.describes_established {s s' : RunState T A} {evs : List Event}
    (hs : Stage.established.Describes s)
    (hlog : s'.engine.ctx.log = s.engine.ctx.log ++ evs) (h : ∀ ev ∈ evs, ¬ ev.IsEnd)
    : Stage.established.Describes s' := by
  change Established s'.engine.ctx.log
  rw [hlog]
  apply established_append hs h

-- The stage describes a state in which the loop goes on, and then nothing ended the session.
theorem RunState.Idle.describes {s s' : RunState T A} {evs : List Event} (h : s.Idle s' evs)
    {stage : Stage} (hrunning : s'.Running) (hs : stage.Describes s)
    : stage.Describes s' := by
  have hend : ∀ ev ∈ evs, ¬ ev.IsEnd := by
    intro ev hmem
    cases ev with
    | onLogout => exact absurd (h.events _ hmem) id
    | disconnected => exact absurd hmem (h.running hrunning).2
    | _ => exact id
  cases stage with
  | waiting c =>
    apply Stage.describes_waiting hs h.log
    . rw [← hs.1]
      cases h.state with
      | inl hstate => simp only [Session.control, hstate, h.inbound]
      | inr hstate => exact absurd hrunning hstate.2
    . intro ev hmem
      exact ⟨(h.events ev hmem).not_isLogon, hend ev hmem⟩
  | established => apply Stage.describes_established hs h.log hend
  | ended => apply Stage.describes_ended h.log (.inl hs)

theorem Stage.next_of_rejected {role : SessionRole} {stage : Stage} {frame : Bytes}
    (h : accepted frame = none)
    : stage.next role frame = stage := by
  simp [next, h]

section Took

variable {s s' : RunState T A} {frame : Bytes} {evs : List Event}

theorem RunState.Took.describes_of_rejected (h : s.Took s' frame evs) (hview : accepted frame = none)
    {stage : Stage} (hs : stage.Describes s)
    : stage.Describes s' := by
  rcases h.rejected hview with ⟨rfl, hsession, -⟩
  cases stage with
  | waiting c =>
    apply Stage.describes_waiting hs h.log
    . rw [hsession]
      exact hs.1
    . simp [Event.IsLogon, Event.IsEnd]
  | established =>
    apply Stage.describes_established hs h.log
    simp [Event.IsEnd]
  | ended => apply Stage.describes_ended h.log (.inl hs)

-- Before the Logon, the control state decides whether this frame brings it.
theorem RunState.Took.describes_of_waiting (h : s.Took s' frame evs) {view : MessageView}
    (hview : accepted frame = some view) (hrunning : s'.Running) {c : Control}
    (hs : (Stage.waiting c).Describes s) (happ : ¬ view.IsApplication)
    : (Stage.next s.engine.ctx.session.config.role (.waiting c) frame).Describes s' := by
  rcases h.handled view hview with ⟨e, hcontrol, hconfig, -, hhandled⟩
  have hlogon := hhandled.exists_isLogon (not_not_intro hrunning)
  have hend := hhandled.exists_isEnd
  have hstate : e.ctx.session.state = (c.receive view).state := by
    rw [← hs.1]
    exact congrArg Control.state hcontrol
  rw [hconfig, hstate] at hlogon
  have hnotEnd : view.msgType ≠ some MsgType.logout → ∀ ev ∈ evs, ¬ ev.IsEnd := by
    intro htype ev hmem hev
    apply htype (hend.mp ⟨ev, hmem, hev⟩)
  simp only [Stage.next, hview]
  split
  . next hwaiting =>
    rcases hlogon.mpr hwaiting with ⟨ev, hmem, hev⟩
    have htype : view.msgType ≠ some MsgType.logout := by
      rw [hwaiting.1]
      decide
    change Established s'.engine.ctx.log
    rw [h.log]
    constructor
    . exact ⟨ev, List.mem_append_right _ (List.mem_cons_of_mem _ hmem), hev⟩
    . rw [List.forall_mem_append, List.forall_mem_cons]
      exact ⟨fun ev hmem => (hs.2 ev hmem).2, id, hnotEnd htype⟩
  . next hwaiting =>
    split
    . next htype =>
      rcases hend.mpr htype with ⟨ev, hmem, hev⟩
      exact Stage.describes_ended h.log (.inr ⟨ev, List.mem_cons_of_mem _ hmem, hev⟩)
    . next htype =>
      apply Stage.describes_waiting hs h.log
      . rw [← hs.1, ← hcontrol]
        apply hhandled.control_of_not happ htype
        rw [hconfig, hstate]
        exact hwaiting
      . rw [List.forall_mem_cons]
        refine ⟨⟨id, id⟩, ?_⟩
        intro ev hmem
        constructor
        . intro hev
          apply hwaiting (hlogon.mp ⟨ev, hmem, hev⟩)
        . apply hnotEnd htype ev hmem

theorem RunState.Took.describes_of_established (h : s.Took s' frame evs) {view : MessageView}
    (hview : accepted frame = some view) (hs : Stage.established.Describes s)
    : (Stage.next s.engine.ctx.session.config.role .established frame).Describes s' := by
  rcases h.handled view hview with ⟨e, -, -, -, hhandled⟩
  have hend := hhandled.exists_isEnd
  simp only [Stage.next, hview]
  split
  . next htype =>
    rcases hend.mpr htype with ⟨ev, hmem, hev⟩
    exact Stage.describes_ended h.log (.inr ⟨ev, List.mem_cons_of_mem _ hmem, hev⟩)
  . next htype =>
    apply Stage.describes_established hs h.log
    rw [List.forall_mem_cons]
    refine ⟨id, ?_⟩
    intro ev hmem hev
    apply htype (hend.mp ⟨ev, hmem, hev⟩)

theorem RunState.Took.describes (h : s.Took s' frame evs) {stage : Stage} (hrunning : s'.Running)
    (hs : stage.Describes s)
    (horderly : ∀ view, accepted frame = some view → view.IsApplication → stage = .established)
    : (stage.next s.engine.ctx.session.config.role frame).Describes s' := by
  cases hview : accepted frame with
  | none =>
    rw [Stage.next_of_rejected hview]
    exact h.describes_of_rejected hview hs
  | some view =>
    cases stage with
    | waiting c =>
      apply h.describes_of_waiting hview hrunning hs
      intro happ
      have := horderly view hview happ
      contradiction
    | established => exact h.describes_of_established hview hs
    | ended =>
      simp only [Stage.next, hview]
      exact Stage.describes_ended h.log (.inl hs)

end Took

theorem RunState.Took.deliveredInSession {s s' : RunState T A} {frame : Bytes} {evs : List Event}
    (h : s.Took s' frame evs)
    : DeliveredInSession s'.engine.ctx.log
        ↔
      DeliveredInSession s.engine.ctx.log
        ∧ ∀ view, accepted frame = some view → view.IsApplication →
            Established s.engine.ctx.log := by
  have htaken : DeliveredInSession (s.engine.ctx.log ++ [.taken frame])
      ↔ DeliveredInSession s.engine.ctx.log := by
    apply deliveredInSession_append
    simp [Event.IsMessage]
  have hest : Established (s.engine.ctx.log ++ [.taken frame]) ↔ Established s.engine.ctx.log := by
    simp [Established, Event.IsLogon, Event.IsEnd, or_and_right, exists_or, or_imp, forall_and]
  rw [h.log, List.append_cons]
  cases hview : accepted frame with
  | none =>
    rw [(h.rejected hview).1, List.append_nil, htaken]
    simp
  | some view =>
    rcases h.handled view hview with ⟨e, -, -, -, hhandled⟩
    rw [hhandled.deliveredInSession, htaken, hest]
    simp

-- What a run knows of the life of its session, from the stage in which it was entered.
structure Staged (role : SessionRole) (stage : Stage) (s : RunState T A) : Prop where
  config_role : s.engine.ctx.session.config.role = role
  inSession : DeliveredInSession s.engine.ctx.log
    ↔ Orderly role stage (taken s.engine.ctx.log)
  describes : Orderly role stage (taken s.engine.ctx.log) → s.Running →
    ((taken s.engine.ctx.log).foldl (Stage.next role) stage).Describes s

theorem RunState.Idle.staged {s s' : RunState T A} {evs : List Event} (h : s.Idle s' evs)
    {role : SessionRole} {stage : Stage} (hs : Staged role stage s)
    : Staged role stage s' := by
  have htaken := h.taken_eq
  constructor
  . rw [h.config, hs.config_role]
  . rw [htaken, ← hs.inSession, h.log]
    apply deliveredInSession_append
    intro ev hmem
    apply (h.events ev hmem).not_isMessage
  . rw [htaken]
    intro horderly hrunning
    apply h.describes hrunning
    apply hs.describes horderly (h.running hrunning).1

theorem RunState.Took.staged {s s' : RunState T A} {frame : Bytes} {evs : List Event}
    (h : s.Took s' frame evs) {role : SessionRole} {stage : Stage} (hs : Staged role stage s)
    : Staged role stage s' := by
  have hrunning : s.Running := .inl h.phase
  have hbefore := hs.describes
  constructor
  . rw [h.config, hs.config_role]
  . rw [h.deliveredInSession, h.taken_received.1, orderly_concat, hs.inSession]
    apply and_congr_right
    intro horderly
    have hiff := (hbefore horderly hrunning).established_iff
    rw [hiff]
  . rw [h.taken_received.1, orderly_concat, List.foldl_concat]
    intro horderly hrunning'
    have hdescribes := h.describes hrunning' (hbefore horderly.1 hrunning) horderly.2
    rw [hs.config_role] at hdescribes
    apply hdescribes

def Entry.stage (entry : Entry) (session : Session) : Stage :=
  match entry with
  | .handleInboundLogon => .established
  | _ => .waiting ⟨entry.state session, session.inboundSeqNum⟩

section Runs

variable [Transport T] (app : FixApp A) (a : A) (transport : T) (session : Session) (clock : Clock)
  (entry : Entry) (n : Nat)

theorem run_staged
    : Staged session.config.role (entry.stage session)
        (runOf app a transport session clock entry n) := by
  have hstarted := start_started a transport session clock entry
  have hevents : ∀ ev ∈ entry.events, ¬ ev.IsMessage ∧ ¬ ev.IsEnd := by
    cases entry
    all_goals simp [Entry.events, Event.IsMessage, Event.IsEnd]
  apply runFor_invariant app hstarted.parser
  . rcases hstarted.log with ⟨msgs, hlog⟩
    have hlogEvents : ∀ ev ∈ entry.events ++ msgs.map Event.sent, ¬ ev.IsMessage ∧ ¬ ev.IsEnd := by
      intro ev hmem
      rw [List.mem_append] at hmem
      cases hmem with
      | inl hmem => apply hevents ev hmem
      | inr hmem => exact (FixEngine.not_of_mem_map_sent hmem).2.symm
    constructor
    . rw [hstarted.config]
    . have hempty := @deliveredInSession_append [] (entry.events ++ msgs.map Event.sent)
        (fun ev hmem => (hlogEvents ev hmem).1)
      rw [List.nil_append] at hempty
      rw [hstarted.taken_log.1, hlog, hempty]
      exact iff_of_true deliveredInSession_nil trivial
    . intro _ _
      rw [hstarted.taken_log.1, List.foldl_nil]
      have hwaiting (hnil : entry.events = [])
          : Stage.Describes (entry.start (.new transport session clock) a)
              (.waiting ⟨entry.state session, session.inboundSeqNum⟩) := by
        constructor
        . simp only [Session.control, hstarted.state, hstarted.inbound]
        . rw [hlog, hnil, List.nil_append]
          intro ev hmem
          have hnot := FixEngine.not_of_mem_map_sent hmem
          exact ⟨hnot.1, hnot.2.1⟩
      cases entry with
      | runInitiator => apply hwaiting rfl
      | runAcceptor => apply hwaiting rfl
      | handleInboundLogon =>
        constructor
        . refine ⟨.handledLogon, ?_, trivial⟩
          rw [hlog]
          simp [Entry.events]
        . rw [hlog]
          intro ev hmem
          apply (hlogEvents ev hmem).2
  . intro s s' evs hstep hs
    apply hstep.staged hs
  . intro s s' frame evs hstep hs
    apply hstep.staged hs

-- Deliveries stay inside the session up to any point of a run iff the stream was orderly so far.
theorem delivered_in_session_iff
    : DeliveredInSession (runOf app a transport session clock entry n).engine.ctx.log
        ↔
      Orderly session.config.role (entry.stage session)
        (taken (runOf app a transport session clock entry n).engine.ctx.log) :=
  (run_staged app a transport session clock entry n).inSession

end Runs

-- An order is the first message of the stream: it is delivered although no Logon was exchanged.
theorem not_delivered_in_session
    : ¬ DeliveredInSession
        (acceptorRun (.new acceptorConfig 0) [orderFrame 1] 2).engine.ctx.log := by
  have hframe := peerFrame_order 1
  rcases acceptorRun_two [] quiet_new hframe with ⟨evs, htook⟩
  rw [htook.deliveredInSession, acceptorRun_one [] quiet_new hframe.length_le hframe.ne_nil]
  intro hdelivered
  rcases hframe.exists_view with ⟨view, hview, hkind, -⟩
  rcases (hdelivered.2 view hview ⟨ascii "D", hkind, by decide⟩).1 with ⟨ev, hmem, hlogon⟩
  have hreceived : ev = .received (orderFrame 1) := List.mem_singleton.mp hmem
  rw [hreceived] at hlogon
  exact hlogon

end Velocitas
