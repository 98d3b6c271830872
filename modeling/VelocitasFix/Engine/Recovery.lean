import VelocitasFix.Engine.Script

/-!
This module contains what becomes of a session after a gap. No operation of the engine raises the
event that the gap is filled, so that the session stays in the state it got into when the gap was
reported.
-/

namespace Velocitas

variable {T A : Type}

def IsNumbered (seq : UInt64) (frame : Bytes) : Prop :=
  ∃ view, accepted frame = some view ∧ view.msgType ≠ some MsgType.logout
    ∧ view.msgSeqNum = some seq

-- Well-formed messages, none of them a Logout, with consecutive numbers from `seq` on.
def Numbered : UInt64 → List Bytes → Prop
  | _, [] => True
  | seq, frame :: frames => IsNumbered seq frame ∧ Numbered (seq + 1) frames

def IsLogonFrame (frame : Bytes) : Prop :=
  ∃ view, accepted frame = some view ∧ view.msgType = some MsgType.logon

theorem numbered_concat {seq : UInt64} {frames : List Bytes} {frame : Bytes}
    : Numbered seq (frames ++ [frame])
        ↔
      Numbered seq frames ∧ IsNumbered (seq + UInt64.ofNat frames.length) frame := by
  induction frames generalizing seq with
  | nil => simp [Numbered]
  | cons f frames ih =>
    have hnum : seq + 1 + UInt64.ofNat frames.length
        = seq + UInt64.ofNat (frames.length + 1) := by
      rw [UInt64.ofNat_add, UInt64.add_assoc, UInt64.add_comm 1]
      rfl
    simp only [List.cons_append, Numbered, ih, hnum, List.length_cons, and_assoc]

namespace FixEngine

variable {view : MessageView} {expected : UInt64} {e e' : FixEngine T} {left : Prop}
  {evs : List Event}

theorem Handled.state_of_not (h : Handled view expected e e' left evs)
    (hlogout : view.msgType ≠ some MsgType.logout)
    (hlogon : view.msgType = some MsgType.logon →
      ¬ Waiting e.ctx.session.config.role e.ctx.session.state)
    : e'.ctx.session.state = e.ctx.session.state ∨ e'.ctx.session.state = .logoutSent := by
  cases h with
  | ignored heq =>
    left
    rw [heq]
  | logonFailed _ htype hwaiting => exact absurd hwaiting (hlogon htype)
  | logon _ _ htype hwaiting => exact absurd hwaiting (hlogon htype)
  | testRequest _ _ _ _ hstate =>
    left
    exact hstate
  | logoutFailed _ htype => exact absurd htype hlogout
  | logout _ htype => exact absurd htype hlogout
  | message _ _ _ _ _ _ hstate => exact hstate

theorem Handled.state_of_logon (h : Handled view expected e e' left evs) (hleft : ¬ left)
    (htype : view.msgType = some MsgType.logon)
    (hwaiting : Waiting e.ctx.session.config.role e.ctx.session.state)
    : e'.ctx.session.state = .active ∨ e'.ctx.session.state = .logoutSent := by
  have hheartbeat : MsgType.logon ≠ MsgType.heartbeat := by decide
  have htest : MsgType.logon ≠ MsgType.testRequest := by decide
  have hlogout : MsgType.logon ≠ MsgType.logout := by decide
  cases h with
  | ignored _ hkind => simp [htype, hheartbeat, hwaiting] at hkind
  | logonFailed _ _ _ _ _ _ hhalted => exact absurd hhalted hleft
  | logon _ _ _ _ _ _ hstate => exact hstate
  | testRequest _ hkind => simp [htype, htest] at hkind
  | logoutFailed _ hkind => simp [htype, hlogout] at hkind
  | logout _ hkind => simp [htype, hlogout] at hkind
  | message _ _ _ happ => exact absurd htype (happ.msgType_ne (by simp))

theorem Handled.state_of_logout (h : Handled view expected e e' left evs)
    (htype : view.msgType = some MsgType.logout)
    : (e'.ctx.session.state = e.ctx.session.state ∧ left)
        ∨ e'.ctx.session.state = .disconnected := by
  have hlogon : MsgType.logout ≠ MsgType.logon := by decide
  have hheartbeat : MsgType.logout ≠ MsgType.heartbeat := by decide
  have htest : MsgType.logout ≠ MsgType.testRequest := by decide
  cases h with
  | ignored _ hkind => simp [htype, hheartbeat, hlogon] at hkind
  | logonFailed _ hkind => simp [htype, hlogon] at hkind
  | logon _ _ hkind => simp [htype, hlogon] at hkind
  | testRequest _ hkind => simp [htype, htest] at hkind
  | logoutFailed _ _ _ hstate hleft => exact .inl ⟨hstate, hleft⟩
  | logout _ _ _ _ hstate => exact .inr hstate
  | message _ _ _ happ => exact absurd htype (happ.msgType_ne (by simp))

end FixEngine

/-
The states from which the refill of a gap does not lead back to `active`; `ended` says that the gap
was reported by a Logout, after which the loop goes on with what is left of the read.
-/
def RunState.Stuck (ended : Prop) (s : RunState T A) : Prop :=
  s.engine.ctx.session.state = .resending ∨ s.engine.ctx.session.state = .logoutSent
    ∨ (s.engine.ctx.session.state = .disconnected ∧ (ended ∨ ¬ s.Running))

theorem RunState.Idle.stuck {s s' : RunState T A} {evs : List Event} (h : s.Idle s' evs)
    {ended : Prop} (hs : s.Stuck ended)
    : s'.Stuck ended := by
  cases h.state with
  | inl hstate =>
    unfold Stuck at hs ⊢
    rw [hstate]
    cases hs with
    | inl hresending => exact .inl hresending
    | inr hs =>
      cases hs with
      | inl hlogout => exact .inr (.inl hlogout)
      | inr hdisconnected =>
        refine .inr (.inr ⟨hdisconnected.1, ?_⟩)
        cases hdisconnected.2 with
        | inl hended => exact .inl hended
        | inr hnot =>
          right
          intro hrunning
          exact hnot (h.running hrunning).1
  | inr hstate => exact .inr (.inr ⟨hstate.1, .inr hstate.2⟩)

theorem RunState.Took.stuck {s s' : RunState T A} {frame : Bytes} {evs : List Event}
    (h : s.Took s' frame evs) {ended : Prop} {seq : UInt64} (hs : s.Stuck ended)
    (hrefill : IsNumbered seq frame)
    (hlogon : ended → s.engine.ctx.session.config.role = .acceptor → ¬ IsLogonFrame frame)
    : s'.Stuck ended := by
  have hrunning : s.Running := .inl h.phase
  rcases hrefill with ⟨view, hview, htype, -⟩
  rcases h.handled view hview with ⟨e, hcontrol, hconfig, -, hhandled⟩
  have hreceived : e.ctx.session.state = s.engine.ctx.session.state
      ∨ e.ctx.session.state = .resending := by
    have hstate := congrArg Control.state hcontrol
    change e.ctx.session.state = _ at hstate
    rw [hstate]
    apply Control.state_receive
  -- The message is dispatched in one of the three states.
  have hbefore : e.ctx.session.state = .resending ∨ e.ctx.session.state = .logoutSent
      ∨ (e.ctx.session.state = .disconnected ∧ ended) := by
    cases hreceived with
    | inl hsame =>
      rw [hsame]
      cases hs with
      | inl hresending => exact .inl hresending
      | inr hs =>
        cases hs with
        | inl hlogout => exact .inr (.inl hlogout)
        | inr hdisconnected =>
          refine .inr (.inr ⟨hdisconnected.1, ?_⟩)
          cases hdisconnected.2 with
          | inl hended => exact hended
          | inr hnot => exact absurd hrunning hnot
    | inr hresending => exact .inl hresending
  have hnot : view.msgType = some MsgType.logon →
      ¬ Waiting e.ctx.session.config.role e.ctx.session.state := by
    intro hkind hwaiting
    rcases hbefore with hstate | hstate | hstate
    . simp [Waiting, hstate] at hwaiting
    . simp [Waiting, hstate] at hwaiting
    . simp only [Waiting, hstate.1, hconfig] at hwaiting
      have hrole : s.engine.ctx.session.config.role = .acceptor := by
        simpa using hwaiting
      exact hlogon hstate.2 hrole ⟨view, hview, hkind⟩
  cases hhandled.state_of_not htype hnot with
  | inl hsame =>
    unfold Stuck
    rw [hsame]
    rcases hbefore with hstate | hstate | hstate
    . exact .inl hstate
    . exact .inr (.inl hstate)
    . exact .inr (.inr ⟨hstate.1, .inl hstate.2⟩)
  | inr hlogout => exact .inr (.inl hlogout)

-- The step in which an active session reports a gap.
theorem RunState.Took.stuck_of_gap {s s' : RunState T A} {frame : Bytes} {evs : List Event}
    (h : s.Took s' frame evs) {view : MessageView} {seq : UInt64}
    (hview : accepted frame = some view) (hseq : view.msgSeqNum = some seq)
    (hgap : s.engine.ctx.session.inboundSeqNum < seq)
    : s'.Stuck (view.msgType = some MsgType.logout) := by
  rcases h.handled view hview with ⟨e, hcontrol, -, -, hhandled⟩
  have hstate : e.ctx.session.state = .resending := by
    rw [Control.receive, hseq] at hcontrol
    exact (congrArg Control.state hcontrol).trans (Control.state_receiveSeq_of_gt hgap)
  by_cases htype : view.msgType = some MsgType.logout
  . cases hhandled.state_of_logout htype with
    | inl hsame => exact .inl (hsame.1.trans hstate)
    | inr hdisconnected => exact .inr (.inr ⟨hdisconnected, .inl htype⟩)
  . have hnot : view.msgType = some MsgType.logon →
        ¬ Waiting e.ctx.session.config.role e.ctx.session.state := by
      intro _ hwaiting
      simp [Waiting, hstate] at hwaiting
    cases hhandled.state_of_not htype hnot with
    | inl hsame => exact .inl (hsame.trans hstate)
    | inr hlogout => exact .inr (.inl hlogout)

theorem not_isLogonFrame_concat {frames : List Bytes} {frame : Bytes}
    : (∀ f ∈ frames ++ [frame], ¬ IsLogonFrame f)
        ↔
      (∀ f ∈ frames, ¬ IsLogonFrame f) ∧ ¬ IsLogonFrame frame := by
  simp [or_imp, forall_and]

-- What the refill leads to when a Logout reported the gap and the acceptor goes on.
structure Refilled (first : UInt64) (frames : List Bytes) (s : RunState T A) : Prop where
  inbound : s.engine.ctx.session.inboundSeqNum = first + UInt64.ofNat frames.length
  state : s.engine.ctx.session.state = .logoutSent ∨ s.engine.ctx.session.state = .active
    ∨ (s.engine.ctx.session.state = .disconnected ∧ ∀ f ∈ frames, ¬ IsLogonFrame f)

theorem RunState.Idle.refilled {s s' : RunState T A} {evs : List Event} (h : s.Idle s' evs)
    {first : UInt64} {frames : List Bytes} (hrunning : s'.Running) (hs : Refilled first frames s)
    : Refilled first frames s' := by
  cases h.state with
  | inl hstate =>
    constructor
    . rw [h.inbound, hs.inbound]
    . rw [hstate]
      exact hs.state
  | inr hstate => exact absurd hrunning hstate.2

theorem RunState.Took.refilled {s s' : RunState T A} {frame : Bytes} {evs : List Event}
    (h : s.Took s' frame evs) {first : UInt64} {frames : List Bytes} (hrunning : s'.Running)
    (hrole : s.engine.ctx.session.config.role = .acceptor) (hs : Refilled first frames s)
    (hrefill : IsNumbered (first + UInt64.ofNat frames.length) frame)
    : Refilled first (frames ++ [frame]) s' := by
  rcases hrefill with ⟨view, hview, htype, hseq⟩
  rw [← hs.inbound] at hseq
  rcases h.handled_expected hview hseq with ⟨e, hstate, hconfig, hinbound, hhandled⟩
  -- Unless the acceptor is disconnected, a Logon changes the state no more than the others do.
  have hsame : (view.msgType = some MsgType.logon → s.engine.ctx.session.state ≠ .disconnected) →
      s.engine.ctx.session.state ≠ .connecting → s.engine.ctx.session.state ≠ .logonSent →
      s'.engine.ctx.session.state = s.engine.ctx.session.state
        ∨ s'.engine.ctx.session.state = .logoutSent := by
    intro hdisconnected hconnecting hlogonSent
    rw [← hstate]
    apply hhandled.state_of_not htype
    intro hkind hwaiting
    simp [Waiting, hstate, hdisconnected hkind, hconnecting, hlogonSent] at hwaiting
  constructor
  . rw [hinbound, hs.inbound, List.length_append, List.length_singleton, UInt64.ofNat_add,
      UInt64.add_assoc]
    rfl
  . rcases hs.state with hbefore | hbefore | ⟨hbefore, hnone⟩
    . rw [hbefore] at hsame
      left
      simpa using hsame
    . rw [hbefore] at hsame
      have hafter := hsame (by simp) (by simp) (by simp)
      cases hafter with
      | inl hactive => exact .inr (.inl hactive)
      | inr hlogout => exact .inl hlogout
    . rw [hbefore] at hsame
      by_cases hkind : view.msgType = some MsgType.logon
      . have hwaiting : Waiting e.ctx.session.config.role e.ctx.session.state := by
          rw [hconfig, hrole, hstate, hbefore]
          exact .inl ⟨rfl, .inl rfl⟩
        cases hhandled.state_of_logon (not_not_intro hrunning) hkind hwaiting with
        | inl hactive => exact .inr (.inl hactive)
        | inr hlogout => exact .inl hlogout
      . have hafter := hsame (fun h => absurd h hkind) (by simp) (by simp)
        cases hafter with
        | inl hdisconnected =>
          refine .inr (.inr ⟨hdisconnected, ?_⟩)
          rw [not_isLogonFrame_concat]
          refine ⟨hnone, ?_⟩
          intro hlogon
          rcases hlogon with ⟨view', hview', hkind'⟩
          rw [hview, Option.some.injEq] at hview'
          rw [← hview'] at hkind'
          exact hkind hkind'
        | inr hlogout => exact .inl hlogout

theorem RunState.Took.refilled_of_gap {s s' : RunState T A} {frame : Bytes} {evs : List Event}
    (h : s.Took s' frame evs) {view : MessageView} {seq : UInt64}
    (hview : accepted frame = some view) (hseq : view.msgSeqNum = some seq)
    (hgap : s.engine.ctx.session.inboundSeqNum < seq)
    (htype : view.msgType = some MsgType.logout) (hrunning : s'.Running)
    : Refilled s.engine.ctx.session.inboundSeqNum [] s' := by
  rcases h.handled view hview with ⟨e, hcontrol, -, -, hhandled⟩
  rw [Control.receive, hseq] at hcontrol
  have hinbound : e.ctx.session.inboundSeqNum = s.engine.ctx.session.inboundSeqNum := by
    have hexpected := congrArg Control.expected hcontrol
    simpa [Control.receiveSeq, Session.control, (UInt64.ne_of_lt hgap).symm, hgap] using hexpected
  constructor
  . rw [hhandled.keeps.inbound, hinbound]
    exact (UInt64.add_zero _).symm
  . cases hhandled.state_of_logout htype with
    | inl hsame => exact absurd hrunning hsame.2
    | inr hdisconnected => exact .inr (.inr ⟨hdisconnected, by simp⟩)

section Runs

variable [Transport T] (app : FixApp A)

-- From the step that reports the gap on, for the frames taken since.
theorem stuck_of_numbered {s s' : RunState T A} {frame : Bytes} {evs : List Event}
    (h : s.Took s' frame evs) (hparser : s.engine.parser = .new) {view : MessageView}
    {seq : UInt64} (hview : accepted frame = some view) (hseq : view.msgSeqNum = some seq)
    (hgap : s.engine.ctx.session.inboundSeqNum < seq) (n : Nat) {refill : List Bytes}
    (htaken : taken (runFor app n s').engine.ctx.log = taken s'.engine.ctx.log ++ refill)
    (hrefill : Numbered s.engine.ctx.session.inboundSeqNum refill)
    (hlogon : view.msgType = some MsgType.logout → s.engine.ctx.session.config.role = .acceptor →
      ∀ f ∈ refill, ¬ IsLogonFrame f)
    : (runFor app n s').Stuck (view.msgType = some MsgType.logout) := by
  let first := s.engine.ctx.session.inboundSeqNum
  let ended := view.msgType = some MsgType.logout
  let config := s.engine.ctx.session.config
  let I (frames : List Bytes) (s' : RunState T A) : Prop :=
    s'.engine.ctx.session.config = config
      ∧ (Numbered first frames →
        (ended → config.role = .acceptor → ∀ f ∈ frames, ¬ IsLogonFrame f) → s'.Stuck ended)
  have hhistory : ∃ frames, taken (runFor app n s').engine.ctx.log
      = taken s'.engine.ctx.log ++ frames ∧ I frames (runFor app n s') := by
    apply runFor_history app (h.parser.trans hparser)
    . exact ⟨h.config, fun _ _ => h.stuck_of_gap hview hseq hgap⟩
    . intro s1 s2 frames evs hstep hs
      refine ⟨hstep.config.trans hs.1, ?_⟩
      intro hframes hnone
      apply hstep.stuck (hs.2 hframes hnone)
    . intro s1 s2 frames frame evs hstep hs
      refine ⟨hstep.config.trans hs.1, ?_⟩
      intro hframes hnone
      simp only [not_isLogonFrame_concat] at hnone
      rw [numbered_concat] at hframes
      apply hstep.stuck
      . apply hs.2 hframes.1
        intro hended hrole
        exact (hnone hended hrole).1
      . exact hframes.2
      . intro hended hrole
        rw [hs.1] at hrole
        exact (hnone hended hrole).2
  rcases hhistory with ⟨frames, hframes, -, hstuck⟩
  rw [htaken, List.append_cancel_left_eq] at hframes
  rw [← hframes] at hstuck
  exact hstuck hrefill hlogon

theorem refilled_of_numbered {s s' : RunState T A} {frame : Bytes} {evs : List Event}
    (h : s.Took s' frame evs) (hparser : s.engine.parser = .new) {view : MessageView}
    {seq : UInt64} (hview : accepted frame = some view) (hseq : view.msgSeqNum = some seq)
    (hgap : s.engine.ctx.session.inboundSeqNum < seq)
    (htype : view.msgType = some MsgType.logout)
    (hrole : s.engine.ctx.session.config.role = .acceptor) (n : Nat) {refill : List Bytes}
    (htaken : taken (runFor app n s').engine.ctx.log = taken s'.engine.ctx.log ++ refill)
    (hrefill : Numbered s.engine.ctx.session.inboundSeqNum refill)
    (hrunning : (runFor app n s').Running)
    : Refilled s.engine.ctx.session.inboundSeqNum refill (runFor app n s') := by
  let first := s.engine.ctx.session.inboundSeqNum
  let config := s.engine.ctx.session.config
  let I (frames : List Bytes) (s' : RunState T A) : Prop :=
    s'.engine.ctx.session.config = config
      ∧ (Numbered first frames → s'.Running → Refilled first frames s')
  have hhistory : ∃ frames, taken (runFor app n s').engine.ctx.log
      = taken s'.engine.ctx.log ++ frames ∧ I frames (runFor app n s') := by
    apply runFor_history app (h.parser.trans hparser)
    . exact ⟨h.config, fun _ => h.refilled_of_gap hview hseq hgap htype⟩
    . intro s1 s2 frames evs hstep hs
      refine ⟨hstep.config.trans hs.1, ?_⟩
      intro hframes hrunning
      apply hstep.refilled hrunning (hs.2 hframes (hstep.running hrunning).1)
    . intro s1 s2 frames frame evs hstep hs
      refine ⟨hstep.config.trans hs.1, ?_⟩
      intro hframes hrunning
      rw [numbered_concat] at hframes
      apply hstep.refilled hrunning _ (hs.2 hframes.1 (.inl hstep.phase)) hframes.2
      rw [hs.1]
      exact hrole
  rcases hhistory with ⟨frames, hframes, -, hrefilled⟩
  rw [htaken, List.append_cancel_left_eq] at hframes
  rw [← hframes] at hrefilled
  exact hrefilled hrefill hrunning

variable (a : A) (transport : T) (session : Session) (clock : Clock) (entry : Entry) (n : Nat)

/-
Once a gap was reported, the refill does not make the session active again: only a Logon does, by
which an acceptor starts anew after the gap was reported by a Logout.
-/
theorem active_after_refill_iff {m : Nat} (hlt : n < m) {frame : Bytes} {recv : RecvBuffer}
    {view : MessageView} {seq : UInt64} {refill : List Bytes}
    (hphase : (runOf app a transport session clock entry n).phase = .process)
    (htake : (runOf app a transport session clock entry n).engine.recv.takeFrame
      = some (frame, recv))
    (hview : accepted frame = some view) (hseq : view.msgSeqNum = some seq)
    (hgap : (runOf app a transport session clock entry n).engine.ctx.session.inboundSeqNum < seq)
    (htaken : taken (runOf app a transport session clock entry m).engine.ctx.log
      = taken (runOf app a transport session clock entry n).engine.ctx.log ++ frame :: refill)
    (hrefill : Numbered
      (runOf app a transport session clock entry n).engine.ctx.session.inboundSeqNum refill)
    : ((runOf app a transport session clock entry m).engine.ctx.session.state = .active →
          view.msgType = some MsgType.logout ∧ session.config.role = .acceptor
            ∧ ∃ f ∈ refill, IsLogonFrame f)
        ∧ (view.msgType = some MsgType.logout ∧ session.config.role = .acceptor
              ∧ (∃ f ∈ refill, IsLogonFrame f) →
            (runOf app a transport session clock entry m).phase = .process →
            (runOf app a transport session clock entry m).engine.ctx.session.state = .active
              ∨ (runOf app a transport session clock entry m).engine.ctx.session.state
                = .logoutSent) := by
  rcases run_fields app a transport session clock entry n with ⟨hparser, -, hconfig⟩
  rcases Nat.exists_eq_add_of_lt hlt with ⟨k, rfl⟩
  have hrun : runOf app a transport session clock entry (n + k + 1)
      = runFor app k (RunState.step app (runOf app a transport session clock entry n)) := by
    rw [← runOf_succ, Nat.add_right_comm]
    apply runFor_add
  rw [hrun] at htaken ⊢
  generalize runOf app a transport session clock entry n = s at *
  have htook : ∃ evs, s.Took (RunState.step app s) frame evs := by
    cases s with
    | mk e a phase =>
      dsimp only at hphase
      rw [hphase]
      exact RunState.took_process a hparser htake
  rcases htook with ⟨evs, htook⟩
  have hsince : taken (runFor app k (RunState.step app s)).engine.ctx.log
      = taken (RunState.step app s).engine.ctx.log ++ refill := by
    rw [htaken, htook.taken_received.1, List.append_assoc]
    rfl
  rw [← hconfig]
  constructor
  . intro hactive
    by_contra hnot
    have hstuck := stuck_of_numbered app htook hparser hview hseq hgap k hsince hrefill (by
      intro htype hrole f hmem hlogon
      exact hnot ⟨htype, hrole, f, hmem, hlogon⟩)
    simp [RunState.Stuck, hactive] at hstuck
  . intro hnew hrunning
    have hrefilled := refilled_of_numbered app htook hparser hview hseq hgap hnew.1 hnew.2.1 k
      hsince hrefill (.inl hrunning)
    rcases hrefilled.state with hstate | hstate | hstate
    . exact .inr hstate
    . exact .inl hstate
    . rcases hnew.2.2 with ⟨f, hmem, hlogon⟩
      exact absurd hlogon (hstate.2 f hmem)

end Runs

theorem PeerFrame.isNumbered {msgType frame : Bytes} {seq : UInt64}
    (h : PeerFrame msgType seq frame) (hnot : msgType ≠ MsgType.logout)
    : IsNumbered seq frame := by
  rcases h.exists_view with ⟨view, hview, htype, hseq⟩
  refine ⟨view, hview, ?_, hseq⟩
  rw [htype, ne_eq, Option.some.injEq]
  exact hnot

-- An established session receives order 2 and then the refill, orders 1 and 2, in one read.
def gapRun : Nat → RunState Script Unit :=
  acceptorRun ((Session.new acceptorConfig 0).onLogon 0)
    [[orderFrame 2, orderFrame 1, orderFrame 2].flatten]

theorem gapRun_one
    : (gapRun 1).phase = .process ∧ (gapRun 1).engine.parser = .new
        ∧ (gapRun 1).engine.recv.unread = [orderFrame 2, orderFrame 1, orderFrame 2].flatten
        ∧ (gapRun 1).engine.ctx.session.state = .active
        ∧ (gapRun 1).engine.ctx.session.inboundSeqNum = 1
        ∧ taken (gapRun 1).engine.ctx.log = [] := by
  have hquiet : (((Session.new acceptorConfig 0).onLogon 0).checkHeartbeat stoppedClock.now).1
      = .none := by decide
  have hlen : [orderFrame 2, orderFrame 1, orderFrame 2].flatten.length ≤ 8192 := by decide +kernel
  have hne : [orderFrame 2, orderFrame 1, orderFrame 2].flatten ≠ [] := by
    simp [(peerFrame_order 2).ne_nil]
  have hone := acceptorRun_one [] hquiet hlen hne
  have hunread := runOf_script_one_unread silentApp () [] _ stoppedClock hquiet hlen hne
  unfold gapRun
  refine ⟨?_, ?_, hunread, ?_, ?_, ?_⟩
  . rw [hone]
  . rw [hone]
    rfl
  . rw [hone]
    rfl
  . rw [hone]
    rfl
  . rw [hone]
    rfl

theorem gapRun_four
    : gapRun 4 = runFor silentApp 3 (gapRun 1)
        ∧ taken (gapRun 4).engine.ctx.log = [orderFrame 2, orderFrame 1, orderFrame 2] := by
  rcases gapRun_one with ⟨hphase, hparser, hunread, -, -, hnone⟩
  rw [← List.append_nil (List.flatten _)] at hunread
  have hrun : gapRun 4 = runFor silentApp 3 (gapRun 1) := by
    apply runFor_add silentApp 1 3
  have happ (seq : UInt64) (h : PeerFrame (ascii "D") seq (orderFrame seq))
      : FixParser.framer.IsFrame (orderFrame seq) ∧ IsApplicationFrame (orderFrame seq) :=
    ⟨h.isFrame, h.isApplicationFrame (by decide)⟩
  have htaken := taken_runFor_silent hphase hparser hunread (by
    simp [happ 1 (peerFrame_order 1), happ 2 (peerFrame_order 2)])
  rw [hnone, List.nil_append] at htaken
  refine ⟨hrun, ?_⟩
  rw [hrun]
  exact htaken

theorem gapRun_numbered
    : (gapRun 1).engine.ctx.session.inboundSeqNum < 2
        ∧ Numbered (gapRun 1).engine.ctx.session.inboundSeqNum [orderFrame 1, orderFrame 2] := by
  rcases gapRun_one with ⟨-, -, -, -, hinbound, -⟩
  rw [hinbound]
  exact ⟨by decide, (peerFrame_order 1).isNumbered (by decide),
    (peerFrame_order 2).isNumbered (by decide), trivial⟩

theorem active_after_refill_gapRun : (gapRun 4).engine.ctx.session.state ≠ .active := by
  rcases gapRun_one with ⟨hphase, hparser, hunread, -, -, hnone⟩
  rcases gapRun_numbered with ⟨hgap, hrefill⟩
  rcases (peerFrame_order 2).exists_view with ⟨view, hview, hkind, hseq⟩
  have hcut := (peerFrame_order 2).isFrame (orderFrame 1 ++ orderFrame 2)
  have hflatten : [orderFrame 2, orderFrame 1, orderFrame 2].flatten
      = orderFrame 2 ++ (orderFrame 1 ++ orderFrame 2) := by
    simp
  rw [← hflatten, ← hunread] at hcut
  rcases RecvBuffer.exists_takeFrame hcut with ⟨recv, htake, -⟩
  rw [hunread, hflatten, List.take_left] at htake
  have htaken : taken (gapRun 4).engine.ctx.log
      = taken (gapRun 1).engine.ctx.log ++ orderFrame 2 :: [orderFrame 1, orderFrame 2] := by
    rw [gapRun_four.2, hnone]
    rfl
  intro hactive
  have hlogout := ((active_after_refill_iff silentApp () _ _ stoppedClock .runAcceptor 1 (by decide)
    hphase htake hview hseq hgap htaken hrefill).1 hactive).1
  rw [hkind] at hlogout
  exact absurd hlogout (by decide)

-- The gap is refilled completely, and the session is not active.
theorem not_active_after_refill
    : (gapRun 1).engine.ctx.session.state = .active
        ∧ taken (gapRun 1).engine.ctx.log = []
        ∧ taken (gapRun 4).engine.ctx.log = [orderFrame 2, orderFrame 1, orderFrame 2]
        ∧ (gapRun 4).engine.ctx.session.state ≠ .active := by
  rcases gapRun_one with ⟨hphase, hparser, hunread, hactive, -, hnone⟩
  rcases gapRun_numbered with ⟨hgap, hrefill⟩
  refine ⟨hactive, hnone, gapRun_four.2, ?_⟩
  rcases (peerFrame_order 2).exists_view with ⟨view, hview, hkind, hseq⟩
  have hrest : (gapRun 1).engine.recv.unread = orderFrame 2 ++ (orderFrame 1 ++ orderFrame 2) := by
    rw [hunread]
    simp
  rcases (RunState.took_of_unread silentApp hphase hparser hrest (peerFrame_order 2).isFrame).1
    with ⟨evs, htook⟩
  have hrun : gapRun 4 = runFor silentApp 2 (RunState.step silentApp (gapRun 1)) := by
    rw [gapRun_four.1]
    apply runFor_add silentApp 1 2
  have hsince : taken (runFor silentApp 2 (RunState.step silentApp (gapRun 1))).engine.ctx.log
      = taken (RunState.step silentApp (gapRun 1)).engine.ctx.log
        ++ [orderFrame 1, orderFrame 2] := by
    rw [← hrun, gapRun_four.2, htook.taken_received.1, hnone]
    rfl
  have hnot : view.msgType ≠ some MsgType.logout := by
    rw [hkind]
    decide
  have hstuck := stuck_of_numbered silentApp htook hparser hview hseq hgap 2 hsince hrefill
    (fun hlogout => absurd hlogout hnot)
  rw [← hrun] at hstuck
  intro hstate
  simp [RunState.Stuck, hstate] at hstuck

end Velocitas
