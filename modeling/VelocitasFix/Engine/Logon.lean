import VelocitasFix.Engine.Script

/-!
This module contains the answer to an inbound Logon. The number of the Logon is validated before the
Logon is handled, so that a number beyond the expected one moves the session out of the states in
which a Logon is answered.
-/

namespace Velocitas

variable {T A : Type}

-- The Logon that answers one taken by an acceptor, after the clock was read `before` times.
def FixEngine.logonAnswer (e : FixEngine T) (before : Nat) : OutMessage :=
  let reads := if e.ctx.session.state = .disconnected then 3 else 1
  logonMessage e.ctx.session.config e.ctx.session.outboundSeqNum
    ({ e.ctx.clock with reads := e.ctx.clock.reads + before + reads } : Clock).timestamp

def Session.AwaitsLogon (s : Session) : Prop :=
  match s.config.role with
  | .initiator => s.state = .logonSent
  | .acceptor => s.state = .disconnected ∨ s.state = .connecting

def acknowledgement (role : SessionRole) (answer : OutMessage) : List Event :=
  match role with
  | .initiator => [.onLogon]
  | .acceptor => [.sent (.built answer), .onLogon]

theorem Session.AwaitsLogon.waiting {s : Session} (h : s.AwaitsLogon)
    : Waiting s.config.role s.state := by
  unfold AwaitsLogon at h
  cases hrole : s.config.role with
  | initiator =>
    rw [hrole] at h
    exact .inr h
  | acceptor =>
    rw [hrole] at h
    exact .inl ⟨rfl, h⟩

namespace FixEngine

variable [Transport T]

def CanSend (e : FixEngine T) (m : OutMessage) : Prop :=
  m.bytes.length ≤ e.sendBuf.length ∧ ∃ sent, (Transport.send e.ctx.transport m.bytes).1 = .ok sent

theorem handleLogon_logonSent (app : FixApp A) {e : FixEngine T} (a : A)
    (hstate : e.ctx.session.state = .logonSent)
    : ∃ msgs : List Outbound, (handleLogon app e a).state.1.ctx.log
        = e.ctx.log ++ (.onLogon :: msgs.map Event.sent) := by
  have hnot : ¬ (e.ctx.session.config.role = .acceptor
      ∧ (e.ctx.session.state = .disconnected ∨ e.ctx.session.state = .connecting)) := by
    simp [hstate]
  unfold handleLogon
  rw [if_neg hnot, if_pos hstate]
  exact (acceptLogon_spec app (e.atInstant .onLogon) a).2.2.2

-- A session that is disconnected is connected first, which reads the clock two more times.
omit [Transport T] in
theorem nextMessage_logonAnswer (e : FixEngine T)
    : ((if e.ctx.session.state = .disconnected then e.connect else e).atInstant
          .onLogon).nextMessage logonMessage
        = e.logonAnswer 0 := by
  unfold logonAnswer
  split
  . have hfields := e.ctx.session.onConnected_fields e.ctx.clock.now e.ctx.clock.tick.now
    change logonMessage (e.ctx.session.onConnected _ _).config
      (e.ctx.session.onConnected _ _).outboundSeqNum _ = _
    rw [hfields.1, hfields.2.1]
    rfl
  . rfl

-- What halts the engine is a message that cannot be sent, and the log shows no more than sends.
theorem halt_of_sendBuilt {e e' : FixEngine T} {build : SessionConfig → UInt64 → Bytes → OutMessage}
    {reason : Halt} (h : e.sendBuilt build = .halt reason e')
    : ¬ e.CanSend (e.nextMessage build)
        ∧ ∃ msgs : List Outbound, e'.ctx.log = e.ctx.log ++ msgs.map Event.sent := by
  have hcases := sendBuilt_cases e build
  rw [h] at hcases
  cases hcases with
  | panicked _ hfits hsends =>
    refine ⟨?_, hsends.log⟩
    intro hcan
    exact absurd hcan.1 (Nat.not_le_of_lt hfits)
  | failed _ err _ hsend hsends =>
    refine ⟨?_, hsends.log⟩
    intro hcan
    rcases hcan.2 with ⟨k, hk⟩
    rw [hsend] at hk
    contradiction

theorem handleLogon_acceptor (app : FixApp A) {e : FixEngine T} (a : A)
    (hrole : e.ctx.session.config.role = .acceptor)
    (hstate : e.ctx.session.state = .disconnected ∨ e.ctx.session.state = .connecting)
    : (e.CanSend (e.logonAnswer 0) ∧ ∃ msgs : List Outbound,
          (handleLogon app e a).state.1.ctx.log
            = e.ctx.log ++ (.sent (.built (e.logonAnswer 0)) :: .onLogon :: msgs.map Event.sent))
        ∨ (¬ e.CanSend (e.logonAnswer 0) ∧ ∃ msgs : List Outbound,
          (handleLogon app e a).state.1.ctx.log = e.ctx.log ++ msgs.map Event.sent) := by
  unfold handleLogon
  rw [if_pos ⟨hrole, hstate⟩]
  dsimp only
  generalize he1 : (if e.ctx.session.state = .disconnected then e.connect else e) = e1
  have hanswer := e.nextMessage_logonAnswer
  rw [he1] at hanswer
  have hsame : e1.ctx.log = e.ctx.log ∧ e1.ctx.transport = e.ctx.transport
      ∧ e1.sendBuf = e.sendBuf := by
    rw [← he1]
    split
    . exact ⟨rfl, rfl, rfl⟩
    . exact ⟨rfl, rfl, rfl⟩
  have hcan : (e1.atInstant .onLogon).CanSend (e.logonAnswer 0) ↔ e.CanSend (e.logonAnswer 0) := by
    change (_ ≤ e1.sendBuf.length ∧ ∃ sent, (Transport.send e1.ctx.transport _).1 = .ok sent) ↔ _
    rw [hsame.2.1, hsame.2.2]
    rfl
  rw [← hcan, ← hsame.1]
  unfold sendLogon
  cases hbuilt : (e1.atInstant .onLogon).sendBuilt logonMessage with
  | next e2 =>
    have hcases := sendBuilt_cases (e1.atInstant .onLogon) logonMessage
    rw [hanswer, hbuilt] at hcases
    cases hcases with
    | sent _ k hfits hsent _ _ hlog =>
      left
      rcases (acceptLogon_spec app (e2.atInstant .onMessageSent) a).2.2.2 with ⟨msgs, haccept⟩
      refine ⟨⟨hfits, k, hsent⟩, msgs, ?_⟩
      apply haccept.trans
      change e2.ctx.log ++ _ = _
      rw [hlog]
      simp
  | halt reason e2 =>
    right
    rw [← hanswer]
    exact halt_of_sendBuilt hbuilt

theorem handleLogon_acknowledges_iff (app : FixApp A) {e : FixEngine T} (a : A)
    (hawaits : e.ctx.session.AwaitsLogon)
    : e.ctx.log ++ acknowledgement e.ctx.session.config.role (e.logonAnswer 0)
          <+: (handleLogon app e a).state.1.ctx.log
        ↔
      (e.ctx.session.config.role = .acceptor → e.CanSend (e.logonAnswer 0)) := by
  cases hrole : e.ctx.session.config.role with
  | initiator =>
    have hlogonSent : e.ctx.session.state = .logonSent := by
      simpa [Session.AwaitsLogon, hrole] using hawaits
    rcases handleLogon_logonSent app a hlogonSent with ⟨msgs, hhandled⟩
    rw [hhandled]
    simp [acknowledgement]
  | acceptor =>
    have hwaiting : e.ctx.session.state = .disconnected ∨ e.ctx.session.state = .connecting := by
      simpa [Session.AwaitsLogon, hrole] using hawaits
    rcases handleLogon_acceptor app a hrole hwaiting with ⟨hsent, msgs, hhandled⟩
      | ⟨hsent, msgs, hhandled⟩
    . rw [hhandled, List.prefix_append_right_inj]
      simp [acknowledgement, hsent]
    . rw [hhandled, List.prefix_append_right_inj]
      apply iff_of_false
      . intro hpre
        have hmem : Event.onLogon ∈ msgs.map Event.sent := by
          apply hpre.subset
          simp [acknowledgement]
        simp at hmem
      . simpa using hsent

end FixEngine

namespace RunState

variable [Transport T]

theorem process_of_logon {app : FixApp A} {e : FixEngine T} (a : A) {frame : Bytes}
    {recv : RecvBuffer} {view : MessageView} (hparser : e.parser = .new)
    (htake : e.recv.takeFrame = some (frame, recv)) (hview : accepted frame = some view)
    (htype : view.msgType = some MsgType.logon)
    : (process app e a).engine
        = (FixEngine.handleLogon app ((({ e with recv } : FixEngine T).record
            (.taken frame)).validated view) a).state.1 := by
  have hparser1 : (({ e with recv } : FixEngine T).record (.taken frame)).parser = .new := hparser
  simp only [process, htake, processMessage_of_accepted app a hparser1 hview, FixEngine.dispatch,
    htype, if_pos]
  apply settle_engine

-- A Logon beyond the expected number finds the session no longer waiting for it.
theorem not_acknowledged_of_gt {app : FixApp A} {e e1 : FixEngine T} (a : A) {frame : Bytes}
    {role : SessionRole} {answer : OutMessage}
    (hlog : e1.ctx.log = e.ctx.log ++ [.taken frame]) (hstate : e1.ctx.session.state = .resending)
    : ¬ e.ctx.log ++ .taken frame :: acknowledgement role answer
        <+: (FixEngine.handleLogon app e1 a).state.1.ctx.log := by
  have hignored : FixEngine.handleLogon app e1 a = .next (e1, a) := by
    simp [FixEngine.handleLogon, hstate]
  rw [hignored]
  change ¬ _ <+: e1.ctx.log
  rw [hlog, List.prefix_append_right_inj]
  intro hpre
  have hlen := hpre.length_le
  cases role with
  | initiator => simp [acknowledgement] at hlen
  | acceptor => simp [acknowledgement] at hlen

theorem process_acknowledges_iff {app : FixApp A} {e : FixEngine T} (a : A) {frame : Bytes}
    {recv : RecvBuffer} {view : MessageView} {seq : UInt64} (hparser : e.parser = .new)
    (htake : e.recv.takeFrame = some (frame, recv)) (hview : accepted frame = some view)
    (htype : view.msgType = some MsgType.logon) (hseq : view.msgSeqNum = some seq)
    (hawaits : e.ctx.session.AwaitsLogon)
    : e.ctx.log ++ .taken frame
          :: acknowledgement e.ctx.session.config.role (e.logonAnswer 2)
        <+: (process app e a).engine.ctx.log
        ↔
      seq ≤ e.ctx.session.expectedInboundSeqNum
        ∧ (e.ctx.session.config.role = .acceptor → e.CanSend (e.logonAnswer 2)) := by
  rw [process_of_logon a hparser htake hview htype]
  let e0 := ({ e with recv } : FixEngine T).record (.taken frame)
  rcases e0.validated_fields view with ⟨-, -, hsendBuf, -, hconfig, houtbound, htransport, hlog⟩
  have hcontrol := e0.validated_control view
  have hclock : (e0.validated view).ctx.clock = e.ctx.clock.tick.tick := by
    simp [FixEngine.validated, FixEngine.validateSeq, hseq, FixEngine.atInstant,
      EngineContext.atInstant, e0, FixEngine.record, EngineContext.record]
  change _ <+: (FixEngine.handleLogon app (e0.validated view) a).state.1.ctx.log ↔ _
  generalize e0.validated view = e1 at hsendBuf hconfig houtbound htransport hlog hcontrol hclock
  change e1.ctx.log = e.ctx.log ++ [.taken frame] at hlog
  change e1.ctx.session.control = e.ctx.session.control.receive view at hcontrol
  simp only [Control.receive, hseq] at hcontrol
  have hstate := congrArg Control.state hcontrol
  change e1.ctx.session.state = _ at hstate
  by_cases hle : seq ≤ e.ctx.session.expectedInboundSeqNum
  . have hsame : e1.ctx.session.state = e.ctx.session.state := by
      rw [hstate, Control.state_receiveSeq_of_le hle]
      rfl
    have hanswer : e1.logonAnswer 0 = e.logonAnswer 2 := by
      change e1.ctx.session.config = e.ctx.session.config at hconfig
      change e1.ctx.session.outboundSeqNum = e.ctx.session.outboundSeqNum at houtbound
      simp only [FixEngine.logonAnswer, hsame, hconfig, houtbound, hclock, Clock.tick, Nat.add_zero]
    have hcan : e1.CanSend (e.logonAnswer 2) ↔ e.CanSend (e.logonAnswer 2) := by
      simp only [FixEngine.CanSend, hsendBuf, htransport]
      rfl
    have hrole : e1.ctx.session.config.role = e.ctx.session.config.role := congrArg _ hconfig
    have hstill : e1.ctx.session.AwaitsLogon := by
      rw [Session.AwaitsLogon, hrole, hsame]
      exact hawaits
    rw [and_iff_right hle, List.append_cons, ← hlog, ← hcan, ← hanswer, ← hrole]
    exact FixEngine.handleLogon_acknowledges_iff app a hstill
  . have hgt : e1.ctx.session.state = .resending := by
      rw [hstate, Control.state_receiveSeq_of_gt (UInt64.not_le.mp hle)]
    apply iff_of_false
    . apply not_acknowledged_of_gt a hlog hgt
    . intro h
      exact absurd h.1 hle

end RunState

section Runs

variable [Transport T] (app : FixApp A) (a : A) (transport : T) (session : Session) (clock : Clock)
  (entry : Entry) (n : Nat)

-- A Logon is acknowledged iff its number is not beyond the expected one and the answer is sent.
theorem logon_acknowledged_iff {frame : Bytes} {recv : RecvBuffer} {view : MessageView}
    {seq : UInt64} (hphase : (runOf app a transport session clock entry n).phase = .process)
    (htake : (runOf app a transport session clock entry n).engine.recv.takeFrame
      = some (frame, recv))
    (hview : accepted frame = some view) (htype : view.msgType = some MsgType.logon)
    (hseq : view.msgSeqNum = some seq)
    (hawaits : (runOf app a transport session clock entry n).engine.ctx.session.AwaitsLogon)
    : (runOf app a transport session clock entry n).engine.ctx.log
          ++ .taken frame :: acknowledgement session.config.role
            ((runOf app a transport session clock entry n).engine.logonAnswer 2)
        <+: (runOf app a transport session clock entry (n + 1)).engine.ctx.log
        ↔
      seq ≤ (runOf app a transport session clock entry n).engine.ctx.session.expectedInboundSeqNum
        ∧ (session.config.role = .acceptor →
          (runOf app a transport session clock entry n).engine.CanSend
            ((runOf app a transport session clock entry n).engine.logonAnswer 2)) := by
  rcases run_fields app a transport session clock entry n with ⟨hparser, -, hconfig⟩
  rw [runOf_succ, ← hconfig]
  generalize runOf app a transport session clock entry n = s at *
  cases s with
  | mk e a phase =>
    dsimp only at hphase
    rw [hphase]
    exact RunState.process_acknowledges_iff a hparser htake hview htype hseq hawaits

end Runs

-- An acceptor that has received a Logon with number 1 awaits it and can answer it.
theorem acceptorRun_awaits
    : (acceptorRun (.new acceptorConfig 0) [logonFrame 1] 1).engine.ctx.session
          = .new acceptorConfig 0
        ∧ (acceptorRun (.new acceptorConfig 0) [logonFrame 1] 1).engine.CanSend
          ((acceptorRun (.new acceptorConfig 0) [logonFrame 1] 1).engine.logonAnswer 2) := by
  have hframe := peerFrame_logon 1
  rw [acceptorRun_one [] quiet_new hframe.length_le hframe.ne_nil]
  refine ⟨rfl, ?_⟩
  let answer := FixEngine.logonMessage acceptorConfig 1 (HrTimestamp.toFixTimestamp ⟨0⟩)
  have hfits : answer.bytes.length ≤ 4096 := by decide +kernel
  constructor
  . change answer.bytes.length ≤ (List.replicate 4096 (0 : UInt8)).length
    rw [List.length_replicate]
    exact hfits
  . exact ⟨_, rfl⟩

theorem logon_acknowledged_first
    : (acceptorRun (.new acceptorConfig 0) [logonFrame 1] 1).engine.ctx.log
          ++ .taken (logonFrame 1) :: acknowledgement .acceptor
            ((acceptorRun (.new acceptorConfig 0) [logonFrame 1] 1).engine.logonAnswer 2)
        <+: (acceptorRun (.new acceptorConfig 0) [logonFrame 1] 2).engine.ctx.log := by
  rcases acceptorRun_two [] quiet_new (peerFrame_logon 1) with ⟨evs, htook⟩
  rcases htook.recv with ⟨recv, htake, -⟩
  rcases (peerFrame_logon 1).exists_view with ⟨view, hview, hkind, hseq⟩
  rcases acceptorRun_awaits with ⟨hsession, hcan⟩
  have hawaits : (acceptorRun (.new acceptorConfig 0) [logonFrame 1] 1).engine.ctx.session.AwaitsLogon
      := by
    rw [hsession]
    exact .inl rfl
  apply (logon_acknowledged_iff silentApp () (Script.mk [logonFrame 1]) (.new acceptorConfig 0)
    stoppedClock .runAcceptor 1 htook.phase htake hview hkind hseq hawaits).mpr
  refine ⟨?_, fun _ => hcan⟩
  change _ ≤ (acceptorRun _ _ 1).engine.ctx.session.inboundSeqNum
  rw [hsession]
  decide

-- A Logon with number 5 is taken when 1 is expected, and the application does not hear of it.
theorem not_logon_acknowledged
    : (acceptorRun (.new acceptorConfig 0) [logonFrame 5] 1).engine.ctx.session.AwaitsLogon
        ∧ taken (acceptorRun (.new acceptorConfig 0) [logonFrame 5] 2).engine.ctx.log
          = [logonFrame 5]
        ∧ .onLogon ∉ (acceptorRun (.new acceptorConfig 0) [logonFrame 5] 2).engine.ctx.log := by
  have hframe := peerFrame_logon 5
  have hone := acceptorRun_one [] quiet_new hframe.length_le hframe.ne_nil
  rcases acceptorRun_two [] quiet_new hframe with ⟨evs, htook⟩
  rw [htook.taken_received.1, htook.log, hone]
  refine ⟨.inl rfl, rfl, ?_⟩
  rcases hframe.exists_view with ⟨view, hview, -, hnum⟩
  rcases htook.handled view hview with ⟨e, hcontrol, -, -, hhandled⟩
  have hstate : e.ctx.session.state = .resending := by
    rw [hone, Control.receive, hnum] at hcontrol
    have hgt : (Session.new acceptorConfig 0).control.expected < 5 := by decide
    exact (congrArg Control.state hcontrol).trans (Control.state_receiveSeq_of_gt hgt)
  have hevs : .onLogon ∉ evs := by
    cases hhandled with
    | logon _ _ _ hwaiting => simp [Waiting, hstate] at hwaiting
    | _ => simp
  intro hmem
  rw [List.mem_append, List.mem_cons] at hmem
  have hreceived : .onLogon ∉ [Event.received (logonFrame 5)] := by simp
  cases hmem with
  | inl hmem => exact hreceived hmem
  | inr hmem =>
    cases hmem with
    | inl heq => contradiction
    | inr hmem => exact hevs hmem

end Velocitas
