import VelocitasFix.Engine.Run
import VelocitasFix.Serializer.Reading

/-!
This module contains a transport that delivers a stream in given reads, accepts everything that is
sent, and reports the end of the stream after the last read. The first two steps of an acceptor on
it are known for every first read that is one frame.
-/

namespace Velocitas

structure Script where
  reads : List Bytes

instance : Transport Script where
  send t data := (.ok data.length, t)
  recv t n :=
    match t.reads with
    | [] => (.error .unexpectedEof, t)
    | chunk :: reads =>
      if chunk.length ≤ n then
        (.ok chunk, ⟨reads⟩)
      else
        (.ok (chunk.take n), ⟨chunk.drop n :: reads⟩)
  close t := (.ok (), t)
  length_recv := by
    intro t t' n data h
    split at h
    . simp at h
    . split at h
      . next hle =>
        simp only [Prod.mk.injEq, Except.ok.injEq] at h
        rwa [← h.1]
      . simp only [Prod.mk.injEq, Except.ok.injEq] at h
        rw [← h.1, List.length_take]
        omega

variable {A : Type}

namespace RunState

def receiveChunk (e : FixEngine Script) (chunk : Bytes) (reads : List Bytes) : FixEngine Script :=
  { (({ e with ctx := { e.ctx with transport := ⟨reads⟩ } } : FixEngine Script).record
      (.received chunk)) with recv := e.recv.append chunk }

theorem poll_script {e : FixEngine Script} (a : A) {chunk : Bytes} {reads : List Bytes}
    (hstop : e.shouldStop = false) (htimer : (timer e).1 = .none)
    (htransport : e.ctx.transport = ⟨chunk :: reads⟩) (hlen : chunk.length ≤ 8192)
    (hne : chunk ≠ [])
    : poll e a = ⟨receiveChunk (timer e).2 chunk reads, a, .process⟩ := by
  unfold poll
  rw [hstop]
  cases htimed : timer e with
  | mk action e1 =>
    rw [htimed] at htimer
    have htransport1 : e1.ctx.transport = ⟨chunk :: reads⟩ := by
      rw [← htransport]
      have := congrArg (fun res => res.2.ctx.transport) htimed
      exact this.symm
    dsimp only at htimer
    subst htimer
    have hpos : ¬ chunk.length = 0 := by simpa using hne
    simp [receive, htransport1, Transport.recv, hlen, hpos, receiveChunk, FixEngine.record]

end RunState

section Runs

variable (app : FixApp A) (a : A) {chunk : Bytes} (reads : List Bytes) (session : Session)
  (clock : Clock)

-- The first step of an acceptor's run receives the first read.
theorem runOf_script_one (hquiet : (session.checkHeartbeat clock.now).1 = .none)
    (hlen : chunk.length ≤ 8192) (hne : chunk ≠ [])
    : runOf app a (Script.mk (chunk :: reads)) session clock .runAcceptor 1
        = ⟨RunState.receiveChunk
            (RunState.timer (.new (Script.mk (chunk :: reads)) session clock)).2 chunk reads,
          a, .process⟩ := by
  have htimer : (RunState.timer (.new (Script.mk (chunk :: reads)) session clock)).1 = .none :=
    hquiet
  rw [runOf_succ]
  exact RunState.poll_script a rfl htimer rfl hlen hne

theorem runOf_script_one_unread (hquiet : (session.checkHeartbeat clock.now).1 = .none)
    (hlen : chunk.length ≤ 8192) (hne : chunk ≠ [])
    : (runOf app a (Script.mk (chunk :: reads)) session clock .runAcceptor 1).engine.recv.unread
        = chunk := by
  rw [runOf_script_one app a reads session clock hquiet hlen hne]
  change ((RecvBuffer.new).append chunk).unread = chunk
  rw [RecvBuffer.unread_append, RecvBuffer.unread_new, List.nil_append]

end Runs

-- An application that does nothing.
def silentApp : FixApp Unit where
  onLogon _ := .done (.ok (), ())
  onMessage _ _ _ := .done (.ok (), ())
  onLogout _ := (.ok (), ())

def IsApplicationFrame (frame : Bytes) : Prop :=
  ∃ view, accepted frame = some view ∧ view.IsApplication

namespace RunState

variable {T : Type} [Transport T]

theorem took_of_unread (app : FixApp A) {s : RunState T A} {frame rest : Bytes}
    (hphase : s.phase = .process) (hparser : s.engine.parser = .new)
    (hunread : s.engine.recv.unread = frame ++ rest) (hframe : FixParser.framer.IsFrame frame)
    : (∃ evs, s.Took (step app s) frame evs) ∧ (step app s).engine.recv.unread = rest := by
  have hcut := hframe rest
  rw [← hunread] at hcut
  rcases RecvBuffer.exists_takeFrame hcut with ⟨recv, htake, hrest⟩
  rw [hunread, List.take_left] at htake
  rw [hunread, List.drop_left] at hrest
  cases s with
  | mk e a phase =>
    dsimp only at hphase
    rw [hphase]
    have htook : ∃ evs, Took ⟨e, a, .process⟩ (step app ⟨e, a, .process⟩) frame evs :=
      took_process a hparser htake
    rcases htook with ⟨evs, htook⟩
    refine ⟨⟨evs, htook⟩, ?_⟩
    rcases htook.recv with ⟨recv', htake', hrecv⟩
    dsimp only at htake'
    rw [htake, Option.some.injEq, Prod.mk.injEq] at htake'
    rw [hrecv, ← htake'.2, hrest]

-- A silent application leaves the engine as it is when the number of the message was validated.
theorem step_silent {s : RunState T Unit} {frame rest : Bytes} (hphase : s.phase = .process)
    (hparser : s.engine.parser = .new) (hunread : s.engine.recv.unread = frame ++ rest)
    (hframe : FixParser.framer.IsFrame frame) (happ : IsApplicationFrame frame)
    : ∃ recv view ev, step silentApp s
        = ⟨((({ s.engine with recv } : FixEngine T).record (.taken frame)).validated view).record ev,
          s.app, .process⟩ := by
  have hcut := hframe rest
  rw [← hunread] at hcut
  rcases RecvBuffer.exists_takeFrame hcut with ⟨recv, htake, -⟩
  rw [hunread, List.take_left] at htake
  rcases happ with ⟨view, hview, happ⟩
  have hne := @MessageView.IsApplication.msgType_ne _ happ
  rcases happ with ⟨msgType, htype, -⟩
  simp only [htype, ne_eq, Option.some.injEq] at hne
  refine ⟨recv, view, .onMessage msgType view s.engine.ctx.session.inboundSeqNum, ?_⟩
  let e1 := ({ s.engine with recv } : FixEngine T).record (.taken frame)
  have hparser1 : e1.parser = .new := hparser
  simp only [step, hphase, process, htake]
  change settle .process (FixEngine.processMessage silentApp e1 s.app frame) = _
  rw [processMessage_of_accepted silentApp s.app hparser1 hview]
  simp [FixEngine.dispatch, htype, hne, FixEngine.callback, silentApp, AppProg.run, settle, e1,
    FixEngine.record, EngineContext.record]

end RunState

-- A silent run takes the application messages it has received one after the other.
theorem taken_runFor_silent {T : Type} [Transport T] {s : RunState T Unit} {frames : List Bytes}
    {rest : Bytes} (hphase : s.phase = .process) (hparser : s.engine.parser = .new)
    (hunread : s.engine.recv.unread = frames.flatten ++ rest)
    (hframes : ∀ f ∈ frames, FixParser.framer.IsFrame f ∧ IsApplicationFrame f)
    : taken (runFor silentApp frames.length s).engine.ctx.log
        = taken s.engine.ctx.log ++ frames := by
  induction frames generalizing s with
  | nil => rw [List.append_nil]; rfl
  | cons frame frames ih =>
    rw [List.forall_mem_cons] at hframes
    rw [List.flatten_cons, List.append_assoc] at hunread
    rcases RunState.took_of_unread silentApp hphase hparser hunread hframes.1.1
      with ⟨⟨evs, htook⟩, hrest⟩
    have hnext : (RunState.step silentApp s).phase = .process := by
      rcases RunState.step_silent hphase hparser hunread hframes.1.1 hframes.1.2
        with ⟨recv, view, ev, hstep⟩
      rw [hstep]
    have htaken := ih hnext (htook.parser.trans hparser) hrest hframes.2
    rw [htook.taken_received.1, List.append_assoc] at htaken
    exact htaken

def acceptorConfig : SessionConfig :=
  { SessionConfig.default with
    senderCompId := ascii "ENGINE"
    targetCompId := ascii "PEER"
    role := .acceptor }

def stoppedClock : Clock := ⟨fun _ => 0, fun _ => 0, 0⟩

def orderFrame (seq : UInt64) : Bytes :=
  OutMessage.bytes {
    beginString := ascii "FIX.4.4"
    msgType := ascii "D"
    args := [.str 49 (ascii "PEER"), .str 56 (ascii "ENGINE"), .u64 34 seq,
      .str 52 (ascii "20260321-10:00:00.000")]
  }

def logonFrame (seq : UInt64) : Bytes :=
  (OutMessage.logon (ascii "FIX.4.4") (ascii "PEER") (ascii "ENGINE") seq
    (ascii "20260321-10:00:00.000") 30).bytes

-- What the runs below need to know of a message of the counterparty.
structure PeerFrame (msgType : Bytes) (seq : UInt64) (frame : Bytes) : Prop where
  isFrame : FixParser.framer.IsFrame frame
  length_le : frame.length ≤ 8192
  exists_view : ∃ view, accepted frame = some view ∧ view.msgType = some msgType
    ∧ view.msgSeqNum = some seq

theorem peerFrame_of_readable {m : OutMessage} {seq : UInt64} (h : m.Readable seq)
    (hlen : m.bytes.length ≤ 8192)
    : PeerFrame m.msgType seq m.bytes where
  isFrame := h.boundary
  length_le := hlen
  exists_view := by
    obtain ⟨view, hparse, -, htype, hseq⟩ := h.parse
    refine ⟨view, ?_, htype, hseq⟩
    rw [accepted, hparse]

theorem PeerFrame.ne_nil {msgType frame : Bytes} {seq : UInt64} (h : PeerFrame msgType seq frame)
    : frame ≠ [] := by
  intro hnil
  have hcut := FixParser.framer.isFrame_iff.mp h.isFrame
  have hpos := FixParser.framer.pos_of_cut hcut
  rw [hnil] at hpos
  exact absurd hpos (by simp)

theorem PeerFrame.isApplicationFrame {msgType frame : Bytes} {seq : UInt64}
    (h : PeerFrame msgType seq frame)
    (hnot : msgType ∉ [MsgType.logon, MsgType.heartbeat, MsgType.testRequest, MsgType.logout])
    : IsApplicationFrame frame := by
  rcases h.exists_view with ⟨view, hview, htype, -⟩
  exact ⟨view, hview, msgType, htype, hnot⟩

theorem peerFrame_order (seq : UInt64) : PeerFrame (ascii "D") seq (orderFrame seq) := by
  have hlen : (orderFrame seq).length ≤ 8192 := by
    apply Nat.le_trans (OutMessage.length_bytes_le _)
    change 40 + 7 + 1 + (12 + 4 + (12 + 6 + (32 + (12 + 21 + 0)))) ≤ 8192
    decide
  have hbegin : Tags.soh ∉ ascii "FIX.4.4" := by decide
  have htype : Tags.soh ∉ ascii "D" := by decide
  apply peerFrame_of_readable _ hlen
  exact .of_args hbegin htype (by decide) (by decide) (by decide) (Nat.le_trans hlen (by decide))
    (List.append_nil _).symm (by simp) (by simp)

-- A Logon to the acceptor below, from whomever it is.
theorem peerFrame_logon_of {sender : Bytes} (hsoh : Tags.soh ∉ sender) (hle : sender.length ≤ 4000)
    (seq : UInt64)
    : PeerFrame (ascii "A") seq (OutMessage.logon (ascii "FIX.4.4") sender (ascii "ENGINE") seq
        (ascii "20260321-10:00:00.000") 30).bytes := by
  have hlen : (OutMessage.logon (ascii "FIX.4.4") sender (ascii "ENGINE") seq
      (ascii "20260321-10:00:00.000") 30).bytes.length ≤ 8192 := by
    apply Nat.le_trans (OutMessage.length_bytes_le _)
    change 40 + 7 + 1 + (12 + sender.length + (12 + 6 + (32 + (12 + 21 + (32 + (32 + 0)))))) ≤ 8192
    omega
  apply peerFrame_of_readable _ hlen
  apply OutMessage.Readable.logon _ hsoh _ _ (Nat.le_trans hlen (by decide))
  all_goals decide

theorem peerFrame_logon (seq : UInt64) : PeerFrame (ascii "A") seq (logonFrame seq) :=
  peerFrame_logon_of (by decide) (by decide) seq

def acceptorRun (session : Session) (reads : List Bytes) (n : Nat) : RunState Script Unit :=
  runOf silentApp () (Script.mk reads) session stoppedClock .runAcceptor n

section Acceptor

variable {session : Session} {chunk : Bytes} (reads : List Bytes)
  (hquiet : (session.checkHeartbeat stoppedClock.now).1 = .none)

include hquiet

theorem acceptorRun_one (hlen : chunk.length ≤ 8192) (hne : chunk ≠ [])
    : acceptorRun session (chunk :: reads) 1
        = ⟨RunState.receiveChunk (RunState.timer (.new (Script.mk (chunk :: reads)) session
            stoppedClock)).2 chunk reads, (), .process⟩ :=
  runOf_script_one silentApp () reads session stoppedClock hquiet hlen hne

-- The second step takes the frame that the first read is.
theorem acceptorRun_two {msgType : Bytes} {seq : UInt64} (hframe : PeerFrame msgType seq chunk)
    : ∃ evs, (acceptorRun session (chunk :: reads) 1).Took
        (acceptorRun session (chunk :: reads) 2) chunk evs := by
  have hunread := (runOf_script_one_unread silentApp () reads session stoppedClock hquiet
    hframe.length_le hframe.ne_nil).trans (List.append_nil chunk).symm
  have hparser := (run_fields silentApp () (Script.mk (chunk :: reads)) session stoppedClock
    .runAcceptor 1).1
  have hphase : (acceptorRun session (chunk :: reads) 1).phase = .process := by
    rw [acceptorRun_one reads hquiet hframe.length_le hframe.ne_nil]
  unfold acceptorRun at hphase ⊢
  rw [runOf_succ _ _ _ _ _ _ 1]
  exact (RunState.took_of_unread silentApp hphase hparser hunread hframe.isFrame).1

end Acceptor

theorem quiet_new : ((Session.new acceptorConfig 0).checkHeartbeat stoppedClock.now).1 = .none := by
  decide

end Velocitas
