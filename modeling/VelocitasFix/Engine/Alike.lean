import VelocitasFix.Engine.Inbound
import VelocitasFix.Engine.Script

/-!
This module contains what two engines on scripted transports may differ in without acting
differently: the times, the bytes in the buffers and what is left to read. Every operation leads
from engines that are alike in this sense to engines that are alike.
-/

namespace Velocitas

variable {A : Type}

-- Two operations that continue or halt together, with related states.
inductive Outcome.Rel {S R : Type} (r : S → R → Prop) : Outcome S → Outcome R → Prop where
  | next {s : S} {s' : R} (h : r s s') : Rel r (.next s) (.next s')
  | halt {s : S} {s' : R} (reason : Halt) (h : r s s') : Rel r (.halt reason s) (.halt reason s')

namespace Outcome

variable {S S' R R' : Type} {r : S → S' → Prop} {q : R → R' → Prop}

theorem Rel.bind {o : Outcome S} {o' : Outcome S'} {f : S → Outcome R} {f' : S' → Outcome R'}
    {g : S → R} {g' : S' → R'} (h : Rel r o o') (hf : ∀ s s', r s s' → Rel q (f s) (f' s'))
    (hg : ∀ s s', r s s' → q (g s) (g' s'))
    : Rel q (o.bind f g) (o'.bind f' g') := by
  cases h with
  | next h => apply hf _ _ h
  | halt reason h =>
    apply Rel.halt
    apply hg _ _ h

theorem Rel.state {o : Outcome S} {o' : Outcome S'} (h : Rel r o o') : r o.state o'.state := by
  cases h with
  | next h => exact h
  | halt reason h => exact h

end Outcome

def FieldArg.untimed : FieldArg → FieldArg
  | .str tag value => .str tag (if tag = Tags.sendingTime then [] else value)
  | arg => arg

-- The message without its SendingTime.
def OutMessage.untimed (m : OutMessage) : OutMessage :=
  { m with args := m.args.map FieldArg.untimed }

def Outbound.untimed : Outbound → Outbound
  | .built message => .built message.untimed
  | .raw data => .raw data

-- What the application and the counterparty notice.
def Event.observable : Event → Option Event
  | .sent message => some (.sent message.untimed)
  | .onLogon => some .onLogon
  | .onMessage msgType view expected => some (.onMessage msgType view expected)
  | .onLogout => some .onLogout
  | _ => none

def observed (log : List Event) : List Event := log.filterMap Event.observable

@[simp]
theorem observed_append (log log' : List Event)
    : observed (log ++ log') = observed log ++ observed log' := by
  simp [observed]

def Session.untimed (s : Session) : Session :=
  { s with
    lastSentTime := 0
    lastReceivedTime := 0
    testRequestPending := false
    testRequestSentTime := none }

-- The operation acts on what is not time alike, whatever the times are.
def Session.Timed (f : Session → Instant → Session) : Prop :=
  ∀ s now, (f s now).untimed = (f s.untimed 0).untimed

namespace Session

theorem timed_onMessageSent : Timed onMessageSent := by
  intro s now
  rfl

theorem timed_onMessageReceived : Timed onMessageReceived := by
  intro s now
  rfl

theorem timed_onLogon : Timed onLogon := by
  intro s now
  rfl

theorem timed_validateInboundSeq (seq : UInt64)
    : Timed fun s now => (s.validateInboundSeq seq now).2 := by
  intro s now
  by_cases heq : seq = s.inboundSeqNum
  . simp [validateInboundSeq, heq, untimed]
  . by_cases hgt : seq > s.inboundSeqNum
    . simp [validateInboundSeq, heq, hgt, untimed]
    . simp [validateInboundSeq, heq, hgt, untimed]

theorem untimed_onConnected (s : Session) (receivedNow sentNow : Instant)
    : (s.onConnected receivedNow sentNow).untimed = (s.untimed.onConnected 0 0).untimed := by
  have hstate : s.untimed.state = s.state := rfl
  unfold onConnected
  rw [hstate]
  split
  . rfl
  . rfl
  . rfl

variable {s1 s2 : Session} (h : s1.untimed = s2.untimed)

include h

theorem Timed.congr {f : Session → Instant → Session} (hf : Timed f) (t1 t2 : Instant)
    : (f s1 t1).untimed = (f s2 t2).untimed := by
  rw [hf s1 t1, hf s2 t2, h]

theorem config_congr : s1.config = s2.config := by
  have := congrArg config h
  exact this

theorem state_congr : s1.state = s2.state := by
  have := congrArg state h
  exact this

theorem outboundSeqNum_congr : s1.outboundSeqNum = s2.outboundSeqNum := by
  have := congrArg outboundSeqNum h
  exact this

theorem inboundSeqNum_congr : s1.inboundSeqNum = s2.inboundSeqNum := by
  have := congrArg inboundSeqNum h
  exact this

theorem view_congr : s1.view = s2.view := by
  have := congrArg view h
  exact this

end Session

-- Two contexts whose transports are known, alike in all that is not time.
structure EngineContext.Alike (t1 t2 : Script) (c1 c2 : EngineContext Script) : Prop where
  left : c1.transport = t1
  right : c2.transport = t2
  session : c1.session.untimed = c2.session.untimed
  observed : observed c1.log = observed c2.log

namespace EngineContext.Alike

variable {t1 t2 : Script} {c1 c2 : EngineContext Script} (h : c1.Alike t1 t2 c2)

include h

theorem record (ev1 ev2 : Event) (hev : ev1.observable = ev2.observable)
    : (c1.record ev1).Alike t1 t2 (c2.record ev2) where
  left := h.left
  right := h.right
  session := h.session
  observed := by
    change Velocitas.observed (c1.log ++ [ev1]) = Velocitas.observed (c2.log ++ [ev2])
    rw [observed_append, observed_append, h.observed]
    simp [Velocitas.observed, List.filterMap_cons, hev]

theorem atInstant {f : Session → Instant → Session} (hf : Session.Timed f)
    : (c1.atInstant f).Alike t1 t2 (c2.atInstant f) where
  left := h.left
  right := h.right
  session := hf.congr h.session _ _
  observed := h.observed

theorem modifySession (f : Session → Session) (hf : ∀ s, (f s).untimed = (f s.untimed).untimed)
    : (c1.modifySession f).Alike t1 t2 (c2.modifySession f) where
  left := h.left
  right := h.right
  session := by
    change (f c1.session).untimed = (f c2.session).untimed
    rw [hf c1.session, hf c2.session, h.session]
  observed := h.observed

theorem sendRaw (data : Bytes)
    : (c1.sendRaw data).1 = (c2.sendRaw data).1
        ∧ (c1.sendRaw data).2.Alike t1 t2 (c2.sendRaw data).2 := by
  refine ⟨rfl, ?_⟩
  have hsent := h.record (.sent (.raw data)) (.sent (.raw data)) rfl
  have htimed := hsent.atInstant Session.timed_onMessageSent
  apply htimed.modifySession (fun s => s.nextOutboundSeqNum.2)
  intro s
  rfl

theorem run {α : Type} (prog : AppProg α)
    : (prog.run c1).1 = (prog.run c2).1 ∧ (prog.run c1).2.Alike t1 t2 (prog.run c2).2 := by
  induction prog generalizing c1 c2 with
  | done result => exact ⟨rfl, h⟩
  | sendRaw data next ih =>
    have hsent := h.sendRaw data
    simp only [AppProg.run]
    rw [hsent.1]
    exact ih _ hsent.2
  | session next ih =>
    simp only [AppProg.run]
    rw [Session.view_congr h.session]
    exact ih _ h
  | requestStop next ih =>
    simp only [AppProg.run]
    apply ih
    apply h.modifySession Session.onLogoutSent
    intro s
    rfl

end EngineContext.Alike

structure FixEngine.Alike (t1 t2 : Script) (e1 e2 : FixEngine Script) : Prop where
  ctx : e1.ctx.Alike t1 t2 e2.ctx
  parser : e1.parser = e2.parser
  sendBuf : e1.sendBuf.length = e2.sendBuf.length
  shouldStop : e1.shouldStop = e2.shouldStop

-- The message has the same length and the same untimed form at all times.
def FixEngine.TimedMessage (message : SessionConfig → UInt64 → Bytes → OutMessage) : Prop :=
  ∀ config seq time time', time.length = time'.length →
    (message config seq time).bytes.length = (message config seq time').bytes.length
      ∧ (message config seq time).untimed = (message config seq time').untimed

namespace FixEngine

theorem timedMessage_of_args {message : SessionConfig → UInt64 → Bytes → OutMessage}
    (h : ∀ config seq, ∃ beginString msgType before after, ∀ time, message config seq time
      = ⟨beginString, msgType, before ++ .str Tags.sendingTime time :: after⟩)
    : TimedMessage message := by
  intro config seq time time' hlen
  rcases h config seq with ⟨beginString, msgType, before, after, hmessage⟩
  rw [hmessage, hmessage]
  constructor
  . simp [OutMessage.length_bytes, FixSerializer.length_preamble, OutMessage.body, FieldArg.bytes,
      FieldArg.text, FieldArg.tag, fieldBytes, hlen]
  . simp [OutMessage.untimed, FieldArg.untimed]

theorem timed_logonMessage : TimedMessage logonMessage := by
  apply timedMessage_of_args
  intro config seq
  exact ⟨_, _, [_, _, _], [_, _], fun time => rfl⟩

theorem timed_heartbeatMessage : TimedMessage heartbeatMessage := by
  apply timedMessage_of_args
  intro config seq
  exact ⟨_, _, [_, _, _], [], fun time => rfl⟩

theorem timed_logoutMessage : TimedMessage logoutMessage := by
  apply timedMessage_of_args
  intro config seq
  exact ⟨_, _, [_, _, _], [], fun time => rfl⟩

end FixEngine

namespace FixEngine.Alike

variable {t1 t2 : Script} {e1 e2 : FixEngine Script} (h : e1.Alike t1 t2 e2)

include h

theorem record (ev1 ev2 : Event) (hev : ev1.observable = ev2.observable)
    : (e1.record ev1).Alike t1 t2 (e2.record ev2) :=
  ⟨h.ctx.record ev1 ev2 hev, h.parser, h.sendBuf, h.shouldStop⟩

theorem atInstant {f : Session → Instant → Session} (hf : Session.Timed f)
    : (e1.atInstant f).Alike t1 t2 (e2.atInstant f) :=
  ⟨h.ctx.atInstant hf, h.parser, h.sendBuf, h.shouldStop⟩

theorem modifySession (f : Session → Session) (hf : ∀ s, (f s).untimed = (f s.untimed).untimed)
    : (e1.modifySession f).Alike t1 t2 (e2.modifySession f) :=
  ⟨h.ctx.modifySession f hf, h.parser, h.sendBuf, h.shouldStop⟩

theorem state : e1.ctx.session.state = e2.ctx.session.state :=
  Session.state_congr h.ctx.session

theorem role : e1.ctx.session.config.role = e2.ctx.session.config.role := by
  rw [Session.config_congr h.ctx.session]

theorem connect : e1.connect.Alike t1 t2 e2.connect where
  ctx := by
    refine ⟨h.ctx.left, h.ctx.right, ?_, h.ctx.observed⟩
    change (e1.ctx.session.onConnected _ _).untimed = (e2.ctx.session.onConnected _ _).untimed
    rw [e1.ctx.session.untimed_onConnected, e2.ctx.session.untimed_onConnected, h.ctx.session]
  parser := h.parser
  sendBuf := h.sendBuf
  shouldStop := h.shouldStop

theorem disconnect : e1.disconnect.Alike t1 t2 e2.disconnect := by
  have hmodified := h.modifySession Session.onDisconnected (fun s => rfl)
  apply hmodified.record
  rfl

theorem stop : FixEngine.Alike t1 t2 { e1 with shouldStop := true } { e2 with shouldStop := true } :=
  ⟨h.ctx, h.parser, h.sendBuf, rfl⟩

theorem nextMessage {message : SessionConfig → UInt64 → Bytes → OutMessage}
    (hmessage : TimedMessage message)
    : (e1.nextMessage message).bytes.length = (e2.nextMessage message).bytes.length
        ∧ (e1.nextMessage message).untimed = (e2.nextMessage message).untimed := by
  unfold FixEngine.nextMessage
  rw [Session.config_congr h.ctx.session, Session.outboundSeqNum_congr h.ctx.session]
  apply hmessage
  exact (HrTimestamp.length_toFixTimestamp _).trans (HrTimestamp.length_toFixTimestamp _).symm

-- On a script nothing but a message that does not fit the buffer keeps it from being sent.
theorem sendBuilt {message : SessionConfig → UInt64 → Bytes → OutMessage}
    (hmessage : TimedMessage message)
    : Outcome.Rel (FixEngine.Alike t1 t2) (e1.sendBuilt message) (e2.sendBuilt message) := by
  have hnext := h.nextMessage hmessage
  have hcases1 := e1.sendBuilt_cases message
  have hcases2 := e2.sendBuilt_cases message
  generalize e1.sendBuilt message = o1 at hcases1
  generalize e2.sendBuilt message = o2 at hcases2
  have hsession {s1 s2 : Session} (hs1 : s1 = e1.ctx.session.nextOutboundSeqNum.2)
      (hs2 : s2 = e2.ctx.session.nextOutboundSeqNum.2)
      : s1.untimed = s2.untimed := by
    rw [hs1, hs2]
    exact (h.modifySession (fun s => s.nextOutboundSeqNum.2) (fun s => rfl)).ctx.session
  cases hcases1 with
  | panicked e1' hfits1 hsends1 _ hsession1 htransport1 hlog1 =>
    cases hcases2 with
    | panicked e2' hfits2 hsends2 _ hsession2 htransport2 hlog2 =>
      apply Outcome.Rel.halt
      constructor
      . refine ⟨htransport1.trans h.ctx.left, htransport2.trans h.ctx.right,
          hsession hsession1 hsession2, ?_⟩
        rw [hlog1, hlog2, h.ctx.observed]
      . rw [hsends1.parser, hsends2.parser, h.parser]
      . rw [hsends1.sendBuf, hsends2.sendBuf, h.sendBuf]
      . rw [hsends1.shouldStop, hsends2.shouldStop, h.shouldStop]
    | failed e2' err hfits2 =>
      have := h.sendBuf
      omega
    | sent e2' k hfits2 =>
      have := h.sendBuf
      omega
  | failed e1' err hfits1 hsend => exact absurd hsend (by simp [Transport.send])
  | sent e1' k hfits1 _ hsends1 _ hlog1 hsession1 htransport1 =>
    cases hcases2 with
    | panicked e2' hfits2 =>
      have := h.sendBuf
      omega
    | failed e2' err hfits2 hsend => exact absurd hsend (by simp [Transport.send])
    | sent e2' k' hfits2 _ hsends2 _ hlog2 hsession2 htransport2 =>
      apply Outcome.Rel.next
      constructor
      . refine ⟨htransport1.trans h.ctx.left, htransport2.trans h.ctx.right,
          hsession hsession1 hsession2, ?_⟩
        rw [hlog1, hlog2, observed_append, observed_append, h.ctx.observed]
        simp [observed, Event.observable, Outbound.untimed, hnext.2]
      . rw [hsends1.parser, hsends2.parser, h.parser]
      . rw [hsends1.sendBuf, hsends2.sendBuf, h.sendBuf]
      . rw [hsends1.shouldStop, hsends2.shouldStop, h.shouldStop]

theorem sendLogon : Outcome.Rel (FixEngine.Alike t1 t2) e1.sendLogon e2.sendLogon := by
  apply (h.sendBuilt timed_logonMessage).bind
  . intro s1 s2 hs
    apply Outcome.Rel.next
    apply hs.atInstant Session.timed_onMessageSent
  . intro s1 s2 hs
    exact hs

theorem sendHeartbeat : Outcome.Rel (FixEngine.Alike t1 t2) e1.sendHeartbeat e2.sendHeartbeat := by
  apply (h.sendBuilt timed_heartbeatMessage).bind
  . intro s1 s2 hs
    apply Outcome.Rel.next
    apply hs.atInstant Session.timed_onMessageSent
  . intro s1 s2 hs
    exact hs

theorem sendLogout : Outcome.Rel (FixEngine.Alike t1 t2) e1.sendLogout e2.sendLogout := by
  apply (h.sendBuilt timed_logoutMessage).bind
  . intro s1 s2 hs
    have hmodified := hs.modifySession Session.onLogoutSent (fun s => rfl)
    apply Outcome.Rel.next
    apply hmodified.atInstant Session.timed_onMessageSent
  . intro s1 s2 hs
    exact hs

theorem endBatch : Outcome.Rel (FixEngine.Alike t1 t2) e1.endBatch e2.endBatch := by
  unfold FixEngine.endBatch
  rw [h.state]
  split
  . apply Outcome.Rel.next
    apply h.stop
  . have hsent := h.sendBuilt timed_logoutMessage
    generalize e1.sendBuilt logoutMessage = o1 at hsent
    generalize e2.sendBuilt logoutMessage = o2 at hsent
    cases hsent with
    | next hs =>
      apply Outcome.Rel.next
      apply hs.disconnect.stop
    | halt reason hs =>
      cases reason with
      | error err =>
        apply Outcome.Rel.next
        apply hs.disconnect.stop
      | panic =>
        apply Outcome.Rel.halt
        exact hs
  . apply Outcome.Rel.next
    exact h

end FixEngine.Alike

-- The same for an engine together with the application.
def FixEngine.AlikeWith (t1 t2 : Script) (p1 p2 : FixEngine Script × A) : Prop :=
  p1.1.Alike t1 t2 p2.1 ∧ p1.2 = p2.2

namespace FixEngine.Alike

variable {t1 t2 : Script} {e1 e2 : FixEngine Script} (h : e1.Alike t1 t2 e2) (app : FixApp A)
  (a : A)

include h

theorem callback (prog : AppProg (Except ErrorKind Unit × A))
    : Outcome.Rel (AlikeWith t1 t2) (e1.callback prog) (e2.callback prog) := by
  have hrun := h.ctx.run prog
  unfold FixEngine.callback
  generalize prog.run e1.ctx = r1 at hrun
  generalize prog.run e2.ctx = r2 at hrun
  rcases r1 with ⟨⟨res, a1⟩, c1⟩
  rcases r2 with ⟨⟨res2, a2⟩, c2⟩
  rcases hrun with ⟨hres, hctx⟩
  dsimp only at hres hctx
  rw [Prod.mk.injEq] at hres
  rw [← hres.1, ← hres.2]
  have hengine : FixEngine.Alike t1 t2 { e1 with ctx := c1 } { e2 with ctx := c2 } :=
    ⟨hctx, h.parser, h.sendBuf, h.shouldStop⟩
  cases res with
  | error err =>
    apply Outcome.Rel.halt
    exact ⟨hengine, rfl⟩
  | ok _ =>
    apply Outcome.Rel.next
    exact ⟨hengine, rfl⟩

theorem acceptLogon
    : Outcome.Rel (AlikeWith t1 t2) (acceptLogon app e1 a) (acceptLogon app e2 a) := by
  apply (h.record .onLogon .onLogon rfl).callback

theorem handleLogon
    : Outcome.Rel (AlikeWith t1 t2) (handleLogon app e1 a) (handleLogon app e2 a) := by
  unfold FixEngine.handleLogon
  dsimp only
  rw [h.role, h.state]
  split
  . have hconnect : FixEngine.Alike t1 t2
        (if e2.ctx.session.state = .disconnected then e1.connect else e1)
        (if e2.ctx.session.state = .disconnected then e2.connect else e2) := by
      split
      . apply h.connect
      . exact h
    apply (hconnect.atInstant Session.timed_onLogon).sendLogon.bind
    . intro s1 s2 hs
      apply hs.acceptLogon
    . intro s1 s2 hs
      exact ⟨hs, rfl⟩
  . split
    . apply (h.atInstant Session.timed_onLogon).acceptLogon
    . apply Outcome.Rel.next
      exact ⟨h, rfl⟩

theorem handleLogout
    : Outcome.Rel (AlikeWith t1 t2) (handleLogout app e1 a) (handleLogout app e2 a) := by
  have hrecord := h.record .onLogout .onLogout rfl
  unfold FixEngine.handleLogout
  dsimp only
  rw [hrecord.state]
  cases app.onLogout a with
  | mk res a =>
    cases res with
    | error err =>
      apply Outcome.Rel.halt
      exact ⟨hrecord, rfl⟩
    | ok _ =>
      have hsent : Outcome.Rel (FixEngine.Alike t1 t2)
          (if (e2.record .onLogout).ctx.session.state ≠ .logoutSent then
            (e1.record .onLogout).sendLogout
          else
            .next (e1.record .onLogout))
          (if (e2.record .onLogout).ctx.session.state ≠ .logoutSent then
            (e2.record .onLogout).sendLogout
          else
            .next (e2.record .onLogout)) := by
        split
        . apply hrecord.sendLogout
        . apply Outcome.Rel.next hrecord
      apply hsent.bind
      . intro s1 s2 hs
        apply Outcome.Rel.next
        exact ⟨hs.disconnect.stop, rfl⟩
      . intro s1 s2 hs
        exact ⟨hs, rfl⟩

theorem dispatch (view : MessageView) (expected : UInt64)
    : Outcome.Rel (AlikeWith t1 t2) (dispatch app e1 a view expected)
        (dispatch app e2 a view expected) := by
  have hsame : Outcome.Rel (AlikeWith t1 t2) (.next (e1, a)) (.next (e2, a)) := .next ⟨h, rfl⟩
  unfold FixEngine.dispatch
  split
  . exact hsame
  . split
    . apply h.handleLogon
    . split
      . exact hsame
      . split
        . apply h.sendHeartbeat.bind
          . intro s1 s2 hs
            apply Outcome.Rel.next
            exact ⟨hs, rfl⟩
          . intro s1 s2 hs
            exact ⟨hs, rfl⟩
        . split
          . apply h.handleLogout
          . apply (h.record _ _ rfl).callback

theorem validateSeq (view : MessageView)
    : (e1.validateSeq view).Alike t1 t2 (e2.validateSeq view) := by
  unfold FixEngine.validateSeq
  split
  . apply h.atInstant (Session.timed_validateInboundSeq _)
  . exact h

theorem processMessage (frame : Bytes)
    : Outcome.Rel (AlikeWith t1 t2) (processMessage app e1 a frame)
        (processMessage app e2 a frame) := by
  unfold FixEngine.processMessage
  rw [h.parser, Session.expectedInboundSeqNum, Session.expectedInboundSeqNum,
    Session.inboundSeqNum_congr h.ctx.session]
  split
  . apply Outcome.Rel.next
    exact ⟨h, rfl⟩
  . apply ((h.atInstant Session.timed_onMessageReceived).validateSeq _).dispatch

end FixEngine.Alike

theorem FixEngine.Alike.refl (e : FixEngine Script)
    : e.Alike e.ctx.transport e.ctx.transport e :=
  ⟨⟨rfl, rfl, rfl, rfl⟩, rfl, rfl, rfl⟩

theorem inbound_script : Inbound (fun t : Script => some t.reads.flatten) where
  send := fun _ _ => rfl
  recv := by
    intro t t' n data hrecv
    refine ⟨t'.reads.flatten, ?_, rfl⟩
    congr 1
    cases t with
    | mk reads =>
      cases reads with
      | nil => exact nomatch congrArg Prod.fst hrecv
      | cons chunk reads =>
        by_cases hlen : chunk.length ≤ n
        . simp only [Transport.recv, hlen, if_true] at hrecv
          injection hrecv with hdata ht
          injection hdata with hdata
          rw [← hdata, ← ht]
          rfl
        . simp only [Transport.recv, hlen, if_false] at hrecv
          injection hrecv with hdata ht
          injection hdata with hdata
          rw [← hdata, ← ht]
          simp only [List.flatten_cons]
          rw [← List.append_assoc, List.take_append_drop]
  recv_error := by
    intro t t' n err hrecv
    cases t with
    | mk reads =>
      cases reads with
      | nil =>
        injection hrecv with _ ht
        rw [ht]
      | cons chunk reads =>
        by_cases hlen : chunk.length ≤ n
        . simp [Transport.recv, hlen] at hrecv
        . simp [Transport.recv, hlen] at hrecv
  close := fun _ => .inr rfl

-- The engine is about to receive the rest of `stream`.
def FixEngine.Streaming (stream : Bytes) (e : FixEngine Script) : Prop :=
  received e.ctx.log ++ e.ctx.transport.reads.flatten = stream

theorem runOf_streaming (app : FixApp A) (a : A) (reads : List Bytes) (session : Session)
    (clock : Clock) (n : Nat)
    : (runOf app a (Script.mk reads) session clock .runAcceptor n).engine.Streaming
        reads.flatten := by
  have hstarted := start_started a (Script.mk reads) session clock .runAcceptor
  have hstreams : FixEngine.Streams (fun t : Script => some t.reads.flatten) reads.flatten
      (Entry.runAcceptor.start (.new (Script.mk reads) session clock) a).engine := by
    refine ⟨List.nil_prefix, ?_⟩
    intro bytes hbytes
    exact (Option.some.inj hbytes).symm
  have hrun := inbound_script.runFor app hstarted.parser hstarted.sendBuf hstreams n
  exact hrun.rest _ rfl

end Velocitas
