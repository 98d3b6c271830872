import VelocitasFix.Engine.Acceptor
import VelocitasFix.Engine.Delivery
import VelocitasFix.Engine.Numbering

/-!
This module contains what an engine contributes to a conversation of two: all it sends are messages
that the other side can read, numbered 1, 2, 3 and so on, and as long as it takes such messages, it
delivers the ones of the other application and expects the number of the next one.
-/

namespace Velocitas

open FixParser (framer)

variable {T A : Type}

-- A message of an application that the other side can receive with one read.
structure OutMessage.Conveyable (m : OutMessage) (seqNum : UInt64) : Prop
    extends m.Readable seqNum where
  application : m.msgType ∉ [MsgType.logon, MsgType.heartbeat, MsgType.testRequest, MsgType.logout]
  length_le_read : m.bytes.length ≤ 8192

-- Everything the program sends is such a message with the number that it finds when it sends it.
def AppProg.Conveys [Transport T] {α : Type} : AppProg α → EngineContext T → Prop
  | .done _, _ => True
  | .sendRaw data next, ctx =>
    (∃ m : OutMessage, data = m.bytes ∧ m.Conveyable ctx.session.currentOutboundSeqNum)
      ∧ (next (ctx.sendRaw data).1).Conveys (ctx.sendRaw data).2
  | .session next, ctx => (next ctx.session.view).Conveys ctx
  | .requestStop next, ctx => next.Conveys ctx.requestStop

def FixApp.Conveys (T : Type) [Transport T] (app : FixApp A) : Prop :=
  ∀ (a : A) (ctx : EngineContext T), Reliable ctx.transport →
    (app.onLogon a).Conveys ctx
      ∧ ∀ (msgType : Bytes) (view : MessageView), (app.onMessage a msgType view).Conveys ctx

-- The messages of the application, as they were handed to the transport.
def Outbound.ofApp : Outbound → Option Bytes
  | .built _ => none
  | .raw data => some data

def sentByApp (log : List Event) : List Bytes := (sentOf log).filterMap Outbound.ofApp

def delivered (log : List Event) : List Bytes :=
  (log.filterMap Event.delivered).map MessageView.buffer

instance (view : MessageView) : Decidable view.IsApplication :=
  inferInstanceAs (Decidable (∃ msgType, msgType ∈ view.msgType
    ∧ msgType ∉ [MsgType.logon, MsgType.heartbeat, MsgType.testRequest, MsgType.logout]))

instance : DecidablePred IsApplicationFrame := fun frame =>
  inferInstanceAs (Decidable (∃ view, view ∈ accepted frame ∧ view.IsApplication))

theorem buffer_of_accepted {frame : Bytes} {view : MessageView} (h : accepted frame = some view)
    : view.buffer = frame := by
  unfold accepted at h
  split at h
  . next view' n hparse =>
    rw [Option.some.injEq] at h
    rw [← h]
    exact FixParser.buffer_of_parse hparse
  . contradiction

theorem isApplicationFrame_iff {frame : Bytes} {view : MessageView}
    (h : accepted frame = some view)
    : IsApplicationFrame frame ↔ view.IsApplication := by
  simp [IsApplicationFrame, h]

theorem OutMessage.Readable.isApplicationFrame_iff {m : OutMessage} {seqNum : UInt64}
    (h : m.Readable seqNum)
    : IsApplicationFrame m.bytes
        ↔ m.msgType ∉ [MsgType.logon, MsgType.heartbeat, MsgType.testRequest, MsgType.logout] := by
  obtain ⟨view, hparse, -, htype, -⟩ := h.parse
  have hview : accepted m.bytes = some view := by rw [accepted, hparse]
  rw [Velocitas.isApplicationFrame_iff hview, MessageView.IsApplication]
  simp [htype]

theorem OutMessage.Readable.isFrame {m : OutMessage} {seqNum : UInt64} (h : m.Readable seqNum)
    : framer.IsFrame m.bytes :=
  h.boundary

-- Messages that the other side can take from the stream and that count up from 1.
structure Legible (ms : List Bytes) : Prop where
  frames : ∀ m ∈ ms, framer.IsFrame m
  length_le : ∀ m ∈ ms, m.length ≤ 8192
  numbers : ms.map wireSeqNum = countingUp ms.length

section Sending

variable [Transport T]

-- `Q` is what connects the transport with the messages handed to it.
structure Conveyed (config : SessionConfig) (Q : T → List Outbound → Prop) (ctx : EngineContext T)
    : Prop extends Contiguous config ctx where
  ofApp : ∀ data, .raw data ∈ sentOf ctx.log →
    ∃ (m : OutMessage) (seqNum : UInt64), data = m.bytes ∧ m.Conveyable seqNum
  queued : Q ctx.transport (sentOf ctx.log)

namespace Conveyed

variable {config : SessionConfig} {Q : T → List Outbound → Prop}

theorem quiet {ctx ctx' : EngineContext T} (h : Conveyed config Q ctx) (hquiet : ctx.Quiet ctx')
    : Conveyed config Q ctx' where
  toContiguous := h.toContiguous.quiet hquiet
  ofApp := by
    rw [hquiet.sent]
    exact h.ofApp
  queued := by
    rw [hquiet.sent, hquiet.transport]
    exact h.queued

variable (hsend : ∀ (t : T) (msgs : List Outbound) (o : Outbound), Q t msgs →
  Q (Transport.send t o.bytes).2 (msgs ++ [o]))

include hsend

theorem sendBuilt (hfits : config.Fits) {message : Builder} (hkind : message ∈ Preserved.allKinds)
    {e : FixEngine T} (hlen : e.sendBuf.length = 4096) (h : Conveyed config Q e.ctx)
    : Conveyed config Q (e.sendBuilt message).state.ctx := by
  have hcontiguous := h.toContiguous.sendBuilt hfits hkind hlen
  obtain ⟨e', hbuilt, hlog, -, htransport⟩ := h.exists_sendBuilt hfits hkind hlen
  rw [hbuilt] at hcontiguous ⊢
  have hsent : sentOf e'.ctx.log = sentOf e.ctx.log ++ [.built (e.nextMessage message)] := by
    rw [hlog, sentOf_append]
    rfl
  refine ⟨hcontiguous, ?_, ?_⟩
  . intro data hdata
    change _ ∈ sentOf e'.ctx.log at hdata
    rw [hsent, List.mem_append, List.mem_singleton] at hdata
    cases hdata with
    | inl hdata => exact h.ofApp data hdata
    | inr hdata => contradiction
  . change Q e'.ctx.transport (sentOf e'.ctx.log)
    rw [hsent, htransport]
    exact hsend _ _ (.built _) h.queued

theorem sendRaw {ctx : EngineContext T} (h : Conveyed config Q ctx) {m : OutMessage}
    (hm : m.Conveyable ctx.session.currentOutboundSeqNum)
    : Conveyed config Q (ctx.sendRaw m.bytes).2 := by
  have hcontiguous := h.toContiguous.sendRaw hm.toReadable.wireSeqNum_eq
  cases h.reliable.send m.bytes with
  | intro k hk =>
    have hraw := ctx.sendRaw_of_ok hk
    have hsent : sentOf (ctx.sendRaw m.bytes).2.log = sentOf ctx.log ++ [.raw m.bytes] := by
      rw [hraw.log, sentOf_append]
      rfl
    refine ⟨hcontiguous, ?_, ?_⟩
    . intro data hdata
      rw [hsent, List.mem_append, List.mem_singleton] at hdata
      cases hdata with
      | inl hdata => exact h.ofApp data hdata
      | inr hdata =>
        injection hdata with hdata
        exact ⟨m, _, hdata, hm⟩
    . rw [hsent, hraw.transport]
      exact hsend _ _ (.raw _) h.queued

theorem run {α : Type} {prog : AppProg α} {ctx : EngineContext T} (h : Conveyed config Q ctx)
    (hprog : prog.Conveys ctx)
    : Conveyed config Q (prog.run ctx).2 := by
  induction prog generalizing ctx with
  | done result => exact h
  | sendRaw data next ih =>
    obtain ⟨⟨m, rfl, hm⟩, hnext⟩ := hprog
    exact ih _ (h.sendRaw hsend hm) hnext
  | session next ih => exact ih _ h hprog
  | requestStop next ih => exact ih (h.quiet ⟨rfl, rfl, rfl, rfl⟩) hprog

theorem preserved {app : FixApp A} (hfits : config.Fits) (happ : app.Conveys T)
    : Preserved app Preserved.allKinds (Conveyed config Q) where
  quiet := fun hquiet h => h.quiet hquiet
  built := fun _ hkind _ hlen h => h.sendBuilt hsend hfits hkind hlen
  onLogon := fun a ctx h => h.run hsend (happ a ctx h.reliable).1
  onMessage := fun a msgType view ctx h => h.run hsend ((happ a ctx h.reliable).2 msgType view)

omit hsend

theorem passive (hrecv : ∀ (t : T) (n : Nat) (msgs : List Outbound), Q t msgs →
      Q (Transport.recv t n).2 msgs)
    (hclose : ∀ (t : T) (msgs : List Outbound), Q t msgs → Q (Transport.close t).2 msgs)
    : Preserved.Passive (Conveyed config Q) where
  received := fun ctx n h =>
    ⟨Contiguous.passive.received ctx n h.toContiguous, h.ofApp, hrecv _ _ _ h.queued⟩
  closed := fun ctx h =>
    ⟨Contiguous.passive.closed ctx h.toContiguous, h.ofApp, hclose _ _ h.queued⟩

variable (hsoh : config.SohFree) (hfits : config.Fits) {ctx : EngineContext T}
  (h : Conveyed config Q ctx)

include hsoh hfits h

-- Whoever built it, a message that was sent can be read, and the receiver sees whose it is.
theorem exists_readable {o : Outbound} (ho : o ∈ sentOf ctx.log)
    : ∃ (m : OutMessage) (seqNum : UInt64), o.bytes = m.bytes ∧ m.Readable seqNum
        ∧ m.bytes.length ≤ 8192
        ∧ (IsApplicationFrame m.bytes → o.ofApp = some m.bytes)
        ∧ (¬ IsApplicationFrame m.bytes → o.ofApp = none) := by
  cases o with
  | raw data =>
    obtain ⟨m, seqNum, rfl, hm⟩ := h.ofApp data ho
    have happ := hm.toReadable.isApplicationFrame_iff.mpr hm.application
    exact ⟨m, seqNum, rfl, hm.toReadable, hm.length_le_read, fun _ => rfl, fun h => absurd happ h⟩
  | built m =>
    obtain ⟨seqNum, hreadable, -, hlength, htype⟩ := h.toContiguous.exists_readable hsoh hfits ho
    have hnot : ¬ IsApplicationFrame m.bytes := by
      rw [hreadable.isApplicationFrame_iff]
      exact not_not_intro htype
    exact ⟨m, seqNum, rfl, hreadable, by omega, fun h => absurd h hnot, fun _ => rfl⟩

theorem legible : Legible ((sentOf ctx.log).map Outbound.bytes) where
  frames := by
    intro data hdata
    obtain ⟨o, ho, rfl⟩ := List.mem_map.mp hdata
    obtain ⟨m, _, hbytes, hreadable, -⟩ := h.exists_readable hsoh hfits ho
    rw [hbytes]
    exact hreadable.isFrame
  length_le := by
    intro data hdata
    obtain ⟨o, ho, rfl⟩ := List.mem_map.mp hdata
    obtain ⟨m, _, hbytes, -, hlength, -⟩ := h.exists_readable hsoh hfits ho
    rw [hbytes]
    exact hlength
  numbers := by
    rw [List.map_map, List.length_map]
    exact h.toContiguous.wireNumbers hsoh hfits

theorem filter_sent
    : ((sentOf ctx.log).map Outbound.bytes).filter (IsApplicationFrame ·) = sentByApp ctx.log := by
  have hreadable (o : Outbound) (ho : o ∈ sentOf ctx.log) := h.exists_readable hsoh hfits ho
  unfold sentByApp
  generalize sentOf ctx.log = msgs at hreadable
  induction msgs with
  | nil => rfl
  | cons o msgs ih =>
    rw [List.map_cons]
    have htail := ih fun o ho => hreadable o (List.mem_cons_of_mem _ ho)
    obtain ⟨m, _, hbytes, -, -, happ, hnot⟩ := hreadable o List.mem_cons_self
    rw [hbytes]
    by_cases hframe : IsApplicationFrame m.bytes
    . rw [List.filter_cons_of_pos (by simpa using hframe), htail,
        List.filterMap_cons_some (happ hframe)]
    . rw [List.filter_cons_of_neg (by simpa using hframe), htail,
        List.filterMap_cons_none (hnot hframe)]

end Conveyed

end Sending

section Hearing

-- Every message taken so far had the expected number, and those of an application were delivered.
structure Heard (s : RunState T A) : Prop where
  framed : s.Framed
  counting : Counting (taken s.engine.ctx.log) s
  delivered : delivered s.engine.ctx.log = (taken s.engine.ctx.log).filter (IsApplicationFrame ·)

theorem delivered_append (log log' : List Event)
    : delivered (log ++ log') = delivered log ++ delivered log' := by
  simp [delivered]

theorem RunState.Idle.heard {s s' : RunState T A} {evs : List Event} (h : s.Idle s' evs)
    (hs : Heard s)
    : Heard s' := by
  have htaken := h.taken_eq
  have hnone : delivered evs = [] := by
    rw [delivered, delivered_eq_nil (not_onMessage_of_isIdle h.events), List.map_nil]
  refine ⟨h.framed hs.framed, ?_, ?_⟩
  . rw [htaken]
    exact h.counting hs.counting
  . rw [htaken, h.log, delivered_append, hnone, List.append_nil]
    exact hs.delivered

theorem RunState.Took.delivered_eq {s s' : RunState T A} {frame : Bytes} {evs : List Event}
    (h : s.Took s' frame evs) {view : MessageView} (hview : accepted frame = some view)
    : delivered s'.engine.ctx.log
        = delivered s.engine.ctx.log ++ [frame].filter (IsApplicationFrame ·) := by
  rcases h.handled view hview with ⟨e, -, -, -, hhandled⟩
  have hlog : delivered s'.engine.ctx.log
      = delivered s.engine.ctx.log ++ (evs.filterMap Event.delivered).map MessageView.buffer := by
    rw [h.log, delivered_append]
    rfl
  rw [hlog]
  by_cases happ : view.IsApplication
  . have hframe := (isApplicationFrame_iff hview).mpr happ
    rw [hhandled.delivered_of_application happ, List.map_singleton, buffer_of_accepted hview,
      List.filter_cons_of_pos (by simpa using hframe), List.filter_nil]
  . have hframe := mt (isApplicationFrame_iff hview).mp happ
    rw [hhandled.delivered_of_not happ, List.map_nil,
      List.filter_cons_of_neg (by simpa using hframe), List.filter_nil]

theorem RunState.Took.heard {s s' : RunState T A} {frame : Bytes} {evs : List Event}
    (h : s.Took s' frame evs) (hs : Heard s)
    (hnumber : wireSeqNum frame = some (1 + UInt64.ofNat (taken s.engine.ctx.log).length))
    : Heard s' := by
  obtain ⟨view, hview, hseq⟩ := Option.bind_eq_some_iff.mp hnumber
  refine ⟨h.framed hs.framed, ?_, ?_⟩
  . rw [h.taken_received.1]
    exact h.counting hs.counting hview hseq
  . rw [h.delivered_eq hview, h.taken_received.1, List.filter_append, hs.delivered]

variable {ms : List Bytes} (hms : Legible ms)

include hms

theorem Legible.taken_isPrefix {s : RunState T A} (hs : s.Framed)
    (hstream : received s.engine.ctx.log <+: ms.flatten)
    : taken s.engine.ctx.log <+: ms := by
  have hpre := hs.taken_isPrefix hstream
  have hframes := framer.frames_flatten hms.frames []
  rw [List.append_nil] at hframes
  rw [hframes, framer.frames_of_cut_none rfl, List.append_nil] at hpre
  exact hpre

theorem Legible.wireSeqNum_eq {frames : List Bytes} {frame : Bytes}
    (h : frames ++ [frame] <+: ms)
    : wireSeqNum frame = some (1 + UInt64.ofNat frames.length) := by
  obtain ⟨rest, hrest⟩ := h
  have hlength : frames.length < ms.length := by
    rw [← hrest]
    simp
  have hnumber : (ms.map wireSeqNum)[frames.length]? = some (wireSeqNum frame) := by
    rw [← hrest]
    simp
  rw [hms.numbers, countingUp, List.getElem?_map, List.getElem?_range hlength, Option.map_some,
    Option.some.injEq] at hnumber
  rw [← hnumber, UInt64.ofNat_add, UInt64.add_comm]
  rfl

variable [Transport T]

theorem Heard.step (app : FixApp A) {s : RunState T A} (hparser : s.engine.parser = .new)
    (hs : Heard s) (hstream : received (RunState.step app s).engine.ctx.log <+: ms.flatten)
    : Heard (RunState.step app s) := by
  cases RunState.step_cases app hparser with
  | inl hidle =>
    obtain ⟨evs, hidle⟩ := hidle
    exact hidle.heard hs
  | inr htook =>
    obtain ⟨frame, evs, htook⟩ := htook
    have hpre := hms.taken_isPrefix (htook.framed hs.framed) hstream
    rw [htook.taken_received.1] at hpre
    exact htook.heard hs (hms.wireSeqNum_eq hpre)

omit [Transport T] in
theorem Heard.delivered_isPrefix {s : RunState T A} (hs : Heard s)
    (hstream : received s.engine.ctx.log <+: ms.flatten)
    : Velocitas.delivered s.engine.ctx.log <+: ms.filter (IsApplicationFrame ·) := by
  rw [hs.delivered]
  exact (hms.taken_isPrefix hs.framed hstream).filter _

end Hearing

theorem Entry.Started.heard {entry : Entry} {config : SessionConfig} {now : Instant}
    {s : RunState T A} (h : entry.Started (.new config now) s)
    : Heard s := by
  have htaken := h.taken_log
  refine ⟨?_, ⟨?_, ?_⟩, ?_⟩
  . unfold RunState.Framed
    rw [htaken.1, htaken.2, h.unread]
    rfl
  . rw [htaken.1, h.inbound]
    rfl
  . rw [h.state]
    cases entry with
    | runInitiator =>
      unfold Entry.state Session.onConnected Session.new
      dsimp only
      split
      . simp
      . simp
    | runAcceptor => simp [Entry.state, Session.new]
    | handleInboundLogon => simp [Entry.state]
  . obtain ⟨msgs, hlog⟩ := h.log
    have hevents : delivered entry.events = [] := by
      cases entry
      all_goals rfl
    have hsent : delivered (msgs.map Event.sent) = [] := by
      rw [delivered, delivered_eq_nil (not_onMessage_of_isIdle RunState.isIdle_map_sent),
        List.map_nil]
    rw [htaken.1, hlog, delivered_append, hevents, hsent]
    rfl

end Velocitas
