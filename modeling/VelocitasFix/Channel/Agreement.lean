import VelocitasFix.Channel.Impl
import VelocitasFix.Engine.Conveyance
import VelocitasFix.Engine.Inbound

/-!
This module contains the proof that two engines on a fresh channel agree: in every interleaving each
application gets the first messages that the other one sent, and no session ever sees a gap.
-/

namespace Velocitas

variable {A B : Type}

-- What `me` sent is what the other side has consumed and then what is still in the queue.
def Queued (me peer : UInt64) (consumed : List Bytes) (t : AeronTransport) (msgs : List Outbound)
    : Prop :=
  t.endpointId = me
    ∧ ∃ bus, t.bus = some bus ∧ bus.Between me peer
      ∧ msgs.map Outbound.bytes = consumed ++ bus.sentBy me

namespace Queued

variable {me peer : UInt64} {consumed : List Bytes}

theorem send (t : AeronTransport) (msgs : List Outbound) (o : Outbound)
    (h : Queued me peer consumed t msgs)
    : Queued me peer consumed (Transport.send t o.bytes).2 (msgs ++ [o]) := by
  obtain ⟨hid, bus, hbus, hbetween, hsent⟩ := h
  change Queued me peer consumed (t.send o.bytes).2 _
  unfold AeronTransport.send
  rw [hbus]
  refine ⟨hid, ⟨bus.frames ++ [⟨t.endpointId, o.bytes⟩]⟩, rfl, ?_, ?_⟩
  . intro frame hmem
    rw [List.mem_append, List.mem_singleton] at hmem
    cases hmem with
    | inl hmem => exact hbetween frame hmem
    | inr hnew =>
      rw [hnew]
      exact .inl hid
  . rw [hid, AeronBus.sentBy_push, ← List.append_assoc, ← hsent, List.map_append,
      List.map_singleton]

theorem recv (t : AeronTransport) (n : Nat) (msgs : List Outbound)
    (h : Queued me peer consumed t msgs)
    : Queued me peer consumed (Transport.recv t n).2 msgs := by
  obtain ⟨hid, bus, hbus, hbetween, hsent⟩ := h
  have hreads := AeronTransport.reads_of_bus hbus n
  generalize Transport.recv t n = res at hreads
  cases hreads with
  | empty => exact ⟨hid, bus, hbus, hbetween, hsent⟩
  | taken payload payloads bus' hinbox hinbox' hsentBy hframes =>
    refine ⟨hid, bus', rfl, fun frame hmem => hbetween frame (hframes frame hmem), ?_⟩
    rw [hid] at hsentBy
    rw [hsentBy]
    exact hsent

theorem close (t : AeronTransport) (msgs : List Outbound) (h : Queued me peer consumed t msgs)
    : Queued me peer consumed (Transport.close t).2 msgs :=
  h

end Queued

namespace AeronTransport

def pending (t : AeronTransport) : List Bytes :=
  match t.bus with
  | none => []
  | some bus => bus.inbox t.endpointId

theorem pending_of_bus {t : AeronTransport} {bus : AeronBus} (h : t.bus = some bus)
    : t.pending = bus.inbox t.endpointId := by
  unfold pending
  rw [h]

theorem pending_send (t : AeronTransport) (data : Bytes)
    : (Transport.send t data).2.pending = t.pending := by
  change (t.send data).2.pending = t.pending
  unfold send
  cases hbus : t.bus with
  | none => rfl
  | some bus =>
    rw [pending_of_bus hbus]
    exact AeronBus.inbox_push t.endpointId data

end AeronTransport

-- The messages of `ms` were received one at a time, and the others are pending.
def Consumes (ms pending : List Bytes) (received : Bytes) : Prop :=
  ∃ consumed, ms = consumed ++ pending ∧ received = consumed.flatten

theorem Consumes.isPrefix {ms pending : List Bytes} {received : Bytes}
    (h : Consumes ms pending received)
    : received <+: ms.flatten := by
  obtain ⟨consumed, rfl, rfl⟩ := h
  rw [List.flatten_append]
  exact List.prefix_append _ _

theorem Consumes.take {payload : Bytes} {ms payloads : List Bytes} {received : Bytes}
    (h : Consumes ms (payload :: payloads) received)
    : payload ∈ ms ∧ Consumes ms payloads (received ++ payload) := by
  obtain ⟨consumed, rfl, rfl⟩ := h
  constructor
  . simp
  . refine ⟨consumed ++ [payload], ?_, ?_⟩
    . rw [List.append_assoc, List.singleton_append]
    . rw [List.flatten_append, List.flatten_singleton]

theorem Consumes.receive {ms : List Bytes} (hle : ∀ m ∈ ms, m.length ≤ 8192)
    (e : FixEngine AeronTransport) (a : A)
    (h : Consumes ms e.ctx.transport.pending (received e.ctx.log))
    : Consumes ms (RunState.receive e a).engine.ctx.transport.pending
        (received (RunState.receive e a).engine.ctx.log) := by
  unfold RunState.receive
  cases hbus : e.ctx.transport.bus with
  | none =>
    have hrecv : Transport.recv e.ctx.transport 8192
        = (.error .notConnected, e.ctx.transport) := by
      change e.ctx.transport.recv 8192 = _
      simp only [AeronTransport.recv, hbus]
    rw [hrecv]
    dsimp only
    rw [if_neg (by simp)]
    exact h
  | some bus =>
    have hreads := AeronTransport.reads_of_bus hbus 8192
    generalize Transport.recv e.ctx.transport 8192 = res at hreads
    cases hreads with
    | empty =>
      dsimp only
      rw [if_pos List.length_nil]
      exact h
    | taken payload payloads bus' hinbox hinbox' =>
      rw [AeronTransport.pending_of_bus hbus, hinbox] at h
      obtain ⟨hmem, hconsumes⟩ := h.take
      rw [if_neg (Nat.not_lt.mpr (hle payload hmem))]
      dsimp only
      split
      . next hempty =>
        rw [List.length_eq_zero_iff.mp hempty, List.append_nil] at hconsumes
        change Consumes ms (bus'.inbox e.ctx.transport.endpointId) (received e.ctx.log)
        rw [hinbox']
        exact hconsumes
      . change Consumes ms (bus'.inbox e.ctx.transport.endpointId)
          (received (e.ctx.log ++ [.received payload]))
        have hlog : received (e.ctx.log ++ [.received payload]) = received e.ctx.log ++ payload := by
          rw [received_append]
          simp [received, Event.chunk]
        rw [hinbox', hlog]
        exact hconsumes

theorem Consumes.step {ms : List Bytes} (hle : ∀ m ∈ ms, m.length ≤ 8192) (app : FixApp A)
    {s : RunState AeronTransport A} (hparser : s.engine.parser = .new)
    (hlen : s.engine.sendBuf.length = 4096)
    (h : Consumes ms s.engine.ctx.transport.pending (received s.engine.ctx.log))
    : Consumes ms (s.step app).engine.ctx.transport.pending
        (received (s.step app).engine.ctx.log) :=
  RunState.step_inbound AeronTransport.pending_send (Consumes.receive hle) (fun _ _ h => h) app
    hparser hlen h

-- One side of the conversation: `consumed` is what the other side has received of what it sent.
structure Party.Sound (config : SessionConfig) (me peer : UInt64) (consumed : List Bytes)
    (p : Party A) : Prop where
  parser : p.state.engine.parser = .new
  sendBuf : p.state.engine.sendBuf.length = 4096
  conveyed : Conveyed config (Queued me peer consumed) p.ctx
  heard : Heard p.state
  fresh : p.started = false → ∃ (transport : AeronTransport) (now : Instant) (clock : Clock),
    p.state.engine = .new transport (.new config now) clock

def Party.sent (p : Party A) : List Bytes := (sentOf p.ctx.log).map Outbound.bytes

namespace Party

variable {config : SessionConfig} {me peer : UInt64} {consumed ms : List Bytes} {p : Party A}

theorem Sound.exists_bus (h : p.Sound config me peer consumed)
    : p.ctx.transport.endpointId = me
        ∧ ∃ bus, p.bus = some bus ∧ bus.Between me peer ∧ p.sent = consumed ++ bus.sentBy me :=
  h.conveyed.queued

theorem Sound.pending_eq (h : p.Sound config me peer consumed) (hne : me ≠ peer)
    {bus : AeronBus} (hbus : p.bus = some bus)
    : p.ctx.transport.pending = bus.sentBy peer := by
  obtain ⟨hid, bus', hbus', hbetween, -⟩ := h.exists_bus
  rw [hbus, Option.some.injEq] at hbus'
  rw [← hbus'] at hbetween
  rw [AeronTransport.pending_of_bus hbus, hid]
  exact hbetween.symm.inbox_eq hne.symm

theorem Sound.share (h : p.Sound config me peer consumed) {bus : AeronBus}
    (hbetween : bus.Between me peer) {consumed' : List Bytes}
    (hsent : p.sent = consumed' ++ bus.sentBy me)
    : (p.share (some bus)).Sound config me peer consumed' where
  parser := h.parser
  sendBuf := h.sendBuf
  conveyed := by
    have hreliable : Reliable (p.share (some bus)).ctx.transport :=
      AeronTransport.reliable_of_isSome rfl
    refine ⟨⟨hreliable, ?_, ?_, ?_, ?_⟩, h.conveyed.ofApp, ?_⟩
    . exact h.conveyed.config_eq
    . exact h.conveyed.outbound
    . exact h.conveyed.numbers
    . exact h.conveyed.built
    . exact ⟨h.exists_bus.1, bus, rfl, hbetween, hsent⟩
  heard := ⟨h.heard.framed, ⟨h.heard.counting.inbound, h.heard.counting.state⟩, h.heard.delivered⟩
  fresh := by
    intro hfresh
    obtain ⟨transport, now, clock, hnew⟩ := h.fresh hfresh
    refine ⟨{ transport with bus := some bus }, now, clock, ?_⟩
    simp only [Party.share, hnew, FixEngine.new]

section Advance

variable (app : FixApp A) (hfits : config.Fits) (happ : app.Conveys AeronTransport)

include hfits happ

theorem Sound.start (entry : Entry) (h : p.Sound config me peer consumed)
    (hfresh : p.started = false) (hstream : Consumes ms p.ctx.transport.pending (received p.ctx.log))
    : Sound config me peer consumed ⟨true, entry.start p.state.engine p.state.app⟩
        ∧ Consumes ms (entry.start p.state.engine p.state.app).engine.ctx.transport.pending
          (received (entry.start p.state.engine p.state.app).engine.ctx.log) := by
  obtain ⟨transport, now, clock, hnew⟩ := h.fresh hfresh
  have hstarted := start_started p.state.app transport (.new config now) clock entry
  rw [← hnew] at hstarted
  have hconveyed : Conveyed config (Queued me peer consumed)
      (entry.start p.state.engine p.state.app).engine.ctx := by
    rw [entry.start_engine]
    exact (Conveyed.preserved Queued.send hfits happ).start entry.call _ h.sendBuf h.conveyed
  have hpending : (entry.start p.state.engine p.state.app).engine.ctx.transport.pending
      = p.ctx.transport.pending := by
    rw [entry.start_engine]
    exact (@preserved_pending _ _ _ _ AeronTransport.pending AeronTransport.pending_send app _).start
      entry.call p.state.app h.sendBuf rfl
  have hreceived : received p.ctx.log = [] := by
    change received p.state.engine.ctx.log = []
    rw [hnew]
    rfl
  refine ⟨⟨hstarted.parser, hstarted.sendBuf, hconveyed, hstarted.heard, ?_⟩, ?_⟩
  . intro hnot
    contradiction
  . rw [hpending, hstarted.taken_log.2, ← hreceived]
    exact hstream

theorem Sound.step (hms : Legible ms) (h : p.Sound config me peer consumed)
    (hstarted : p.started = true) (hstream : Consumes ms p.ctx.transport.pending (received p.ctx.log))
    : Sound config me peer consumed { p with state := p.state.step app }
        ∧ Consumes ms (p.state.step app).engine.ctx.transport.pending
          (received (p.state.step app).engine.ctx.log) := by
  have hconsumes := hstream.step hms.length_le app h.parser h.sendBuf
  refine ⟨?_, hconsumes⟩
  have hfields := p.state.step_fields app h.parser
  constructor
  . exact hfields.1.trans h.parser
  . exact hfields.2.trans h.sendBuf
  . exact (Conveyed.preserved Queued.send hfits happ).step
      (Conveyed.passive Queued.recv Queued.close) h.parser h.sendBuf h.conveyed
  . exact h.heard.step hms app h.parser hconsumes.isPrefix
  . intro hnot
    change p.started = false at hnot
    rw [hstarted] at hnot
    contradiction

theorem Sound.advance (entry : Entry) (hms : Legible ms) (h : p.Sound config me peer consumed)
    (hstream : Consumes ms p.ctx.transport.pending (received p.ctx.log))
    : (p.advance entry app).Sound config me peer consumed
        ∧ Consumes ms (p.advance entry app).ctx.transport.pending
          (received (p.advance entry app).ctx.log) := by
  unfold Party.advance
  split
  . next hstarted => exact h.step app hfits happ hms hstarted hstream
  . next hstarted => exact h.start app hfits happ entry (by simpa using hstarted) hstream

end Advance

end Party

-- Both sides at once: `heard` and `heard'` are what the first and the second one have received.
structure Joined (config config' : SessionConfig) (x y : UInt64) (heard heard' : List Bytes)
    (p : Party A) (q : Party B) : Prop where
  first : p.Sound config x y heard'
  second : q.Sound config' y x heard
  bus : p.bus = q.bus
  received_first : received p.ctx.log = heard.flatten
  received_second : received q.ctx.log = heard'.flatten

namespace Joined

variable {config config' : SessionConfig} {x y : UInt64} {heard heard' : List Bytes}
  {p : Party A} {q : Party B}

theorem symm (h : Joined config config' x y heard heard' p q)
    : Joined config' config y x heard' heard q p :=
  ⟨h.second, h.first, h.bus.symm, h.received_second, h.received_first⟩

variable (hne : x ≠ y)

include hne

theorem consumes (h : Joined config config' x y heard heard' p q)
    : Consumes q.sent p.ctx.transport.pending (received p.ctx.log) := by
  obtain ⟨-, bus, hbus, -, hsent⟩ := h.second.exists_bus
  rw [← h.bus] at hbus
  refine ⟨heard, ?_, h.received_first⟩
  rw [h.first.pending_eq hne hbus]
  exact hsent

variable (hsoh' : config'.SohFree) (hfits' : config'.Fits)

include hsoh' hfits'

-- A move of one side, after which the other side sees what it did to the queue.
theorem advance (app : FixApp A) (hfits : config.Fits) (happ : app.Conveys AeronTransport)
    (entry : Entry) (h : Joined config config' x y heard heard' p q)
    : ∃ heard1, Joined config config' x y heard1 heard' (p.advance entry app)
        (q.share (p.advance entry app).bus) := by
  have hms : Legible q.sent := h.second.conveyed.legible hsoh' hfits'
  obtain ⟨hsound, heard1, hsent1, hreceived1⟩ :=
    h.first.advance app hfits happ entry hms (h.consumes hne)
  obtain ⟨-, bus1, hbus1, hbetween1, -⟩ := hsound.exists_bus
  rw [hsound.pending_eq hne hbus1] at hsent1
  rw [hbus1]
  exact ⟨heard1, hsound, h.second.share hbetween1.symm hsent1, hbus1, hreceived1,
    h.received_second⟩

theorem agree (h : Joined config config' x y heard heard' p q)
    : delivered p.ctx.log <+: sentByApp q.ctx.log ∧ p.ctx.session.state ≠ .resending := by
  have hms : Legible q.sent := h.second.conveyed.legible hsoh' hfits'
  have hpre := h.first.heard.delivered_isPrefix hms (h.consumes hne).isPrefix
  rw [Party.sent, h.second.conveyed.filter_sent hsoh' hfits'] at hpre
  exact ⟨hpre, h.first.heard.counting.state⟩

end Joined

theorem Party.Sound.new {config : SessionConfig} {me peer : UInt64} (now : Instant) (clock : Clock)
    (a : A)
    : (Party.new ((AeronTransport.new me).connect ⟨[]⟩) (.new config now) clock a).Sound config me
        peer [] where
  parser := rfl
  sendBuf := List.length_replicate
  conveyed := by
    have hreliable := AeronTransport.reliable_of_isSome
      (t := (AeronTransport.new me).connect ⟨[]⟩) rfl
    refine ⟨⟨hreliable, rfl, rfl, rfl, ?_⟩, ?_, rfl, ⟨[]⟩, rfl, ?_, rfl⟩
    . intro m hm
      exact absurd hm List.not_mem_nil
    . intro data hdata
      exact absurd hdata List.not_mem_nil
    . intro frame hmem
      exact absurd hmem List.not_mem_nil
  heard := by
    have hheard := (start_started a ((AeronTransport.new me).connect ⟨[]⟩) (.new config now) clock
      .runAcceptor).heard
    exact ⟨hheard.framed, ⟨hheard.counting.inbound, hheard.counting.state⟩, hheard.delivered⟩
  fresh := fun _ => ⟨_, now, clock, rfl⟩

namespace Channel

section Runs

variable (initiatorApp : FixApp A) (acceptorApp : FixApp B)
  (hinitiator : initiatorApp.Conveys AeronTransport)
  (hacceptor : acceptorApp.Conveys AeronTransport)
  {x y : UInt64} (hne : x ≠ y) {config config' : SessionConfig}
  (hsoh : config.SohFree) (hsoh' : config'.SohFree) (hfits : config.Fits) (hfits' : config'.Fits)

include hinitiator hacceptor hne hsoh hsoh' hfits hfits'

theorem step_joined {heard heard' : List Bytes} {c : Channel A B} (move : Move)
    (h : Joined config config' x y heard heard' c.initiator c.acceptor)
    : ∃ heard1 heard1', Joined config config' x y heard1 heard1'
        (c.step initiatorApp acceptorApp move).initiator
        (c.step initiatorApp acceptorApp move).acceptor := by
  cases move with
  | initiator =>
    obtain ⟨heard1, hjoined⟩ :=
      h.advance hne hsoh' hfits' initiatorApp hfits hinitiator .runInitiator
    exact ⟨heard1, heard', hjoined⟩
  | acceptor =>
    obtain ⟨heard1', hjoined⟩ :=
      h.symm.advance hne.symm hsoh hfits acceptorApp hfits' hacceptor .runAcceptor
    exact ⟨heard, heard1', hjoined.symm⟩

theorem run_joined {heard heard' : List Bytes} {c : Channel A B} (moves : List Move)
    (h : Joined config config' x y heard heard' c.initiator c.acceptor)
    : ∃ heard1 heard1', Joined config config' x y heard1 heard1'
        (c.run initiatorApp acceptorApp moves).initiator
        (c.run initiatorApp acceptorApp moves).acceptor := by
  induction moves generalizing c heard heard' with
  | nil => exact ⟨heard, heard', h⟩
  | cons move moves ih =>
    obtain ⟨heard1, heard1', hjoined⟩ := step_joined initiatorApp acceptorApp hinitiator hacceptor
      hne hsoh hsoh' hfits hfits' move h
    exact ih hjoined

end Runs

def initiatorConfig : SessionConfig :=
  { SessionConfig.default with
    senderCompId := ascii "PEER"
    targetCompId := ascii "ENGINE" }

theorem conveys_orderApp : orderApp.Conveys AeronTransport := by
  intro a ctx _
  have hconveyable (seqNum : UInt64) : (orderMessage seqNum).Conveyable seqNum := by
    refine ⟨readable_orderMessage seqNum, ?_, ?_⟩
    . change ascii "D" ∉ [MsgType.logon, MsgType.heartbeat, MsgType.testRequest, MsgType.logout]
      decide
    . have := length_orderMessage_le seqNum
      omega
  exact ⟨⟨⟨_, rfl, hconveyable _⟩, trivial⟩, fun _ _ => trivial⟩

theorem conveys_silentApp : silentApp.Conveys AeronTransport :=
  fun _ _ _ => ⟨trivial, fun _ _ => trivial⟩

end Channel

end Velocitas
