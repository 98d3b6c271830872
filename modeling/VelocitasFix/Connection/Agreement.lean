import VelocitasFix.Connection.Impl
import VelocitasFix.Engine.Speech
import VelocitasFix.Transport.Socket

/-!
This module contains the proof that a client and an acceptor on one TCP connection agree, whatever
the network does: in every interleaving each application gets the first messages that the other one
sent, and it gets all of them once nothing is on its way any more.
-/

namespace Velocitas

open FixParser (framer)

variable {A B : Type}

namespace TcpEnd

theorem inbox_writeAll (s : TcpEnd) (data : Bytes) : (s.writeAll data).2.inbox = s.inbox := by
  unfold writeAll
  split
  . rfl
  . split
    . rfl
    . rfl

theorem inbox_read {s s' : TcpEnd} {n : Nat} {data : Bytes} (h : s.read n = (.ok data, s'))
    : s.inbox = data ++ s'.inbox := by
  unfold read at h
  split at h
  . exact nomatch congrArg Prod.fst h
  . split at h
    . next hempty =>
      injection h with hdata hs
      split at hdata
      . injection hdata with hdata
        rw [← hdata, ← hs]
        rfl
      . contradiction
    . injection h with hdata hs
      injection hdata with hdata
      rw [← hdata, ← hs]
      exact (List.take_append_drop _ _).symm

theorem inbox_read_error {s s' : TcpEnd} {n : Nat} {err : ErrorKind}
    (h : s.read n = (.error err, s'))
    : s.inbox = s'.inbox := by
  unfold read at h
  split at h
  . injection h with _ hs
    rw [← hs]
    rfl
  . split at h
    . injection h with _ hs
      rw [← hs]
      rfl
    . exact nomatch congrArg Prod.fst h

-- A read leaves the outgoing side alone.
theorem read_outgoing (s : TcpEnd) (n : Nat)
    : (s.read n).2.outbox = s.outbox ∧ (s.read n).2.broken = s.broken := by
  unfold read
  split
  . exact ⟨rfl, rfl⟩
  . split
    . exact ⟨rfl, rfl⟩
    . exact ⟨rfl, rfl⟩

inductive Writes (s : TcpEnd) (data : Bytes) : Except ErrorKind Unit × TcpEnd → Prop where
  | done (s' : TcpEnd) (hbroken : s.broken = none) (hbroken' : s'.broken = none)
    (hbox : s'.outbox = s.outbox ++ data)
    : Writes s data (.ok (), s')
  | failed (e : ErrorKind) (part : Bytes) (s' : TcpEnd) (hpart : part <+: data)
    (hbroken' : s'.broken ≠ none) (hbox : s'.outbox = s.outbox ++ part)
    (hnothing : s.broken ≠ none → part = [])
    : Writes s data (.error e, s')

theorem writeAll_cases (s : TcpEnd) (data : Bytes) : s.Writes data (s.writeAll data) := by
  unfold writeAll
  split
  . next e hbroken =>
    refine .failed e [] s.tick List.nil_prefix ?_ (List.append_nil _).symm (fun _ => rfl)
    change s.broken ≠ none
    simp [hbroken]
  . next hbroken =>
    split
    . next limit e _ =>
      apply Writes.failed _ _ _ (List.take_prefix limit data) _ rfl
      . intro h
        exact absurd hbroken h
      . exact Option.some_ne_none e
    . exact .done _ hbroken hbroken rfl

end TcpEnd

namespace StdTcpTransport

def inbox (t : StdTcpTransport TcpEnd) : Option Bytes := t.stream.map TcpEnd.inbox

def outbox (t : StdTcpTransport TcpEnd) : Bytes :=
  match t.stream with
  | none => []
  | some s => s.outbox

-- The process can still write.
def Usable (t : StdTcpTransport TcpEnd) : Prop := ∃ s, t.stream = some s ∧ s.broken = none

theorem outbox_of_stream {t : StdTcpTransport TcpEnd} {s : TcpEnd} (h : t.stream = some s)
    : t.outbox = s.outbox := by
  unfold outbox
  rw [h]

theorem usable_of_stream {t : StdTcpTransport TcpEnd} {s : TcpEnd} (h : t.stream = some s)
    : t.Usable ↔ s.broken = none := by
  simp [Usable, h]

theorem not_usable_of_stream {t : StdTcpTransport TcpEnd} (h : t.stream = none) : ¬ t.Usable := by
  simp [Usable, h]

theorem inbound_tcpEnd : Inbound inbox :=
  StdTcpTransport.inbound TcpEnd.inbox_writeAll TcpEnd.inbox_read TcpEnd.inbox_read_error

-- What a send does, by what a write to the open stream does.
inductive Sends (t : StdTcpTransport TcpEnd) (data : Bytes)
    : Except ErrorKind Nat × StdTcpTransport TcpEnd → Prop where
  | closed (hstream : t.stream = none) : Sends t data (.error .notConnected, t)
  | done (t' : StdTcpTransport TcpEnd) (husable : t.Usable) (husable' : t'.Usable)
    (hbox : t'.outbox = t.outbox ++ data)
    : Sends t data (.ok data.length, t')
  | failed (e : ErrorKind) (part : Bytes) (t' : StdTcpTransport TcpEnd) (hpart : part <+: data)
    (husable' : ¬ t'.Usable) (hbox : t'.outbox = t.outbox ++ part)
    (hnothing : ¬ t.Usable → part = [])
    : Sends t data (.error e, t')

theorem send_cases (t : StdTcpTransport TcpEnd) (data : Bytes)
    : t.Sends data (Transport.send t data) := by
  change t.Sends data (t.send data)
  unfold send
  split
  . next hstream => exact .closed hstream
  . next s hstream =>
    have hcases := s.writeAll_cases data
    change s.Writes data (TcpStream.writeAll s data) at hcases
    generalize TcpStream.writeAll s data = res at hcases
    cases hcases with
    | done s' hbroken hbroken' hbox =>
      apply Sends.done
      . exact ⟨s, hstream, hbroken⟩
      . exact ⟨s', rfl, hbroken'⟩
      . rw [outbox_of_stream hstream, ← hbox]
        rfl
    | failed e part s' hpart hbroken' hbox hnothing =>
      apply Sends.failed e part _ hpart
      . rw [usable_of_stream (t := { t with stream := some s' }) rfl]
        exact hbroken'
      . rw [outbox_of_stream hstream, ← hbox]
        rfl
      . rw [usable_of_stream hstream]
        exact hnothing

theorem recv_outgoing (t : StdTcpTransport TcpEnd) (n : Nat)
    : ((t.recv n).2.Usable → t.Usable) ∧ (t.recv n).2.outbox = t.outbox := by
  unfold recv
  split
  . exact ⟨id, rfl⟩
  . next s hstream =>
    have hread := s.read_outgoing n
    have hof (s' : TcpEnd) (hs' : s'.outbox = s.outbox ∧ s'.broken = s.broken)
        : (Usable { t with stream := some s' } → t.Usable)
          ∧ outbox { t with stream := some s' } = t.outbox := by
      refine ⟨?_, hs'.1.trans (outbox_of_stream hstream).symm⟩
      rw [usable_of_stream (t := { t with stream := some s' }) rfl, hs'.2]
      exact fun h => ⟨s, hstream, h⟩
    change (TcpStream.read s n).2.outbox = _ ∧ (TcpStream.read s n).2.broken = _ at hread
    generalize TcpStream.read s n = res at hread
    rcases res with ⟨res, s'⟩
    cases res with
    | ok data => exact hof s' hread
    | error err =>
      dsimp only
      split
      . exact hof s' hread
      . exact hof s' hread

theorem outgoing_tcpEnd : Outgoing Usable outbox := by
  constructor
  case sent =>
    intro t t' data k hsend
    have hcases := t.send_cases data
    rw [hsend] at hcases
    cases hcases with
    | done _ _ husable' hbox => exact ⟨husable', hbox⟩
  case failed =>
    intro t t' data err hsend
    have hcases := t.send_cases data
    rw [hsend] at hcases
    cases hcases with
    | closed hstream =>
      exact ⟨not_usable_of_stream hstream, [], List.nil_prefix, (List.append_nil _).symm⟩
    | failed _ part _ hpart husable' hbox => exact ⟨husable', part, hpart, hbox⟩
  case unusable =>
    intro t t' data res husable hsend
    have hcases := t.send_cases data
    rw [hsend] at hcases
    cases hcases with
    | closed => exact ⟨husable, rfl⟩
    | done _ husable'' => exact absurd husable'' husable
    | failed _ part _ _ husable' hbox hnothing =>
      rw [hnothing husable, List.append_nil] at hbox
      exact ⟨husable', hbox⟩
  case received => exact recv_outgoing
  case closed =>
    intro t
    exact ⟨not_usable_of_stream rfl, List.nil_prefix⟩

end StdTcpTransport

-- More bytes arrive behind those that are to be read.
theorem Continues.arrive {stream received : Bytes} {pending : Option Bytes}
    (h : Continues stream pending received) (data : Bytes)
    : Continues (stream ++ data) (pending.map (· ++ data)) received where
  isPrefix := h.isPrefix.trans (List.prefix_append _ _)
  rest := by
    intro bytes hbytes
    obtain ⟨bytes', hpending, rfl⟩ := Option.map_eq_some_iff.mp hbytes
    rw [← List.append_assoc, h.rest bytes' hpending]

-- The transport passes on what is in its outbox.
theorem Speaks.pass {T : Type} {config : SessionConfig} {usable : T → Prop} {outbox : T → Bytes}
    {gone gone' : Bytes} {ctx : EngineContext T} (h : Speaks config usable outbox gone ctx) {t : T}
    (hbytes : gone' ++ outbox t = gone ++ outbox ctx.transport)
    (husable : usable t → usable ctx.transport)
    : Speaks config usable outbox gone' { ctx with transport := t } where
  config_eq := h.config_eq
  exists_speaking := by
    obtain ⟨msgs, hspeaking⟩ := h.exists_speaking
    refine ⟨msgs, hspeaking.speech, hspeaking.isPrefix, ?_, ?_⟩
    . rw [hbytes]
      exact hspeaking.bytes
    . intro ht
      rw [hbytes]
      exact hspeaking.whole (husable ht)

namespace Peer

open StdTcpTransport

variable {config : SessionConfig} {gone arrived : Bytes} {ms : List Bytes} {p : Peer A}

-- One side of the connection: `gone` is all that has left its outbox so far.
structure Sound (config : SessionConfig) (gone : Bytes) (p : Peer A) : Prop where
  parser : p.state.engine.parser = .new
  sendBuf : p.state.engine.sendBuf.length = 4096
  speaks : Speaks config Usable StdTcpTransport.outbox gone p.ctx
  heard : Heard p.state
  fresh : p.started = false → ∃ (transport : StdTcpTransport TcpEnd) (now : Instant)
    (clock : Clock), p.state.engine = .new transport (.new config now) clock

-- `arrived` is all that has come to this side so far.
def Streams (arrived : Bytes) (p : Peer A) : Prop := p.state.engine.Streams inbox arrived

theorem outbox_mapStream (f : TcpEnd → TcpEnd) (p : Peer A)
    : StdTcpTransport.outbox (p.mapStream f).ctx.transport
        = match p.stream with
          | none => []
          | some s => (f s).outbox := by
  change (match p.stream.map f with | none => [] | some s => s.outbox) = _
  cases p.stream with
  | none => rfl
  | some s => rfl

theorem outbox_eq (p : Peer A) : p.outbox = StdTcpTransport.outbox p.ctx.transport := rfl

theorem Sound.mapStream (h : p.Sound config gone) {f : TcpEnd → TcpEnd} {gone' : Bytes}
    (hbytes : gone' ++ (p.mapStream f).outbox = gone ++ p.outbox)
    (hbroken : ∀ s, (f s).broken = s.broken)
    : (p.mapStream f).Sound config gone' where
  parser := h.parser
  sendBuf := h.sendBuf
  speaks := by
    apply h.speaks.pass hbytes
    rintro ⟨s, hs, hnot⟩
    obtain ⟨s', hs', rfl⟩ := Option.map_eq_some_iff.mp hs
    rw [hbroken] at hnot
    exact ⟨s', hs', hnot⟩
  heard :=
    ⟨h.heard.framed, ⟨h.heard.counting.inbound, h.heard.counting.state⟩, h.heard.delivered⟩
  fresh := by
    intro hfresh
    obtain ⟨transport, now, clock, hnew⟩ := h.fresh hfresh
    refine ⟨{ transport with stream := transport.stream.map f }, now, clock, ?_⟩
    simp only [Peer.mapStream, hnew, stream, ctx, FixEngine.new]

section Advance

variable (app : FixApp A) (hfits : config.Fits)
  (happ : app.Converses (StdTcpTransport TcpEnd) config)

include hfits happ

theorem Sound.start (entry : Entry) (h : p.Sound config gone) (hfresh : p.started = false)
    (hstream : p.Streams arrived)
    : Sound config gone ⟨true, entry.start p.state.engine p.state.app⟩
        ∧ Streams arrived ⟨true, entry.start p.state.engine p.state.app⟩ := by
  obtain ⟨transport, now, clock, hnew⟩ := h.fresh hfresh
  have hstarted := start_started p.state.app transport (.new config now) clock entry
  rw [← hnew] at hstarted
  have hspeaks : Speaks config Usable StdTcpTransport.outbox gone
      (entry.start p.state.engine p.state.app).engine.ctx := by
    rw [entry.start_engine]
    exact (Speaks.preserved outgoing_tcpEnd hfits happ).start entry.call _ h.sendBuf h.speaks
  have hinbox : inbox (entry.start p.state.engine p.state.app).engine.ctx.transport
      = inbox p.ctx.transport := by
    rw [entry.start_engine]
    exact (@preserved_pending _ _ _ _ inbox inbound_tcpEnd.send app _).start entry.call p.state.app
      h.sendBuf rfl
  have hreceived : received p.ctx.log = [] := by
    change received p.state.engine.ctx.log = []
    rw [hnew]
    rfl
  refine ⟨⟨hstarted.parser, hstarted.sendBuf, hspeaks, hstarted.heard, ?_⟩, ?_⟩
  . intro hnot
    contradiction
  . change Continues _ (inbox (entry.start p.state.engine p.state.app).engine.ctx.transport)
      (received (entry.start p.state.engine p.state.app).engine.ctx.log)
    rw [hinbox, hstarted.taken_log.2, ← hreceived]
    exact hstream

theorem Sound.step (hms : Legible ms) (hheard : arrived <+: ms.flatten) (h : p.Sound config gone)
    (hstarted : p.started = true) (hstream : p.Streams arrived)
    : Sound config gone { p with state := p.state.step app }
        ∧ Streams arrived { p with state := p.state.step app } := by
  have hstreams := inbound_tcpEnd.step app h.parser h.sendBuf hstream
  refine ⟨?_, hstreams⟩
  have hfields := p.state.step_fields app h.parser
  constructor
  . exact hfields.1.trans h.parser
  . exact hfields.2.trans h.sendBuf
  . change Speaks config Usable StdTcpTransport.outbox gone (p.state.step app).engine.ctx
    rw [← (app.same_onParsed p.state.app).step h.parser]
    exact (Speaks.preserved outgoing_tcpEnd hfits happ).step (Speaks.passive outgoing_tcpEnd)
      h.parser h.sendBuf h.speaks
  . exact h.heard.step hms app h.parser (hstreams.isPrefix.trans hheard)
  . intro hnot
    change p.started = false at hnot
    rw [hstarted] at hnot
    contradiction

theorem Sound.advance (entry : Entry) (hms : Legible ms) (hheard : arrived <+: ms.flatten)
    (h : p.Sound config gone) (hstream : p.Streams arrived)
    : (p.advance entry app).Sound config gone ∧ (p.advance entry app).Streams arrived := by
  unfold Peer.advance
  split
  . next hstarted => exact h.step app hfits happ hms hheard hstarted hstream
  . next hstarted => exact h.start app hfits happ entry (by simpa using hstarted) hstream

end Advance

theorem Streams.mapStream (h : p.Streams arrived) {f : TcpEnd → TcpEnd} (data : Bytes)
    (hinbox : ∀ s, (f s).inbox = s.inbox ++ data)
    : (p.mapStream f).Streams (arrived ++ data) := by
  have harrive := Continues.arrive h data
  change Continues _ ((p.stream.map TcpEnd.inbox).map (· ++ data)) _ at harrive
  change Continues _ ((p.stream.map f).map TcpEnd.inbox) _
  rw [Option.map_map] at harrive ⊢
  have hsame : TcpEnd.inbox ∘ f = (· ++ data) ∘ TcpEnd.inbox := funext hinbox
  rw [hsame]
  exact harrive

theorem Streams.keep (h : p.Streams arrived) {f : TcpEnd → TcpEnd}
    (hinbox : ∀ s, (f s).inbox = s.inbox)
    : (p.mapStream f).Streams arrived := by
  have hkept := h.mapStream (f := f) [] fun s => (hinbox s).trans (List.append_nil _).symm
  rw [List.append_nil] at hkept
  exact hkept

theorem outbox_keep {f : TcpEnd → TcpEnd} (hbox : ∀ s, (f s).outbox = s.outbox)
    : (p.mapStream f).outbox = p.outbox := by
  rw [outbox_eq, outbox_mapStream]
  unfold Peer.outbox
  cases p.stream with
  | none => rfl
  | some s => exact hbox s

theorem outbox_flush (p : Peer A) : (p.mapStream .flush).outbox = [] := by
  rw [outbox_eq, outbox_mapStream]
  split
  . rfl
  . rfl

-- What has left this side are the first bytes of messages that the other side can read.
theorem Sound.exists_speech (h : p.Sound config gone)
    : ∃ msgs, Speech config msgs ∧ msgs <+: sentOf p.ctx.log
        ∧ gone <+: (msgs.map Outbound.bytes).flatten := by
  obtain ⟨msgs, hspeaking⟩ := h.speaks.exists_speaking
  exact ⟨msgs, hspeaking.speech, hspeaking.isPrefix,
    (List.prefix_append _ _).trans hspeaking.bytes⟩

end Peer

-- Both sides at once: what has arrived at each of them, and what is on the way to it.
structure Linked (config config' : SessionConfig) (arrived arrived' toFirst toSecond : Bytes)
    (p : Peer A) (q : Peer B) : Prop where
  first : p.Sound config (arrived' ++ toSecond)
  second : q.Sound config' (arrived ++ toFirst)
  first_stream : p.Streams arrived
  second_stream : q.Streams arrived'
  first_flushed : p.outbox = []
  second_flushed : q.outbox = []

namespace Linked

open StdTcpTransport

variable {config config' : SessionConfig} {arrived arrived' toFirst toSecond : Bytes}
  {p : Peer A} {q : Peer B}

theorem symm (h : Linked config config' arrived arrived' toFirst toSecond p q)
    : Linked config' config arrived' arrived toSecond toFirst q p :=
  ⟨h.second, h.first, h.second_stream, h.first_stream, h.second_flushed, h.first_flushed⟩

theorem finish (h : Linked config config' arrived arrived' toFirst toSecond p q)
    : Linked config config' arrived arrived' toFirst toSecond p (q.mapStream .finish) := by
  have hbox : (q.mapStream .finish).outbox = q.outbox := Peer.outbox_keep fun _ => rfl
  refine ⟨h.first, h.second.mapStream ?_ fun _ => rfl, h.first_stream,
    h.second_stream.keep fun _ => rfl, h.first_flushed, hbox.trans h.second_flushed⟩
  rw [hbox]

theorem arrive (h : Linked config config' arrived arrived' toFirst toSecond p q) (n : Nat)
    : Linked config config' arrived (arrived' ++ toSecond.take n) toFirst (toSecond.drop n) p
        (q.mapStream (TcpEnd.arrive · (toSecond.take n))) := by
  have hbox : (q.mapStream (TcpEnd.arrive · (toSecond.take n))).outbox = q.outbox :=
    Peer.outbox_keep fun _ => rfl
  refine ⟨?_, h.second.mapStream ?_ fun _ => rfl, h.first_stream,
    h.second_stream.mapStream _ fun _ => rfl, h.first_flushed, hbox.trans h.second_flushed⟩
  . rw [List.append_assoc, List.take_append_drop]
    exact h.first
  . rw [hbox]

variable (hsoh' : config'.SohFree) (hfits' : config'.Fits)

include hsoh' hfits'

-- A process runs, and the network takes over what it wrote.
theorem advance (app : FixApp A) (hfits : config.Fits)
    (happ : app.Converses (StdTcpTransport TcpEnd) config) (entry : Entry)
    (h : Linked config config' arrived arrived' toFirst toSecond p q)
    : Linked config config' arrived arrived' toFirst (toSecond ++ (p.advance entry app).outbox)
        ((p.advance entry app).mapStream .flush) q := by
  obtain ⟨msgs, hspeech, -, hgone⟩ := h.second.exists_speech
  have hms : Legible (msgs.map Outbound.bytes) := hspeech.legible hsoh' hfits'
  have hheard := (List.prefix_append arrived toFirst).trans hgone
  obtain ⟨hsound, hstream⟩ := h.first.advance app hfits happ entry hms hheard h.first_stream
  refine ⟨hsound.mapStream ?_ fun _ => rfl, h.second, hstream.keep fun _ => rfl, h.second_stream,
    Peer.outbox_flush _, h.second_flushed⟩
  rw [Peer.outbox_flush, List.append_nil, List.append_assoc]

theorem agree (h : Linked config config' arrived arrived' toFirst toSecond p q)
    : delivered p.ctx.log <+: sentByApp q.ctx.log ∧ p.ctx.session.state ≠ .resending := by
  obtain ⟨msgs, hspeech, hsent, hgone⟩ := h.second.exists_speech
  have hms : Legible (msgs.map Outbound.bytes) := hspeech.legible hsoh' hfits'
  have hheard := (List.prefix_append arrived toFirst).trans hgone
  have hpre := h.first.heard.delivered_isPrefix hms (h.first_stream.isPrefix.trans hheard)
  rw [hspeech.filter_eq hsoh' hfits'] at hpre
  exact ⟨hpre.trans (hsent.filterMap _), h.first.heard.counting.state⟩

-- The other side could write all it sent, and everything has come and was processed.
theorem complete (h : Linked config config' arrived arrived' [] toSecond p q)
    (husable : q.ctx.transport.Usable) (hinbox : inbox p.ctx.transport = some [])
    (hbatch : p.state.engine.recv.takeFrame = none)
    : delivered p.ctx.log = sentByApp q.ctx.log := by
  obtain ⟨msgs, hspeaking⟩ := h.second.speaks.exists_speaking
  obtain ⟨hall, hbytes, -⟩ := hspeaking.whole husable
  have hms : Legible (msgs.map Outbound.bytes) := hspeaking.speech.legible hsoh' hfits'
  have hbox : outbox q.ctx.transport = [] := h.second_flushed
  have hreceived : received p.ctx.log = (msgs.map Outbound.bytes).flatten := by
    rw [← hbytes, hbox, List.append_nil, List.append_nil, ← h.first_stream.rest [] hinbox,
      List.append_nil]
    rfl
  have htaken : taken p.ctx.log = msgs.map Outbound.bytes := by
    have hframed := h.first.heard.framed
    have hcut := RecvBuffer.takeFrame_eq_none.mp hbatch
    have hframes := framer.frames_flatten hms.frames []
    have hnil : framer.frames [] = ([], []) := framer.frames_of_cut_none rfl
    unfold RunState.Framed at hframed
    change framer.frames (received p.ctx.log) = _ at hframed
    rw [hnil, List.append_nil, List.append_nil] at hframes
    rw [hreceived, hframes, framer.frames_of_cut_none hcut] at hframed
    injection hframed with hfirst _
    rw [List.append_nil] at hfirst
    exact hfirst.symm
  have hdelivered : delivered p.ctx.log = (taken p.ctx.log).filter (IsApplicationFrame ·) :=
    h.first.heard.delivered
  rw [hdelivered, htaken, hspeaking.speech.filter_eq hsoh' hfits', hall]
  rfl

end Linked

theorem Peer.Sound.new {config : SessionConfig} (fates : Nat → Fate) (now : Instant)
    (clock : Clock) (a : A)
    : (Peer.new (.new ⟨some (TcpEnd.new fates), true, .kernelTcp⟩ (.new config now) clock)
        a).Sound config [] where
  parser := rfl
  sendBuf := List.length_replicate
  speaks := ⟨rfl, [], .nil, List.nil_prefix, List.nil_prefix, fun _ => ⟨rfl, rfl, rfl⟩⟩
  heard := by
    have hheard := (start_started a
      (StdTcpTransport.mk (some (TcpEnd.new fates)) true .kernelTcp) (.new config now) clock
      .runAcceptor).heard
    exact ⟨hheard.framed, ⟨hheard.counting.inbound, hheard.counting.state⟩, hheard.delivered⟩
  fresh := fun _ => ⟨_, now, clock, rfl⟩

namespace Connection

open StdTcpTransport

section Runs

variable (clientApp : FixApp A) (serverApp : FixApp B)
  {config : FixClientConfig} {config' : SessionConfig}
  (hclient : clientApp.Converses (StdTcpTransport TcpEnd) config.sessionConfig)
  (hserver : serverApp.Converses (StdTcpTransport TcpEnd) config')
  (hsoh : config.sessionConfig.SohFree) (hsoh' : config'.SohFree)
  (hfits : config.sessionConfig.Fits) (hfits' : config'.Fits)

-- What has arrived at either side links the two.
def Sound (config : FixClientConfig) (config' : SessionConfig) (c : Connection A B) : Prop :=
  ∃ arrived arrived', Linked config.sessionConfig config' arrived arrived' c.toClient c.toServer
    c.client c.server

include hsoh hsoh' hfits hfits'

theorem Sound.agree {c : Connection A B} (h : c.Sound config config')
    : delivered c.server.ctx.log <+: sentByApp c.client.ctx.log
        ∧ delivered c.client.ctx.log <+: sentByApp c.server.ctx.log
        ∧ c.client.ctx.session.state ≠ .resending
        ∧ c.server.ctx.session.state ≠ .resending := by
  obtain ⟨arrived, arrived', hlinked⟩ := h
  have hagree := hlinked.agree hsoh' hfits'
  have hagree' := hlinked.symm.agree hsoh hfits
  exact ⟨hagree'.1, hagree.1, hagree.2, hagree'.2⟩

include hclient hserver

theorem step_sound {c : Connection A B} (move : Move) (h : c.Sound config config')
    : (c.step clientApp serverApp move).Sound config config' := by
  obtain ⟨arrived, arrived', hlinked⟩ := h
  cases move with
  | client =>
    exact ⟨arrived, arrived',
      hlinked.advance hsoh' hfits' clientApp hfits hclient .runInitiator⟩
  | server =>
    exact ⟨arrived, arrived',
      (hlinked.symm.advance hsoh hfits serverApp hfits' hserver .runAcceptor).symm⟩
  | arriveAtServer n => exact ⟨arrived, _, hlinked.arrive n⟩
  | arriveAtClient n => exact ⟨_, arrived', (hlinked.symm.arrive n).symm⟩
  | finishServer =>
    unfold step
    dsimp only
    split
    . exact ⟨arrived, arrived', hlinked.finish⟩
    . exact ⟨arrived, arrived', hlinked⟩
  | finishClient =>
    unfold step
    dsimp only
    split
    . exact ⟨arrived, arrived', hlinked.symm.finish.symm⟩
    . exact ⟨arrived, arrived', hlinked⟩

theorem run_sound {c : Connection A B} (moves : List Move) (h : c.Sound config config')
    : (c.run clientApp serverApp moves).Sound config config' := by
  induction moves generalizing c with
  | nil => exact h
  | cons move moves ih =>
    exact ih (step_sound clientApp serverApp hclient hserver hsoh hsoh' hfits hfits' move h)

variable (fates fates' : Nat → Fate) (now now' : Instant) (clock clock' : Clock) (a : A) (b : B)

theorem exists_established
    : ∃ c : Connection A B,
        establish config config' fates fates' now now' clock clock' a b = .ok c
          ∧ ∀ moves, (c.run clientApp serverApp moves).Sound config config' := by
  refine ⟨_, rfl, ?_⟩
  intro moves
  apply run_sound clientApp serverApp hclient hserver hsoh hsoh' hfits hfits' moves
  exact ⟨[], [], .new fates now clock a, .new fates' now' clock' b,
    ⟨List.nil_prefix, fun _ hbytes => (Option.some.inj hbytes).symm⟩,
    ⟨List.nil_prefix, fun _ hbytes => (Option.some.inj hbytes).symm⟩, rfl, rfl⟩

end Runs

def clientConfig : FixClientConfig :=
  { FixClientConfig.default with
    senderCompId := ascii "PEER"
    targetCompId := ascii "ENGINE" }

theorem converses_orderApp (config : SessionConfig)
    : orderApp.Converses (StdTcpTransport TcpEnd) config := by
  intro a ctx _
  have hconveyable (seqNum : UInt64) : (orderMessage seqNum).Conveyable seqNum := by
    refine ⟨readable_orderMessage seqNum, ?_, ?_⟩
    . change ascii "D" ∉ [MsgType.logon, MsgType.heartbeat, MsgType.testRequest, MsgType.logout]
      decide
    . have := length_orderMessage_le seqNum
      omega
  exact ⟨⟨⟨_, rfl, hconveyable _⟩, trivial⟩, fun _ _ _ => trivial⟩

theorem converses_silentApp (config : SessionConfig)
    : silentApp.Converses (StdTcpTransport TcpEnd) config :=
  fun _ _ _ => ⟨trivial, fun _ _ _ => trivial⟩

end Connection

end Velocitas
