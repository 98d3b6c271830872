import VelocitasFix.Engine.Alike
import VelocitasFix.Engine.Recovery

/-!
This module contains the two ways in which an acceptor takes up a session: the loop reads the Logon
itself, or the server has read it and the engine is told to answer it. Only the first one counts the
Logon, so that only there a conforming counterparty never causes a gap.
-/

namespace Velocitas

open FixParser (framer)

variable {T A : Type}

-- A Logon with number 1 and then well-formed messages, none of them a Logout, with the next numbers.
structure Conforming (ms : List Bytes) : Prop where
  frames : ∀ m ∈ ms, framer.IsFrame m
  logon : ∃ m rest, ms = m :: rest ∧ IsLogonFrame m
  numbers : Numbered 1 ms

def Entry.acceptor (preRead : Bool) : Entry :=
  if preRead then .handleInboundLogon else .runAcceptor

-- The messages of the stream that the server reads before the loop is entered.
def preReads (preRead : Bool) : Nat := if preRead then 1 else 0

def ingested (preRead : Bool) (log : List Event) : Nat := preReads preRead + (taken log).length

theorem numbered_of_append {seq : UInt64} {frames frames' : List Bytes}
    (h : Numbered seq (frames ++ frames'))
    : Numbered seq frames := by
  induction frames generalizing seq with
  | nil => trivial
  | cons f frames ih => exact ⟨h.1, ih h.2⟩

theorem FixEngine.Handled.state_ne_resending {view : MessageView} {expected : UInt64}
    {e e' : FixEngine T} {left : Prop} {evs : List Event} (h : Handled view expected e e' left evs)
    (hstate : e.ctx.session.state ≠ .resending)
    : e'.ctx.session.state ≠ .resending := by
  have hof {state : SessionState} (hafter : state = e.ctx.session.state ∨ state = .logoutSent)
      : state ≠ .resending := by
    cases hafter with
    | inl hsame =>
      rw [hsame]
      exact hstate
    | inr hlogout => simp [hlogout]
  cases h with
  | ignored heq =>
    rw [heq]
    exact hstate
  | logonFailed _ _ _ _ _ hactive => simp [hactive]
  | logon _ _ _ _ _ _ hafter =>
    cases hafter with
    | inl hactive => simp [hactive]
    | inr hlogout => simp [hlogout]
  | testRequest _ _ _ _ hsame => exact hof (.inl hsame)
  | logoutFailed _ _ _ hsame => exact hof (.inl hsame)
  | logout _ _ _ _ hdisconnected => simp [hdisconnected]
  | message _ _ _ _ _ _ hafter => exact hof hafter

-- While the messages of the stream come in order, each of them has the expected number.
structure Counting (frames : List Bytes) (s : RunState T A) : Prop where
  inbound : s.engine.ctx.session.inboundSeqNum = 1 + UInt64.ofNat frames.length
  state : s.engine.ctx.session.state ≠ .resending

theorem RunState.Idle.counting {s s' : RunState T A} {evs : List Event} (h : s.Idle s' evs)
    {frames : List Bytes} (hs : Counting frames s)
    : Counting frames s' := by
  constructor
  . rw [h.inbound, hs.inbound]
  . cases h.state with
    | inl hsame =>
      rw [hsame]
      exact hs.state
    | inr hdisconnected => simp [hdisconnected.1]

theorem RunState.Took.counting {s s' : RunState T A} {frame : Bytes} {evs : List Event}
    (h : s.Took s' frame evs) {frames : List Bytes} (hs : Counting frames s) {view : MessageView}
    (hview : accepted frame = some view)
    (hseq : view.msgSeqNum = some (1 + UInt64.ofNat frames.length))
    : Counting (frames ++ [frame]) s' := by
  rw [← hs.inbound] at hseq
  rcases h.handled_expected hview hseq with ⟨e, hstate, -, hinbound, hhandled⟩
  constructor
  . rw [hinbound, hs.inbound, List.length_append, List.length_singleton, UInt64.ofNat_add,
      UInt64.add_assoc]
    rfl
  . apply hhandled.state_ne_resending
    rw [hstate]
    exact hs.state

section Runs

variable [Transport T] (app : FixApp A) (a : A) (transport : T) (config : SessionConfig)
  (now : Instant) (clock : Clock)

theorem run_counting {ms : List Bytes} (hms : Conforming ms) (n : Nat)
    (hstream : received (runOf app a transport (.new config now) clock .runAcceptor n).engine.ctx.log
      <+: ms.flatten)
    : Counting (taken (runOf app a transport (.new config now) clock .runAcceptor n).engine.ctx.log)
        (runOf app a transport (.new config now) clock .runAcceptor n) := by
  have hpre := taken_isPrefix app a transport (.new config now) clock .runAcceptor n hstream
  have hframes := framer.frames_flatten hms.frames []
  rw [List.append_nil] at hframes
  rw [hframes, framer.frames_of_cut_none rfl, List.append_nil] at hpre
  have hstarted := start_started a transport (.new config now) clock .runAcceptor
  let I (frames : List Bytes) (s : RunState T A) : Prop := frames <+: ms → Counting frames s
  have hhistory : ∃ frames,
      taken (runOf app a transport (.new config now) clock .runAcceptor n).engine.ctx.log
          = taken (Entry.runAcceptor.start (.new transport (.new config now) clock) a).engine.ctx.log
            ++ frames
        ∧ I frames (runOf app a transport (.new config now) clock .runAcceptor n) := by
    apply runFor_history app hstarted.parser
    . intro _
      constructor
      . exact hstarted.inbound
      . rw [hstarted.state]
        simp [Entry.state, Session.new]
    . intro s s' frames evs hstep hs hframes
      exact hstep.counting (hs hframes)
    . intro s s' frames frame evs hstep hs hframes
      have hbefore := (List.prefix_append frames [frame]).trans hframes
      rcases hframes with ⟨rest, hrest⟩
      have hnumbers := hms.numbers
      rw [← hrest] at hnumbers
      rcases (numbered_concat.mp (numbered_of_append hnumbers)).2 with ⟨view, hview, -, hseq⟩
      exact hstep.counting (hs hbefore) hview hseq
  rcases hhistory with ⟨frames, htaken, hcounting⟩
  rw [hstarted.taken_log.1, List.nil_append] at htaken
  rw [htaken] at hpre ⊢
  exact hcounting hpre

-- A Logon that the server has read is not counted.
theorem start_not_counting
    : (runOf app a transport (.new config now) clock (.acceptor true)
          0).engine.ctx.session.expectedInboundSeqNum
        ≠ UInt64.ofNat (ingested true (runOf app a transport (.new config now) clock (.acceptor true)
            0).engine.ctx.log + 1) := by
  have hstarted := start_started a transport (.new config now) clock .handleInboundLogon
  change (Entry.start .handleInboundLogon _ a).engine.ctx.session.inboundSeqNum
    ≠ UInt64.ofNat (1 + (taken (Entry.start .handleInboundLogon _ a).engine.ctx.log).length + 1)
  rw [hstarted.inbound, hstarted.taken_log.1]
  have hone : (1 : UInt64) ≠ 2 := by decide
  exact hone

-- The loop counts what the counterparty sends exactly if it reads the Logon itself.
theorem acceptor_counts_iff {ms : List Bytes} (hms : Conforming ms) (preRead : Bool)
    (hstream : ∀ n, received (runOf app a transport (.new config now) clock (.acceptor preRead)
      n).engine.ctx.log <+: (ms.drop (preReads preRead)).flatten)
    : (∀ n,
        (runOf app a transport (.new config now) clock (.acceptor preRead)
            n).engine.ctx.session.state ≠ .resending
          ∧ (runOf app a transport (.new config now) clock (.acceptor preRead)
              n).engine.ctx.session.expectedInboundSeqNum
            = UInt64.ofNat (ingested preRead (runOf app a transport (.new config now) clock
                (.acceptor preRead) n).engine.ctx.log + 1))
        ↔
      preRead = false := by
  cases preRead with
  | true =>
    apply iff_of_false
    . intro hall
      exact start_not_counting app a transport config now clock (hall 0).2
    . simp
  | false =>
    apply iff_of_true _ rfl
    intro n
    have hcounting := run_counting app a transport config now clock hms n (hstream n)
    refine ⟨hcounting.state, ?_⟩
    apply hcounting.inbound.trans
    rw [ingested, UInt64.ofNat_add, UInt64.add_comm 1]
    simp [preReads, Entry.acceptor]

end Runs

theorem conforming_logon_order : Conforming [logonFrame 1, orderFrame 2] := by
  have hlogon := peerFrame_logon 1
  have horder := peerFrame_order 2
  refine ⟨?_, ⟨_, _, rfl, ?_⟩, ?_⟩
  . simp [hlogon.isFrame, horder.isFrame]
  . rcases hlogon.exists_view with ⟨view, hview, htype, -⟩
    exact ⟨view, hview, htype⟩
  . exact ⟨hlogon.isNumbered (by decide), horder.isNumbered (by decide), trivial⟩

theorem acceptor_counts_logon_order
    : (∀ n,
        (runOf silentApp () (Script.mk [[logonFrame 1, orderFrame 2].flatten])
            (.new acceptorConfig 0) stoppedClock (.acceptor false) n).engine.ctx.session.state
          ≠ .resending
          ∧ (runOf silentApp () (Script.mk [[logonFrame 1, orderFrame 2].flatten])
              (.new acceptorConfig 0) stoppedClock (.acceptor false)
              n).engine.ctx.session.expectedInboundSeqNum
            = UInt64.ofNat (ingested false (runOf silentApp ()
                (Script.mk [[logonFrame 1, orderFrame 2].flatten]) (.new acceptorConfig 0)
                stoppedClock (.acceptor false) n).engine.ctx.log + 1))
        ↔
      false = false := by
  apply acceptor_counts_iff silentApp () (Script.mk [[logonFrame 1, orderFrame 2].flatten])
    acceptorConfig 0 stoppedClock conforming_logon_order false
  intro n
  have hstream := runOf_streaming silentApp () [[logonFrame 1, orderFrame 2].flatten]
    (.new acceptorConfig 0) stoppedClock n
  refine ⟨_, hstream.trans ?_⟩
  rw [List.flatten_singleton]
  rfl

-- The server has read the Logon and the engine has answered it, but 1 is still expected.
theorem not_acceptor_counts
    : ¬ ∀ n,
        (runOf silentApp () (Script.mk [orderFrame 2]) (.new acceptorConfig 0) stoppedClock
            (.acceptor true) n).engine.ctx.session.state
          ≠ .resending
          ∧ (runOf silentApp () (Script.mk [orderFrame 2]) (.new acceptorConfig 0) stoppedClock
              (.acceptor true) n).engine.ctx.session.expectedInboundSeqNum
            = UInt64.ofNat (ingested true (runOf silentApp () (Script.mk [orderFrame 2])
                (.new acceptorConfig 0) stoppedClock (.acceptor true) n).engine.ctx.log + 1) := by
  intro hall
  exact start_not_counting silentApp () _ acceptorConfig 0 stoppedClock (hall 0).2

end Velocitas
