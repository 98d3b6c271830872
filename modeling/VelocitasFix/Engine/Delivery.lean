import VelocitasFix.Engine.Script

/-!
This module contains the order in which the application receives messages. The engine hands every
application message it takes to the application, whatever its number is, so that messages are
delivered in order exactly in the runs whose stream brings them in order.
-/

namespace Velocitas

variable {T A : Type}

def Event.delivered : Event → Option MessageView
  | .onMessage _ view _ => some view
  | _ => none

def deliveredNumbers (log : List Event) : List UInt64 :=
  (log.filterMap Event.delivered).filterMap MessageView.msgSeqNum

-- Every message was handed over when the session expected its number.
def DeliveredInOrder (log : List Event) : Prop :=
  ∀ msgType view expected, .onMessage msgType view expected ∈ log → view.msgSeqNum = some expected

def expectedAfter (expected : UInt64) (frame : Bytes) : UInt64 :=
  match accepted frame with
  | none => expected
  | some view => if view.msgSeqNum = some expected then expected + 1 else expected

-- Every application message among the frames carries the number that is expected when it comes.
def InOrder : UInt64 → List Bytes → Prop
  | _, [] => True
  | expected, frame :: frames =>
    (∀ view, accepted frame = some view → view.IsApplication → view.msgSeqNum = some expected)
      ∧ InOrder (expectedAfter expected frame) frames

theorem inOrder_concat {expected : UInt64} {frames : List Bytes} {frame : Bytes}
    : InOrder expected (frames ++ [frame])
        ↔
      InOrder expected frames
        ∧ ∀ view, accepted frame = some view → view.IsApplication →
            view.msgSeqNum = some (frames.foldl expectedAfter expected) := by
  induction frames generalizing expected with
  | nil => simp [InOrder]
  | cons f frames ih =>
    simp only [List.cons_append, InOrder, ih, List.foldl_cons]
    tauto

theorem deliveredInOrder_append {log evs : List Event}
    : DeliveredInOrder (log ++ evs) ↔ DeliveredInOrder log ∧ DeliveredInOrder evs := by
  simp only [DeliveredInOrder, List.mem_append]
  constructor
  . intro h
    exact ⟨fun t v x hmem => h t v x (.inl hmem), fun t v x hmem => h t v x (.inr hmem)⟩
  . intro h t v x hmem
    rcases hmem with hmem | hmem
    . exact h.1 t v x hmem
    . exact h.2 t v x hmem

theorem deliveredNumbers_append (log evs : List Event)
    : deliveredNumbers (log ++ evs) = deliveredNumbers log ++ deliveredNumbers evs := by
  simp [deliveredNumbers]

theorem deliveredInOrder_of_isIdle {evs : List Event} (h : ∀ ev ∈ evs, ev.IsIdle)
    : DeliveredInOrder evs := by
  intro msgType view expected hmem
  exact absurd (h _ hmem) id

theorem delivered_eq_nil {evs : List Event}
    (h : ∀ msgType view expected, .onMessage msgType view expected ∉ evs)
    : evs.filterMap Event.delivered = [] := by
  rw [List.filterMap_eq_nil_iff]
  intro ev hev
  cases ev with
  | onMessage msgType view expected => exact absurd hev (h msgType view expected)
  | _ => rfl

theorem deliveredNumbers_eq_nil {evs : List Event}
    (h : ∀ msgType view expected, .onMessage msgType view expected ∉ evs)
    : deliveredNumbers evs = [] := by
  rw [deliveredNumbers, delivered_eq_nil h]
  rfl

theorem not_onMessage_of_isIdle {evs : List Event} (h : ∀ ev ∈ evs, ev.IsIdle) (msgType : Bytes)
    (view : MessageView) (expected : UInt64)
    : .onMessage msgType view expected ∉ evs :=
  fun hmem => h _ hmem

theorem FixEngine.Handled.deliveredInOrder {view : MessageView} {expected : UInt64}
    {e e' : FixEngine T} {left : Prop} {evs : List Event} (h : Handled view expected e e' left evs)
    : DeliveredInOrder evs ↔ (view.IsApplication → view.msgSeqNum = some expected) := by
  constructor
  . intro horder happ
    rcases h.exists_onMessage happ with ⟨msgType, hmem⟩
    exact horder msgType view expected hmem
  . intro hnum msgType view' expected' hmem
    rcases h.of_onMessage hmem with ⟨rfl, rfl, happ⟩
    exact hnum happ

theorem Control.expected_receive (c : Control) (view : MessageView)
    : (c.receive view).expected
        = if view.msgSeqNum = some c.expected then c.expected + 1 else c.expected := by
  unfold receive
  cases view.msgSeqNum with
  | none => rfl
  | some seq =>
    simp only [receiveSeq, Option.some.injEq]
    split
    . rfl
    . split
      . rfl
      . rfl

theorem RunState.Took.inbound {s s' : RunState T A} {frame : Bytes} {evs : List Event}
    (h : s.Took s' frame evs)
    : s'.engine.ctx.session.inboundSeqNum
        = expectedAfter s.engine.ctx.session.inboundSeqNum frame := by
  unfold expectedAfter
  cases haccepted : accepted frame with
  | none =>
    rw [(h.rejected haccepted).2.1]
  | some view =>
    rcases h.handled view haccepted with ⟨e, hcontrol, -, -, hhandled⟩
    have hexpected := congrArg Control.expected hcontrol
    rw [Control.expected_receive] at hexpected
    rw [hhandled.keeps.inbound]
    exact hexpected

-- What a run knows of its deliveries: `expected` is the number expected when it was entered.
structure Tracked (expected : UInt64) (s : RunState T A) : Prop where
  inbound : s.engine.ctx.session.inboundSeqNum
    = (taken s.engine.ctx.log).foldl expectedAfter expected
  order : DeliveredInOrder s.engine.ctx.log ↔ InOrder expected (taken s.engine.ctx.log)

theorem RunState.Idle.tracked {s s' : RunState T A} {evs : List Event} (h : s.Idle s' evs)
    {expected : UInt64} (hs : Tracked expected s)
    : Tracked expected s' := by
  have htaken := h.taken_eq
  constructor
  . rw [h.inbound, hs.inbound, htaken]
  . rw [htaken, ← hs.order, h.log, deliveredInOrder_append]
    exact and_iff_left (deliveredInOrder_of_isIdle h.events)

theorem RunState.Took.deliveredInOrder {s s' : RunState T A} {frame : Bytes} {evs : List Event}
    (h : s.Took s' frame evs)
    : DeliveredInOrder s'.engine.ctx.log
        ↔
      DeliveredInOrder s.engine.ctx.log
        ∧ ∀ view, accepted frame = some view → view.IsApplication →
            view.msgSeqNum = some s.engine.ctx.session.inboundSeqNum := by
  have htail : DeliveredInOrder (.taken frame :: evs) ↔ DeliveredInOrder evs := by
    simp [DeliveredInOrder]
  rw [h.log, deliveredInOrder_append, htail]
  apply and_congr Iff.rfl
  cases haccepted : accepted frame with
  | none =>
    rw [(h.rejected haccepted).1]
    simp [DeliveredInOrder]
  | some view =>
    rcases h.handled view haccepted with ⟨e, -, -, -, hhandled⟩
    rw [hhandled.deliveredInOrder]
    simp

theorem RunState.Took.tracked {s s' : RunState T A} {frame : Bytes} {evs : List Event}
    (h : s.Took s' frame evs) {expected : UInt64} (hs : Tracked expected s)
    : Tracked expected s' := by
  constructor
  . rw [h.inbound, hs.inbound, h.taken_received.1, List.foldl_concat]
  . rw [h.deliveredInOrder, h.taken_received.1, inOrder_concat, hs.order, hs.inbound]

theorem FixEngine.Handled.delivered_of_not {view : MessageView} {expected : UInt64}
    {e e' : FixEngine T} {left : Prop} {evs : List Event} (h : Handled view expected e e' left evs)
    (hnot : ¬ view.IsApplication)
    : evs.filterMap Event.delivered = [] := by
  apply delivered_eq_nil
  intro msgType view' expected' hmem
  exact hnot (h.of_onMessage hmem).2.2

theorem FixEngine.Handled.delivered_of_application {view : MessageView} {expected : UInt64}
    {e e' : FixEngine T} {left : Prop} {evs : List Event} (h : Handled view expected e e' left evs)
    (happ : view.IsApplication)
    : evs.filterMap Event.delivered = [view] := by
  rcases h.exists_onMessage happ with ⟨msgType, hmem⟩
  cases h with
  | message msgType' msgs =>
    have hsent : (msgs.map Event.sent).filterMap Event.delivered = [] := by
      apply delivered_eq_nil
      apply not_onMessage_of_isIdle RunState.isIdle_map_sent
    change view :: (msgs.map Event.sent).filterMap Event.delivered = [view]
    rw [hsent]
  | _ => simp at hmem

-- The deliveries of a run in order: consecutive numbers from `expected` on, none of them twice.
structure Consecutive (expected : UInt64) (s : RunState T A) : Prop where
  ge : expected ≤ s.engine.ctx.session.inboundSeqNum
  le : s.engine.ctx.session.inboundSeqNum.toNat
    ≤ expected.toNat + (taken s.engine.ctx.log).length
  lt : ∀ seq ∈ deliveredNumbers s.engine.ctx.log, seq < s.engine.ctx.session.inboundSeqNum
  pairwise : (deliveredNumbers s.engine.ctx.log).Pairwise (· < ·)
  seen : ∀ seq, expected ≤ seq → seq < s.engine.ctx.session.inboundSeqNum →
    ∃ frame ∈ taken s.engine.ctx.log, ∃ view, accepted frame = some view
      ∧ view.msgSeqNum = some seq

theorem RunState.Idle.consecutive {s s' : RunState T A} {evs : List Event} (h : s.Idle s' evs)
    {expected : UInt64} (hs : Consecutive expected s)
    : Consecutive expected s' := by
  have htaken := h.taken_eq
  have hnumbers : deliveredNumbers s'.engine.ctx.log = deliveredNumbers s.engine.ctx.log := by
    rw [h.log, deliveredNumbers_append, deliveredNumbers_eq_nil (not_onMessage_of_isIdle h.events),
      List.append_nil]
  constructor
  . rw [h.inbound]
    exact hs.ge
  . rw [h.inbound, htaken]
    exact hs.le
  . rw [h.inbound, hnumbers]
    exact hs.lt
  . rw [hnumbers]
    exact hs.pairwise
  . rw [h.inbound, htaken]
    exact hs.seen

-- A frame that does not move the expected number, and is not delivered either.
theorem Consecutive.skip {s s' : RunState T A} {frame : Bytes} {evs : List Event}
    (h : s.Took s' frame evs) {expected : UInt64} (hs : Consecutive expected s)
    (hinbound : s'.engine.ctx.session.inboundSeqNum = s.engine.ctx.session.inboundSeqNum)
    (hnumbers : deliveredNumbers s'.engine.ctx.log = deliveredNumbers s.engine.ctx.log)
    : Consecutive expected s' := by
  have hle := hs.le
  constructor
  . rw [hinbound]
    exact hs.ge
  . rw [hinbound, h.taken_received.1, List.length_append, List.length_singleton]
    omega
  . rw [hinbound, hnumbers]
    exact hs.lt
  . rw [hnumbers]
    exact hs.pairwise
  . intro seq hge hlt
    rw [hinbound] at hlt
    rcases hs.seen seq hge hlt with ⟨f, hmem, hview⟩
    rw [h.taken_received.1]
    exact ⟨f, List.mem_append_left _ hmem, hview⟩

-- A frame with the expected number, whether it is delivered or not.
theorem Consecutive.advance {s s' : RunState T A} {frame : Bytes} {evs : List Event}
    (h : s.Took s' frame evs) {expected : UInt64} (hs : Consecutive expected s) {view : MessageView}
    (hview : accepted frame = some view)
    (hseq : view.msgSeqNum = some s.engine.ctx.session.inboundSeqNum)
    (hbound : s.engine.ctx.session.inboundSeqNum.toNat + 1 < 2 ^ 64)
    (hnumbers : deliveredNumbers s'.engine.ctx.log = deliveredNumbers s.engine.ctx.log
      ∨ deliveredNumbers s'.engine.ctx.log
          = deliveredNumbers s.engine.ctx.log ++ [s.engine.ctx.session.inboundSeqNum])
    : Consecutive expected s' := by
  have hinbound : s'.engine.ctx.session.inboundSeqNum = s.engine.ctx.session.inboundSeqNum + 1 := by
    rw [h.inbound, expectedAfter, hview]
    exact if_pos hseq
  have hsucc : (s.engine.ctx.session.inboundSeqNum + 1).toNat
      = s.engine.ctx.session.inboundSeqNum.toNat + 1 := by
    rw [UInt64.toNat_add]
    exact Nat.mod_eq_of_lt hbound
  have hge := hs.ge
  have hle := hs.le
  rw [UInt64.le_iff_toNat_le] at hge
  have hltsucc (seq : UInt64) (hlt : seq < s.engine.ctx.session.inboundSeqNum)
      : seq < s.engine.ctx.session.inboundSeqNum + 1 := by
    rw [UInt64.lt_iff_toNat_lt] at hlt ⊢
    omega
  constructor
  . rw [hinbound, UInt64.le_iff_toNat_le]
    omega
  . rw [hinbound, h.taken_received.1, List.length_append, List.length_singleton]
    omega
  . rw [hinbound]
    intro seq hmem
    rcases hnumbers with hnumbers | hnumbers
    . rw [hnumbers] at hmem
      exact hltsucc seq (hs.lt seq hmem)
    . rw [hnumbers, List.mem_append, List.mem_singleton] at hmem
      rcases hmem with hmem | rfl
      . exact hltsucc seq (hs.lt seq hmem)
      . rw [UInt64.lt_iff_toNat_lt]
        omega
  . rcases hnumbers with hnumbers | hnumbers
    . rw [hnumbers]
      exact hs.pairwise
    . rw [hnumbers, List.pairwise_append]
      refine ⟨hs.pairwise, List.pairwise_singleton _ _, ?_⟩
      intro seq hmem seq' hmem'
      rw [List.mem_singleton] at hmem'
      rw [hmem']
      exact hs.lt seq hmem
  . intro seq hfrom hlt
    rw [h.taken_received.1]
    rw [hinbound, UInt64.lt_iff_toNat_lt] at hlt
    by_cases heq : seq = s.engine.ctx.session.inboundSeqNum
    . exact ⟨frame, by simp, view, hview, by rw [hseq, heq]⟩
    . have hlt' : seq < s.engine.ctx.session.inboundSeqNum := by
        rw [← UInt64.toNat_inj] at heq
        rw [UInt64.lt_iff_toNat_lt]
        omega
      rcases hs.seen seq hfrom hlt' with ⟨f, hmem, hview'⟩
      exact ⟨f, List.mem_append_left _ hmem, hview'⟩

theorem RunState.Took.consecutive {s s' : RunState T A} {frame : Bytes} {evs : List Event}
    (h : s.Took s' frame evs) {expected : UInt64} (hs : Consecutive expected s)
    (hbound : expected.toNat + (taken s'.engine.ctx.log).length < 2 ^ 64)
    (horder : ∀ view, accepted frame = some view → view.IsApplication →
      view.msgSeqNum = some s.engine.ctx.session.inboundSeqNum)
    : Consecutive expected s' := by
  have hinbound := h.inbound
  have htail : deliveredNumbers (.taken frame :: evs) = deliveredNumbers evs := rfl
  have hlog : deliveredNumbers s'.engine.ctx.log
      = deliveredNumbers s.engine.ctx.log ++ deliveredNumbers evs := by
    rw [h.log, deliveredNumbers_append, htail]
  cases hview : accepted frame with
  | none =>
    rw [expectedAfter, hview] at hinbound
    rw [(h.rejected hview).1] at hlog
    exact hs.skip h hinbound (hlog.trans (List.append_nil _))
  | some view =>
    rcases h.handled view hview with ⟨e, -, -, -, hhandled⟩
    have hnumbers : deliveredNumbers evs
        = (evs.filterMap Event.delivered).filterMap MessageView.msgSeqNum := rfl
    have hnot (hnot : ¬ view.IsApplication)
        : deliveredNumbers s'.engine.ctx.log = deliveredNumbers s.engine.ctx.log := by
      rw [hlog, hnumbers, hhandled.delivered_of_not hnot, List.filterMap_nil, List.append_nil]
    by_cases hseq : view.msgSeqNum = some s.engine.ctx.session.inboundSeqNum
    . apply hs.advance h hview hseq
      . have hle := hs.le
        rw [h.taken_received.1, List.length_append, List.length_singleton] at hbound
        omega
      . by_cases happ : view.IsApplication
        . right
          rw [hlog, hnumbers, hhandled.delivered_of_application happ]
          simp [hseq]
        . left
          exact hnot happ
    . rw [expectedAfter, hview] at hinbound
      dsimp only at hinbound
      rw [if_neg hseq] at hinbound
      apply hs.skip h hinbound
      apply hnot
      intro happ
      exact hseq (horder view hview happ)

section Runs

variable [Transport T] (app : FixApp A) (a : A) (transport : T) (session : Session) (clock : Clock)
  (entry : Entry) (n : Nat)

theorem run_tracked
    : Tracked session.inboundSeqNum (runOf app a transport session clock entry n) := by
  have hstarted := start_started a transport session clock entry
  apply runFor_invariant app hstarted.parser
  . rcases hstarted.log with ⟨msgs, hlog⟩
    constructor
    . rw [hstarted.taken_log.1]
      exact hstarted.inbound
    . rw [hstarted.taken_log.1, hlog, deliveredInOrder_append]
      have hevents : DeliveredInOrder entry.events := by
        cases entry
        all_goals simp [DeliveredInOrder, Entry.events]
      simp only [hevents, deliveredInOrder_of_isIdle RunState.isIdle_map_sent, InOrder, and_self]
  . intro s s' evs hstep hs
    exact hstep.tracked hs
  . intro s s' frame evs hstep hs
    exact hstep.tracked hs

theorem run_consecutive
    : InOrder session.inboundSeqNum
          (taken (runOf app a transport session clock entry n).engine.ctx.log) →
        session.inboundSeqNum.toNat
            + (taken (runOf app a transport session clock entry n).engine.ctx.log).length
          < 2 ^ 64 →
        Consecutive session.inboundSeqNum (runOf app a transport session clock entry n) := by
  have hstarted := start_started a transport session clock entry
  have htracked := run_tracked app a transport session clock entry 0
  let I (s : RunState T A) : Prop := Tracked session.inboundSeqNum s
    ∧ (InOrder session.inboundSeqNum (taken s.engine.ctx.log) →
      session.inboundSeqNum.toNat + (taken s.engine.ctx.log).length < 2 ^ 64 →
      Consecutive session.inboundSeqNum s)
  have hinvariant : I (runOf app a transport session clock entry n) := by
    apply runFor_invariant app hstarted.parser
    . refine ⟨htracked, ?_⟩
      intro _ _
      rcases hstarted.log with ⟨msgs, hlog⟩
      have hnumbers : deliveredNumbers
          (entry.start (.new transport session clock) a).engine.ctx.log = [] := by
        apply deliveredNumbers_eq_nil
        intro msgType view expected hmem
        rw [hlog, List.mem_append] at hmem
        rcases hmem with hmem | hmem
        . cases entry
          all_goals simp [Entry.events] at hmem
        . simp at hmem
      constructor
      . rw [hstarted.inbound]
        exact UInt64.le_refl _
      . rw [hstarted.inbound]
        omega
      . simp [hnumbers]
      . simp [hnumbers]
      . intro seq hge hlt
        rw [hstarted.inbound, UInt64.lt_iff_toNat_lt] at hlt
        rw [UInt64.le_iff_toNat_le] at hge
        omega
    . intro s s' evs hstep hs
      refine ⟨hstep.tracked hs.1, ?_⟩
      intro horder hbound
      have htaken := hstep.taken_eq
      rw [htaken] at horder hbound
      exact hstep.consecutive (hs.2 horder hbound)
    . intro s s' frame evs hstep hs
      refine ⟨hstep.tracked hs.1, ?_⟩
      intro horder hbound
      have hbefore := hbound
      rw [hstep.taken_received.1, inOrder_concat, ← hs.1.inbound] at horder
      rw [hstep.taken_received.1, List.length_append] at hbefore
      exact hstep.consecutive (hs.2 horder.1 (by omega)) hbound horder.2
  exact hinvariant.2

-- In-order, exactly-once delivery holds up to any point of a run iff the stream was in order so far.
theorem delivery_in_order_iff
    : (DeliveredInOrder (runOf app a transport session clock entry n).engine.ctx.log
          ↔
        InOrder session.inboundSeqNum
          (taken (runOf app a transport session clock entry n).engine.ctx.log))
        ∧ (DeliveredInOrder (runOf app a transport session clock entry n).engine.ctx.log →
          session.inboundSeqNum.toNat
              + (taken (runOf app a transport session clock entry n).engine.ctx.log).length
            < 2 ^ 64 →
          (deliveredNumbers
              (runOf app a transport session clock entry n).engine.ctx.log).Pairwise (· < ·)
            ∧ ∀ seq ∈ deliveredNumbers
                (runOf app a transport session clock entry n).engine.ctx.log,
              ∀ earlier, session.inboundSeqNum ≤ earlier → earlier < seq →
              ∃ frame ∈ taken (runOf app a transport session clock entry n).engine.ctx.log,
                ∃ view, accepted frame = some view ∧ view.msgSeqNum = some earlier) := by
  have horder := (run_tracked app a transport session clock entry n).order
  refine ⟨horder, ?_⟩
  intro hdelivered hbound
  have hconsecutive := run_consecutive app a transport session clock entry n
    (horder.mp hdelivered) hbound
  refine ⟨hconsecutive.pairwise, ?_⟩
  intro seq hmem earlier hge hlt
  have hseq := hconsecutive.lt seq hmem
  exact hconsecutive.seen earlier hge (UInt64.lt_trans hlt hseq)

end Runs

-- The first message of the stream is an order with number 5, which the session does not expect.
theorem not_delivered_in_order
    : ¬ DeliveredInOrder
        (acceptorRun (.new acceptorConfig 0) [orderFrame 5] 2).engine.ctx.log := by
  have hframe := peerFrame_order 5
  rcases acceptorRun_two [] quiet_new hframe with ⟨evs, htook⟩
  rw [htook.deliveredInOrder, acceptorRun_one [] quiet_new hframe.length_le hframe.ne_nil]
  intro horder
  rcases hframe.exists_view with ⟨view, hview, hkind, hseq⟩
  have hnum := horder.2 view hview ⟨ascii "D", hkind, by decide⟩
  rw [hseq, Option.some.injEq] at hnum
  have hone : (5 : UInt64) = 1 := hnum
  exact absurd hone (by decide)

end Velocitas
