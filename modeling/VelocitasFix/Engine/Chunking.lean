import VelocitasFix.Engine.Alike
import VelocitasFix.Engine.Logon

/-!
This module contains the comparison of runs that receive the same stream in different reads. The
loop tests whether it has to stop only between reads, so that the runs behave the same as long as no
read has frames after such a point and no read ends before the session is established.
-/

namespace Velocitas

open FixParser (framer)

variable {T A : Type}

def Phase.Terminal : Phase → Prop
  | .poll => False
  | .process => False
  | .returned _ => True
  | .panicked => True

/-
Neither does the loop take a frame after it is to stop, nor does it test for the stop at the end of
a read while the session is still disconnected.
-/
structure RunState.Undivided (s : RunState T A) : Prop where
  frame : s.phase = .process → s.engine.recv.takeFrame ≠ none →
    s.engine.shouldStop = false ∧ s.engine.ctx.session.state ≠ .logoutSent
  batch : s.phase = .process → s.engine.recv.takeFrame = none →
    s.engine.ctx.session.state = .disconnected → s.engine.shouldStop = true

-- The timer does not act if the state is one in which it is asked.
def RunState.Quiet (s : RunState T A) : Prop :=
  s.phase = .poll → s.engine.shouldStop = false → (timer s.engine).1 = .none

section Runs

variable [Transport T] (app : FixApp A)

theorem step_of_terminal {s : RunState T A} (h : s.phase.Terminal) : RunState.step app s = s := by
  unfold RunState.step
  cases hphase : s.phase with
  | poll =>
    rw [hphase] at h
    exact absurd h id
  | process =>
    rw [hphase] at h
    exact absurd h id
  | returned res => rfl
  | panicked => rfl

theorem runFor_of_terminal {s : RunState T A} (h : s.phase.Terminal) (n : Nat)
    : runFor app n s = s := by
  induction n with
  | zero => rfl
  | succ n ih => rw [runFor_succ, ih, step_of_terminal app h]

theorem runFor_eq_of_terminal {s : RunState T A} {m n : Nat}
    (hm : (runFor app m s).phase.Terminal) (hn : (runFor app n s).phase.Terminal)
    : runFor app m s = runFor app n s := by
  cases Nat.le_total m n with
  | inl hle =>
    rcases Nat.exists_eq_add_of_le hle with ⟨k, rfl⟩
    rw [runFor_add, runFor_of_terminal app hm]
  | inr hle =>
    rcases Nat.exists_eq_add_of_le hle with ⟨k, rfl⟩
    rw [runFor_add, runFor_of_terminal app hn]

-- The frames of a stream one after the other, until the loop is to stop.
def absorb (e : FixEngine T) (a : A) : List Bytes → Outcome (FixEngine T × A)
  | [] => .next (e, a)
  | frame :: frames =>
    if e.shouldStop = true ∨ e.ctx.session.state = .logoutSent then
      .next (e, a)
    else
      (FixEngine.processMessage app e a frame).bind (fun s => absorb s.1 s.2 frames) id

-- What is observed of frames and the test for the stop after them.
def concluded : Outcome (FixEngine T × A) → List Event
  | .next (e, _) => observed e.endBatch.state.ctx.log
  | .halt _ (e, _) => observed e.ctx.log

def Concludes (s : RunState T A) (obs : List Event) : Prop :=
  ∃ n, (runFor app n s).phase.Terminal ∧ observed (runFor app n s).engine.ctx.log = obs

theorem absorb_of_stop {e : FixEngine T}
    (h : e.shouldStop = true ∨ e.ctx.session.state = .logoutSent) (a : A) (frames : List Bytes)
    : absorb app e a frames = .next (e, a) := by
  cases frames with
  | nil => rfl
  | cons frame frames => simp only [absorb, h, if_true]

variable {app}

theorem concludes_of_step {s : RunState T A} {obs : List Event}
    (h : Concludes app (RunState.step app s) obs)
    : Concludes app s obs := by
  rcases h with ⟨n, hn⟩
  have hrun : runFor app (1 + n) s = runFor app n (RunState.step app s) := runFor_add app 1 n s
  refine ⟨1 + n, ?_⟩
  rw [hrun]
  exact hn

variable (app) in
theorem concludes_of_terminal {s : RunState T A} (h : s.phase.Terminal)
    : Concludes app s (observed s.engine.ctx.log) :=
  ⟨0, h, rfl⟩

-- The loop has decided to stop.
theorem concludes_of_shouldStop {e : FixEngine T} (a : A) (h : e.shouldStop = true)
    : Concludes app ⟨e, a, .poll⟩ (observed e.ctx.log) := by
  have hstep : RunState.step app ⟨e, a, .poll⟩ = RunState.finish e a := by
    simp [RunState.step, RunState.poll, h]
  apply concludes_of_step
  rw [hstep]
  apply concludes_of_terminal
  trivial

end Runs

theorem FixEngine.endBatch_of_running [Transport T] {e : FixEngine T}
    (hdisconnected : e.ctx.session.state ≠ .disconnected)
    (hlogout : e.ctx.session.state ≠ .logoutSent)
    : e.endBatch = .next e := by
  unfold endBatch
  split
  . contradiction
  . contradiction
  . rfl

theorem FixEngine.endBatch_of_stopping [Transport T] {e : FixEngine T}
    (h : e.ctx.session.state = .disconnected ∨ e.ctx.session.state = .logoutSent)
    : (∃ e', e.endBatch = .next e' ∧ e'.shouldStop = true) ∨ e.endBatch.Left := by
  unfold endBatch
  split
  . exact .inl ⟨_, rfl, rfl⟩
  . split
    . exact .inr trivial
    . exact .inl ⟨_, rfl, rfl⟩
    . exact .inl ⟨_, rfl, rfl⟩
  . next hother1 hother2 =>
    cases h with
    | inl h => exact absurd h hother1
    | inr h => exact absurd h hother2

section Scripts

variable {app : FixApp A} {t1 t2 : Script}

theorem absorb_rel {e1 e2 : FixEngine Script} (h : e1.Alike t1 t2 e2) (a : A) (frames : List Bytes)
    : Outcome.Rel (FixEngine.AlikeWith t1 t2) (absorb app e1 a frames) (absorb app e2 a frames) := by
  induction frames generalizing e1 e2 a with
  | nil =>
    apply Outcome.Rel.next
    exact ⟨h, rfl⟩
  | cons frame frames ih =>
    simp only [absorb]
    rw [h.shouldStop, h.state]
    split
    . apply Outcome.Rel.next
      exact ⟨h, rfl⟩
    . apply (h.processMessage app a frame).bind
      . intro s1 s2 hs
        rw [hs.2]
        apply ih hs.1
      . intro s1 s2 hs
        exact hs

theorem concluded_congr {o1 o2 : Outcome (FixEngine Script × A)}
    (h : Outcome.Rel (FixEngine.AlikeWith t1 t2) o1 o2)
    : concluded o1 = concluded o2 := by
  cases h with
  | next h =>
    have hbatch := h.1.endBatch.state
    exact hbatch.ctx.observed
  | halt reason h => exact h.1.ctx.observed

-- A run on a script, from a state in which it still has `reads` to receive.
structure Ready (app : FixApp A) (reads : List Bytes) (s : RunState Script A) : Prop where
  parser : s.engine.parser = .new
  transport : s.engine.ctx.transport = ⟨reads⟩
  undivided : ∀ n, (runFor app n s).Undivided
  quiet : ∀ n, (runFor app n s).Quiet

theorem Ready.step {reads reads' : List Bytes} {s : RunState Script A} (h : Ready app reads s)
    (hparser : (RunState.step app s).engine.parser = .new)
    (htransport : (RunState.step app s).engine.ctx.transport = ⟨reads'⟩)
    : Ready app reads' (RunState.step app s) := by
  have hrun (n : Nat) : runFor app n (RunState.step app s) = runFor app (1 + n) s :=
    (runFor_add app 1 n s).symm
  constructor
  . exact hparser
  . exact htransport
  . intro n
    rw [hrun]
    apply h.undivided
  . intro n
    rw [hrun]
    apply h.quiet

-- What is observed in the end if the unread bytes and the reads to come are taken as one.
def outcome (app : FixApp A) (reads : List Bytes) (s : RunState Script A) : List Event :=
  concluded (absorb app s.engine s.app
    (framer.frames (s.engine.recv.unread ++ reads.flatten)).1)

theorem concluded_absorb_congr {e1 e2 : FixEngine Script} (h : e1.Alike t1 t2 e2)
    (a : A) (frames : List Bytes)
    : concluded (absorb app e1 a frames) = concluded (absorb app e2 a frames) :=
  concluded_congr (absorb_rel h a frames)

-- The bytes in the buffers do not matter, nor does a frame being recorded as taken.
theorem alike_take (e : FixEngine Script) (recv : RecvBuffer) (frame : Bytes)
    : (({ e with recv } : FixEngine Script).record (.taken frame)).Alike e.ctx.transport
        e.ctx.transport e := by
  refine ⟨⟨rfl, rfl, rfl, ?_⟩, rfl, rfl, rfl⟩
  change observed (e.ctx.log ++ [.taken frame]) = observed e.ctx.log
  simp [observed, Event.observable]

theorem concludes_frame {reads : List Bytes} {e : FixEngine Script} {a : A} {frame : Bytes}
    {recv : RecvBuffer} (h : Ready app reads ⟨e, a, .process⟩)
    (htake : e.recv.takeFrame = some (frame, recv))
    (hnext : ∀ e' a', e'.recv = recv → Ready app reads ⟨e', a', .process⟩ →
      Concludes app ⟨e', a', .process⟩ (outcome app reads ⟨e', a', .process⟩))
    : Concludes app ⟨e, a, .process⟩ (outcome app reads ⟨e, a, .process⟩) := by
  rcases RecvBuffer.exists_of_takeFrame htake with ⟨n, hcut, hframe, hunread⟩
  have hframes : (framer.frames (e.recv.unread ++ reads.flatten)).1
      = frame :: (framer.frames (recv.unread ++ reads.flatten)).1 := by
    rw [framer.frames_append_of_cut_some hcut, hframe, hunread]
  have hgo : ¬ (e.shouldStop = true ∨ e.ctx.session.state = .logoutSent) := by
    have hundivided : (RunState.mk e a .process).Undivided := h.undivided 0
    have hgo := hundivided.frame rfl (by simp [htake])
    simpa using hgo
  have hrel := (alike_take e recv frame).processMessage app a frame
  have hstep : RunState.step app ⟨e, a, .process⟩
      = RunState.settle .process (FixEngine.processMessage app
          (({ e with recv } : FixEngine Script).record (.taken frame)) a frame) := by
    simp only [RunState.step, RunState.process, htake]
  have htook : ∃ evs, (RunState.mk e a .process).Took (RunState.step app ⟨e, a, .process⟩) frame evs
      := RunState.took_process a h.parser htake
  rcases htook with ⟨evs, htook⟩
  have hparser := htook.parser.trans h.parser
  rcases htook.recv with ⟨recv', htake', hrecv⟩
  have hsame : recv = recv' := by
    change e.recv.takeFrame = _ at htake'
    rw [htake] at htake'
    simpa using htake'
  rw [← hsame] at hrecv
  have hready := @Ready.step _ app reads reads _ h hparser
  apply concludes_of_step
  rw [hstep] at hrecv hready ⊢
  unfold outcome
  dsimp only
  rw [hframes]
  simp only [absorb, if_neg hgo]
  generalize FixEngine.processMessage app
    (({ e with recv } : FixEngine Script).record (.taken frame)) a frame = o1 at hrel hrecv hready
  generalize FixEngine.processMessage app e a frame = o at hrel
  cases hrel with
  | next hs =>
    rename_i s1 s2
    rcases s1 with ⟨e1, a1⟩
    have hrest := hnext e1 a1 hrecv (hready (hs.1.ctx.left.trans h.transport))
    unfold outcome at hrest
    dsimp only at hrest
    change e1.recv = recv at hrecv
    have ha : a1 = s2.2 := hs.2
    rw [hrecv, ha, concluded_absorb_congr hs.1] at hrest
    rw [ha]
    exact hrest
  | halt reason hs =>
    rename_i s1 s2
    have hterminal : (RunState.settle .process (.halt reason s1) : RunState Script A).phase.Terminal
        := by
      cases reason with
      | error err => trivial
      | panic => trivial
    have hconcludes := concludes_of_terminal app hterminal
    have hobserved : observed s1.1.ctx.log = observed s2.1.ctx.log := hs.1.ctx.observed
    change Concludes app _ (observed s1.1.ctx.log) at hconcludes
    rw [hobserved] at hconcludes
    exact hconcludes

theorem absorb_frames_of_none {e : FixEngine Script} (a : A) {bytes : Bytes}
    (h : framer.cut bytes = none)
    : absorb app e a (framer.frames bytes).1 = .next (e, a) := by
  rw [framer.frames_of_cut_none h]
  rfl

-- The test for the stop at the end of a read; `hpoll` covers the case that the loop goes on.
theorem concludes_batch {reads : List Bytes} {e : FixEngine Script} {a : A}
    (h : Ready app reads ⟨e, a, .process⟩) (htake : e.recv.takeFrame = none)
    (hpoll : e.ctx.session.state ≠ .disconnected → e.ctx.session.state ≠ .logoutSent →
      Ready app reads ⟨e, a, .poll⟩ →
      Concludes app ⟨e, a, .poll⟩ (outcome app reads ⟨e, a, .poll⟩))
    : Concludes app ⟨e, a, .process⟩ (outcome app reads ⟨e, a, .process⟩) := by
  have hstep : RunState.step app ⟨e, a, .process⟩ = .settleEngine .poll a e.endBatch := by
    simp only [RunState.step, RunState.process, htake]
  by_cases hstop : e.ctx.session.state = .disconnected ∨ e.ctx.session.state = .logoutSent
  . have hshould : e.shouldStop = true ∨ e.ctx.session.state = .logoutSent := by
      have hundivided : (RunState.mk e a .process).Undivided := h.undivided 0
      cases hstop with
      | inl hdisconnected => exact .inl (hundivided.batch rfl htake hdisconnected)
      | inr hlogout => exact .inr hlogout
    unfold outcome
    dsimp only
    rw [absorb_of_stop app hshould]
    apply concludes_of_step
    rw [hstep]
    change Concludes app _ (observed e.endBatch.state.ctx.log)
    cases FixEngine.endBatch_of_stopping hstop with
    | inl hnext =>
      rcases hnext with ⟨e', hbatch, hstop'⟩
      rw [hbatch]
      apply concludes_of_shouldStop a hstop'
    | inr hleft =>
      generalize e.endBatch = o at hleft
      cases o with
      | next e' => exact absurd hleft id
      | halt reason e' =>
        apply concludes_of_terminal app
        cases reason with
        | error err => trivial
        | panic => trivial
  . rw [not_or] at hstop
    have hsame : RunState.step app ⟨e, a, .process⟩ = ⟨e, a, .poll⟩ := by
      rw [hstep, FixEngine.endBatch_of_running hstop.1 hstop.2]
      rfl
    have hready := @Ready.step _ app reads reads _ h
    rw [hsame] at hready
    apply concludes_of_step
    rw [hsame]
    exact hpoll hstop.1 hstop.2 (hready h.parser h.transport)

theorem RunState.alike_timer {e : FixEngine Script} (h : (timer e).1 = .none)
    : (timer e).2.Alike e.ctx.transport e.ctx.transport e := by
  have hsession : (timer e).2.ctx.session = e.ctx.session :=
    e.ctx.session.checkHeartbeat_of_none h
  refine ⟨⟨rfl, rfl, ?_, rfl⟩, rfl, rfl, rfl⟩
  rw [hsession]

-- At the end of the stream the loop ends the connection.
theorem concludes_end {e : FixEngine Script} {a : A} (h : Ready app [] ⟨e, a, .poll⟩)
    : Concludes app ⟨e, a, .poll⟩ (observed e.ctx.log) := by
  by_cases hstop : e.shouldStop = true
  . apply concludes_of_shouldStop a hstop
  . rw [Bool.not_eq_true] at hstop
    have hquiet : (RunState.mk e a .poll).Quiet := h.quiet 0
    have htimer := hquiet rfl hstop
    have halike := RunState.alike_timer htimer
    have htransport := h.transport
    have hstep : ∃ e', RunState.step app ⟨e, a, .poll⟩ = RunState.finish e' a
        ∧ observed e'.ctx.log = observed e.ctx.log := by
      simp only [RunState.step, RunState.poll, hstop, Bool.false_eq_true, if_false]
      cases htimed : RunState.timer e with
      | mk action e1 =>
        rw [htimed] at htimer halike
        dsimp only at htimer halike htransport
        rw [htransport] at halike
        rw [htimer]
        refine ⟨{ ({ e1 with ctx := { e1.ctx with transport := ⟨[]⟩ } } : FixEngine Script).disconnect
          with shouldStop := true }, ?_, ?_⟩
        . simp [RunState.receive, halike.ctx.left, Transport.recv]
        . change observed (e1.ctx.log ++ [.disconnected]) = _
          rw [observed_append, halike.ctx.observed]
          exact List.append_nil _
    rcases hstep with ⟨e', hstep, hobserved⟩
    apply concludes_of_step
    rw [hstep, ← hobserved]
    apply concludes_of_terminal app
    trivial

theorem concludes_poll_nil {e : FixEngine Script} {a : A} (h : Ready app [] ⟨e, a, .poll⟩)
    (htake : e.recv.takeFrame = none) (hdisconnected : e.ctx.session.state ≠ .disconnected)
    (hlogout : e.ctx.session.state ≠ .logoutSent)
    : Concludes app ⟨e, a, .poll⟩ (outcome app [] ⟨e, a, .poll⟩) := by
  have hcut := RecvBuffer.takeFrame_eq_none.mp htake
  unfold outcome
  dsimp only
  rw [List.flatten_nil, List.append_nil, absorb_frames_of_none a hcut, concluded,
    FixEngine.endBatch_of_running hdisconnected hlogout]
  apply concludes_end h

theorem concludes_poll_cons {chunk : Bytes} {reads : List Bytes} {e : FixEngine Script} {a : A}
    (h : Ready app (chunk :: reads) ⟨e, a, .poll⟩) (hne : chunk ≠ []) (hlen : chunk.length ≤ 8192)
    (hgo : e.shouldStop = true →
      e.ctx.session.state ≠ .disconnected ∧ e.ctx.session.state ≠ .logoutSent)
    (hprocess : ∀ e', Ready app reads ⟨e', a, .process⟩ →
      Concludes app ⟨e', a, .process⟩ (outcome app reads ⟨e', a, .process⟩))
    : Concludes app ⟨e, a, .poll⟩ (outcome app (chunk :: reads) ⟨e, a, .poll⟩) := by
  by_cases hstop : e.shouldStop = true
  . unfold outcome
    dsimp only
    rw [absorb_of_stop app (.inl hstop), concluded,
      FixEngine.endBatch_of_running (hgo hstop).1 (hgo hstop).2]
    apply concludes_of_shouldStop a hstop
  . rw [Bool.not_eq_true] at hstop
    have hquiet : (RunState.mk e a .poll).Quiet := h.quiet 0
    have htimer := hquiet rfl hstop
    have halike := RunState.alike_timer htimer
    have hstep : RunState.step app ⟨e, a, .poll⟩
        = ⟨RunState.receiveChunk (RunState.timer e).2 chunk reads, a, .process⟩ :=
      RunState.poll_script a hstop htimer h.transport hlen hne
    have hready := @Ready.step _ app _ reads _ h
    rw [hstep] at hready
    have hrest := hprocess _ (hready h.parser rfl)
    have hchunk : (RunState.receiveChunk (RunState.timer e).2 chunk reads).Alike ⟨reads⟩
        e.ctx.transport e := by
      refine ⟨⟨rfl, rfl, halike.ctx.session, ?_⟩, rfl, rfl, rfl⟩
      change observed (e.ctx.log ++ [.received chunk]) = _
      rw [observed_append]
      exact List.append_nil _
    have hunread : (RunState.receiveChunk (RunState.timer e).2 chunk reads).recv.unread
        = e.recv.unread ++ chunk :=
      e.recv.unread_append chunk
    apply concludes_of_step
    rw [hstep]
    unfold outcome at hrest ⊢
    dsimp only at hrest ⊢
    rw [hunread, List.append_assoc, ← List.flatten_cons, concluded_absorb_congr hchunk] at hrest
    exact hrest

-- The induction is on the number of bytes that are not taken yet.
theorem concludes_process {reads : List Bytes}
    (hpoll : ∀ e a, Ready app reads ⟨e, a, .poll⟩ → e.recv.takeFrame = none →
      e.ctx.session.state ≠ .disconnected → e.ctx.session.state ≠ .logoutSent →
      Concludes app ⟨e, a, .poll⟩ (outcome app reads ⟨e, a, .poll⟩))
    {e : FixEngine Script} {a : A} (h : Ready app reads ⟨e, a, .process⟩)
    : Concludes app ⟨e, a, .process⟩ (outcome app reads ⟨e, a, .process⟩) := by
  induction hpos : e.recv.pos using Nat.strong_induction_on generalizing e a with
  | h pos ih =>
    cases htake : e.recv.takeFrame with
    | none =>
      apply concludes_batch h htake
      intro hdisconnected hlogout hready
      apply hpoll e a hready htake hdisconnected hlogout
    | some res =>
      rcases res with ⟨frame, recv⟩
      apply concludes_frame h htake
      intro e' a' hrecv hready
      have hlt := RecvBuffer.pos_lt_of_takeFrame htake
      rw [hpos, ← hrecv] at hlt
      apply ih e'.recv.pos hlt hready rfl

theorem concludes_reads {reads : List Bytes}
    (hreads : ∀ chunk ∈ reads, chunk ≠ [] ∧ chunk.length ≤ 8192) {e : FixEngine Script} {a : A}
    (h : Ready app reads ⟨e, a, .process⟩)
    : Concludes app ⟨e, a, .process⟩ (outcome app reads ⟨e, a, .process⟩) := by
  induction reads generalizing e a with
  | nil =>
    apply concludes_process _ h
    intro e a hready htake hdisconnected hlogout
    apply concludes_poll_nil hready htake hdisconnected hlogout
  | cons chunk reads ih =>
    rw [List.forall_mem_cons] at hreads
    apply concludes_process _ h
    intro e a hready htake hdisconnected hlogout
    apply concludes_poll_cons hready hreads.1.1 hreads.1.2
    . intro _
      exact ⟨hdisconnected, hlogout⟩
    . intro e' hprocess
      apply ih hreads.2 hprocess

end Scripts

-- How the loop is entered, before the first poll.
def Entry.enter {T : Type} [Transport T] (entry : Entry) (e : FixEngine T)
    : Outcome (FixEngine T) :=
  match entry with
  | .runInitiator => e.connect.sendLogon
  | .runAcceptor => .next e
  | .handleInboundLogon => e.handleInboundLogon

theorem Entry.start_eq {T : Type} [Transport T] (entry : Entry) (e : FixEngine T) (a : A)
    : entry.start e a = .settleEngine .poll a (entry.enter e) := by
  cases entry with
  | runInitiator => rfl
  | runAcceptor => rfl
  | handleInboundLogon => rfl

theorem Entry.enter_rel {t1 t2 : Script} {e1 e2 : FixEngine Script} (entry : Entry)
    (h : e1.Alike t1 t2 e2)
    : Outcome.Rel (FixEngine.Alike t1 t2) (entry.enter e1) (entry.enter e2) := by
  cases entry with
  | runInitiator => apply h.connect.sendLogon
  | runAcceptor => apply Outcome.Rel.next h
  | handleInboundLogon =>
    have hlogon := h.connect.atInstant Session.timed_onLogon
    apply (hlogon.record .handledLogon .handledLogon rfl).sendLogon

theorem Entry.enter_shouldStop {T : Type} [Transport T] (entry : Entry) (e : FixEngine T)
    : (entry.enter e).state.shouldStop = e.shouldStop := by
  cases entry with
  | runInitiator => exact (FixEngine.sendLogon_sends e.connect).shouldStop
  | runAcceptor => rfl
  | handleInboundLogon => exact (FixEngine.sendLogon_sends _).shouldStop

-- What is observed of a whole stream, from the state in which the loop is entered.
def streamed (app : FixApp A) (a : A) (stream : Bytes) : Outcome (FixEngine Script) → List Event
  | .next e =>
    if stream = [] then
      observed e.ctx.log
    else
      concluded (absorb app e a (framer.frames stream).1)
  | .halt _ e => observed e.ctx.log

theorem streamed_congr {t1 t2 : Script} {o1 o2 : Outcome (FixEngine Script)} (app : FixApp A) (a : A)
    (stream : Bytes) (h : Outcome.Rel (FixEngine.Alike t1 t2) o1 o2)
    : streamed app a stream o1 = streamed app a stream o2 := by
  cases h with
  | next h =>
    unfold streamed
    dsimp only
    split
    . exact h.ctx.observed
    . apply concluded_absorb_congr h
  | halt reason h => exact h.ctx.observed

section Runs

variable (app : FixApp A) (a : A) (session : Session) (entry : Entry)

theorem concludes_runOf {reads : List Bytes} (clock : Clock)
    (hreads : ∀ chunk ∈ reads, chunk ≠ [] ∧ chunk.length ≤ 8192)
    (hundivided : ∀ n, (runOf app a (Script.mk reads) session clock entry n).Undivided)
    (hquiet : ∀ n, (runOf app a (Script.mk reads) session clock entry n).Quiet)
    : Concludes app (entry.start (.new (Script.mk reads) session clock) a)
        (streamed app a reads.flatten (entry.enter (.new (Script.mk reads) session clock))) := by
  have hstarted := start_started a (Script.mk reads) session clock entry
  have hstop := entry.enter_shouldStop (FixEngine.new (Script.mk reads) session clock)
  have hrel := entry.enter_rel (FixEngine.Alike.refl (.new (Script.mk reads) session clock))
  unfold runOf at hundivided hquiet
  rw [entry.start_eq] at hstarted hundivided hquiet ⊢
  generalize entry.enter (FixEngine.new (Script.mk reads) session clock) = o at *
  cases o with
  | halt reason e =>
    apply concludes_of_terminal app
    cases reason with
    | error err => trivial
    | panic => trivial
  | next e =>
    have htransport : e.ctx.transport = ⟨reads⟩ := hrel.state.ctx.left
    have hready : Ready app reads ⟨e, a, .poll⟩ :=
      ⟨hstarted.parser, htransport, hundivided, hquiet⟩
    have hunread : e.recv.unread = [] := hstarted.unread
    have hnostop : e.shouldStop = false := hstop
    cases reads with
    | nil =>
      unfold streamed
      dsimp only
      rw [List.flatten_nil, if_pos rfl]
      apply concludes_end hready
    | cons chunk reads =>
      rw [List.forall_mem_cons] at hreads
      have hne : (chunk :: reads).flatten ≠ [] := by
        simp [hreads.1.1]
      have hpoll := concludes_poll_cons hready hreads.1.1 hreads.1.2
        (by simp [hnostop]) (fun e' => concludes_reads hreads.2)
      unfold outcome at hpoll
      unfold streamed
      dsimp only at hpoll ⊢
      rw [hunread, List.nil_append] at hpoll
      rw [if_neg hne]
      exact hpoll

/-
Two runs of one stream in different reads come to an end, and then the application and the
counterparty have noticed the same, times aside.
-/
theorem observed_eq_of_flatten_eq {reads1 reads2 : List Bytes} (clock1 clock2 : Clock)
    (hflatten : reads1.flatten = reads2.flatten)
    (hreads1 : ∀ chunk ∈ reads1, chunk ≠ [] ∧ chunk.length ≤ 8192)
    (hreads2 : ∀ chunk ∈ reads2, chunk ≠ [] ∧ chunk.length ≤ 8192)
    (hquiet1 : ∀ n, (runOf app a (Script.mk reads1) session clock1 entry n).Quiet)
    (hquiet2 : ∀ n, (runOf app a (Script.mk reads2) session clock2 entry n).Quiet)
    (hundivided1 : ∀ n, (runOf app a (Script.mk reads1) session clock1 entry n).Undivided)
    (hundivided2 : ∀ n, (runOf app a (Script.mk reads2) session clock2 entry n).Undivided)
    : (∃ n, (runOf app a (Script.mk reads1) session clock1 entry n).phase.Terminal)
        ∧ (∃ n, (runOf app a (Script.mk reads2) session clock2 entry n).phase.Terminal)
        ∧ ∀ n1 n2, (runOf app a (Script.mk reads1) session clock1 entry n1).phase.Terminal →
            (runOf app a (Script.mk reads2) session clock2 entry n2).phase.Terminal →
            observed (runOf app a (Script.mk reads1) session clock1 entry n1).engine.ctx.log
              = observed (runOf app a (Script.mk reads2) session clock2 entry n2).engine.ctx.log := by
  have halike : (FixEngine.new (Script.mk reads1) session clock1).Alike ⟨reads1⟩ ⟨reads2⟩
      (.new (Script.mk reads2) session clock2) :=
    ⟨⟨rfl, rfl, rfl, rfl⟩, rfl, rfl, rfl⟩
  rcases concludes_runOf app a session entry clock1 hreads1 hundivided1 hquiet1
    with ⟨m1, hm1, hobs1⟩
  rcases concludes_runOf app a session entry clock2 hreads2 hundivided2 hquiet2
    with ⟨m2, hm2, hobs2⟩
  refine ⟨⟨m1, hm1⟩, ⟨m2, hm2⟩, ?_⟩
  intro n1 n2 hn1 hn2
  unfold runOf at hn1 hn2 ⊢
  rw [runFor_eq_of_terminal app hn1 hm1, runFor_eq_of_terminal app hn2 hm2, hobs1, hobs2, hflatten]
  apply streamed_congr app a _ (entry.enter_rel halike)

end Runs

/-
A silent acceptor with a stopped clock whose session is established, while it has `unread` bytes and
`reads` to come.
-/
structure Calm (phase : Phase) (reads : List Bytes) (unread : Bytes) (s : RunState Script Unit)
    : Prop where
  phase_eq : s.phase = phase
  parser : s.engine.parser = .new
  transport : s.engine.ctx.transport = ⟨reads⟩
  unread_eq : s.engine.recv.unread = unread
  shouldStop : s.engine.shouldStop = false
  state : s.engine.ctx.session.state = .active ∨ s.engine.ctx.session.state = .resending
  config : s.engine.ctx.session.config = acceptorConfig
  instants : ∀ n, s.engine.ctx.clock.instants n = 0

namespace Calm

variable {phase : Phase} {reads : List Bytes} {unread : Bytes} {s : RunState Script Unit}

theorem quiet (h : Calm phase reads unread s) : s.Quiet := by
  intro _ _
  have hnow : s.engine.ctx.clock.now = 0 := h.instants _
  have hinterval : s.engine.ctx.session.config.heartbeatInterval = 30000000000 := by
    rw [h.config]
    rfl
  simp [RunState.timer, Session.checkHeartbeat, hnow, Instant.durationSince, hinterval,
    Duration.fromSecs]

theorem undivided (h : Calm phase reads unread s) : s.Undivided := by
  constructor
  . intro _ _
    refine ⟨h.shouldStop, ?_⟩
    intro hlogout
    cases h.state with
    | inl hactive => simp [hactive] at hlogout
    | inr hresending => simp [hresending] at hlogout
  . intro _ _ hdisconnected
    cases h.state with
    | inl hactive => simp [hactive] at hdisconnected
    | inr hresending => simp [hresending] at hdisconnected

theorem receives {chunk : Bytes} (h : Calm .poll (chunk :: reads) unread s)
    (hchunk : chunk ≠ [] ∧ chunk.length ≤ 8192)
    : Calm .process reads (unread ++ chunk) (RunState.step silentApp s) := by
  have htimer := h.quiet h.phase_eq h.shouldStop
  have halike := RunState.alike_timer htimer
  cases s with
  | mk e a phase =>
    have hphase : phase = .poll := h.phase_eq
    rw [hphase]
    have hstep : RunState.step silentApp ⟨e, a, .poll⟩
        = ⟨RunState.receiveChunk (RunState.timer e).2 chunk reads, a, .process⟩ :=
      RunState.poll_script a h.shouldStop htimer h.transport hchunk.2 hchunk.1
    rw [hstep]
    constructor
    . rfl
    . exact h.parser
    . rfl
    . rw [← h.unread_eq]
      apply e.recv.unread_append
    . exact h.shouldStop
    . change (RunState.timer e).2.ctx.session.state = .active
        ∨ (RunState.timer e).2.ctx.session.state = .resending
      rw [halike.state]
      exact h.state
    . change (RunState.timer e).2.ctx.session.config = _
      rw [Session.config_congr halike.ctx.session]
      exact h.config
    . exact h.instants

theorem ends (h : Calm .poll [] unread s) : (RunState.step silentApp s).phase.Terminal := by
  have htimer := h.quiet h.phase_eq h.shouldStop
  have hstop := h.shouldStop
  have htransport : (RunState.timer s.engine).2.ctx.transport = ⟨[]⟩ := h.transport
  cases htimed : RunState.timer s.engine with
  | mk action e1 =>
    rw [htimed] at htimer htransport
    dsimp only at htimer htransport
    simp [RunState.step, RunState.poll, h.phase_eq, hstop, htimed, htimer, RunState.receive,
      htransport, Transport.recv, RunState.finish, Phase.Terminal]

theorem polls (h : Calm .process reads unread s) (hcut : framer.cut unread = none)
    : Calm .poll reads unread (RunState.step silentApp s) := by
  have htake : s.engine.recv.takeFrame = none := by
    rw [RecvBuffer.takeFrame_eq_none, h.unread_eq]
    exact hcut
  have hbatch : s.engine.endBatch = .next s.engine := by
    apply FixEngine.endBatch_of_running
    all_goals
      intro hstate
      cases h.state with
      | inl hactive => simp [hactive] at hstate
      | inr hresending => simp [hresending] at hstate
  have hstep : RunState.step silentApp s = ⟨s.engine, s.app, .poll⟩ := by
    simp [RunState.step, h.phase_eq, RunState.process, htake, hbatch, RunState.settleEngine]
  rw [hstep]
  exact ⟨rfl, h.parser, h.transport, h.unread_eq, h.shouldStop, h.state, h.config, h.instants⟩

theorem takes {frame rest : Bytes} (h : Calm .process reads (frame ++ rest) s)
    (hframe : framer.IsFrame frame) (happ : IsApplicationFrame frame)
    : Calm .process reads rest (RunState.step silentApp s) := by
  rcases RunState.took_of_unread silentApp h.phase_eq h.parser h.unread_eq hframe
    with ⟨⟨evs, htook⟩, hrest⟩
  rcases RunState.step_silent h.phase_eq h.parser h.unread_eq hframe happ
    with ⟨recv, view, ev, hstep⟩
  let e1 := ({ s.engine with recv } : FixEngine Script).record (.taken frame)
  rcases e1.validated_fields view with ⟨hparser, -, -, hstop, hconfig, -, htransport, -⟩
  have hstate := congrArg Control.state (e1.validated_control view)
  constructor
  . rw [hstep]
  . exact htook.parser.trans h.parser
  . rw [hstep]
    exact htransport.trans h.transport
  . exact hrest
  . rw [hstep]
    exact hstop.trans h.shouldStop
  . rw [hstep]
    change (e1.validated view).ctx.session.state = _ at hstate
    change (e1.validated view).ctx.session.state = _ ∨ (e1.validated view).ctx.session.state = _
    rw [hstate]
    cases e1.ctx.session.control.state_receive view with
    | inl hsame =>
      rw [hsame]
      exact h.state
    | inr hresending => exact .inr hresending
  . exact htook.config.trans h.config
  . rw [hstep]
    intro n
    change (e1.validated view).ctx.clock.instants n = 0
    unfold FixEngine.validated FixEngine.validateSeq
    split
    . exact h.instants n
    . exact h.instants n

end Calm

-- The run is calm, with only application messages to come, or it has come to an end.
def CalmRun (s : RunState Script Unit) : Prop :=
  s.phase.Terminal ∨ ∃ phase reads unread, (phase = .poll ∨ phase = .process)
    ∧ Calm phase reads unread s ∧ (∀ chunk ∈ reads, chunk ≠ [] ∧ chunk.length ≤ 8192)
    ∧ ∀ f ∈ (framer.frames (unread ++ reads.flatten)).1, IsApplicationFrame f

theorem CalmRun.step {s : RunState Script Unit} (h : CalmRun s)
    : CalmRun (RunState.step silentApp s) := by
  cases h with
  | inl hterminal =>
    left
    rw [step_of_terminal silentApp hterminal]
    exact hterminal
  | inr h =>
    rcases h with ⟨phase, reads, unread, hphase, hcalm, hreads, hframes⟩
    cases hphase with
    | inl hpoll =>
      rw [hpoll] at hcalm
      cases reads with
      | nil =>
        left
        apply hcalm.ends
      | cons chunk reads =>
        rw [List.forall_mem_cons] at hreads
        rw [List.flatten_cons, ← List.append_assoc] at hframes
        exact .inr ⟨_, _, _, .inr rfl, hcalm.receives hreads.1, hreads.2, hframes⟩
    | inr hprocess =>
      rw [hprocess] at hcalm
      right
      cases hcut : framer.cut unread with
      | none => exact ⟨_, _, _, .inl rfl, hcalm.polls hcut, hreads, hframes⟩
      | some n =>
        rw [framer.frames_append_of_cut_some hcut, List.forall_mem_cons] at hframes
        rw [← List.take_append_drop n unread] at hcalm
        exact ⟨_, _, _, .inr rfl, hcalm.takes (framer.isFrame_of_cut hcut) hframes.1, hreads,
          hframes.2⟩

theorem CalmRun.quiet_undivided {s : RunState Script Unit} (h : CalmRun s)
    : s.Quiet ∧ s.Undivided := by
  cases h with
  | inl hterminal =>
    constructor
    . intro hphase
      rw [hphase] at hterminal
      exact absurd hterminal id
    . constructor
      . intro hphase
        rw [hphase] at hterminal
        exact absurd hterminal id
      . intro hphase
        rw [hphase] at hterminal
        exact absurd hterminal id
  | inr h =>
    rcases h with ⟨phase, reads, unread, -, hcalm, -⟩
    exact ⟨hcalm.quiet, hcalm.undivided⟩

theorem acceptorRun_calm {reads : List Bytes}
    (hreads : ∀ chunk ∈ reads, chunk ≠ [] ∧ chunk.length ≤ 8192)
    (hframes : ∀ f ∈ (framer.frames reads.flatten).1, IsApplicationFrame f) (n : Nat)
    : (acceptorRun ((Session.new acceptorConfig 0).onLogon 0) reads n).Quiet
        ∧ (acceptorRun ((Session.new acceptorConfig 0).onLogon 0) reads n).Undivided := by
  have hcalm : CalmRun (acceptorRun ((Session.new acceptorConfig 0).onLogon 0) reads n) := by
    induction n with
    | zero =>
      refine .inr ⟨.poll, reads, [], .inl rfl, ?_, hreads, hframes⟩
      exact ⟨rfl, rfl, rfl, RecvBuffer.unread_new, rfl, .inl rfl, rfl, fun _ => rfl⟩
    | succ n ih =>
      unfold acceptorRun at ih ⊢
      rw [runOf_succ]
      apply ih.step
  exact hcalm.quiet_undivided

theorem observed_eq_of_split
    : (∃ n, (acceptorRun ((Session.new acceptorConfig 0).onLogon 0)
          [orderFrame 1] n).phase.Terminal)
        ∧ (∃ n, (acceptorRun ((Session.new acceptorConfig 0).onLogon 0)
          [(orderFrame 1).take 10, (orderFrame 1).drop 10] n).phase.Terminal)
        ∧ ∀ n1 n2,
          (acceptorRun ((Session.new acceptorConfig 0).onLogon 0) [orderFrame 1] n1).phase.Terminal →
          (acceptorRun ((Session.new acceptorConfig 0).onLogon 0)
            [(orderFrame 1).take 10, (orderFrame 1).drop 10] n2).phase.Terminal →
          observed (acceptorRun ((Session.new acceptorConfig 0).onLogon 0)
              [orderFrame 1] n1).engine.ctx.log
            = observed (acceptorRun ((Session.new acceptorConfig 0).onLogon 0)
              [(orderFrame 1).take 10, (orderFrame 1).drop 10] n2).engine.ctx.log := by
  have hframes : ∀ f ∈ (framer.frames (orderFrame 1)).1, IsApplicationFrame f := by
    have hsplit := (peerFrame_order 1).isFrame.frames_append _ []
    rw [List.append_nil] at hsplit
    rw [hsplit, framer.frames_of_cut_none rfl]
    simpa using (peerFrame_order 1).isApplicationFrame (by decide)
  have hflatten1 : [orderFrame 1].flatten = orderFrame 1 := by simp
  have hflatten2 : [(orderFrame 1).take 10, (orderFrame 1).drop 10].flatten = orderFrame 1 := by
    simp
  have hreads1 : ∀ chunk ∈ [orderFrame 1], chunk ≠ [] ∧ chunk.length ≤ 8192 := by
    decide +kernel
  have hreads2 : ∀ chunk ∈ [(orderFrame 1).take 10, (orderFrame 1).drop 10],
      chunk ≠ [] ∧ chunk.length ≤ 8192 := by
    decide +kernel
  have hframes1 := hframes
  have hframes2 := hframes
  rw [← hflatten1] at hframes1
  rw [← hflatten2] at hframes2
  exact observed_eq_of_flatten_eq silentApp () ((Session.new acceptorConfig 0).onLogon 0)
    .runAcceptor stoppedClock stoppedClock (hflatten1.trans hflatten2.symm) hreads1 hreads2
    (fun n => (acceptorRun_calm hreads1 hframes1 n).1)
    (fun n => (acceptorRun_calm hreads2 hframes2 n).1)
    (fun n => (acceptorRun_calm hreads1 hframes1 n).2)
    (fun n => (acceptorRun_calm hreads2 hframes2 n).2)

theorem observed_of_mem {log : List Event} {ev ev' : Event} (hmem : ev ∈ log)
    (hobservable : ev.observable = some ev')
    : ev' ∈ observed log := by
  rw [observed, List.mem_filterMap]
  exact ⟨ev, hmem, hobservable⟩

-- What a run has logged stays in the log.
theorem mem_log_runFor [Transport T] (app : FixApp A) {s : RunState T A}
    (hparser : s.engine.parser = .new) {ev : Event} (hmem : ev ∈ s.engine.ctx.log) (n : Nat)
    : ev ∈ (runFor app n s).engine.ctx.log := by
  let I (s : RunState T A) : Prop := ev ∈ s.engine.ctx.log
  change I (runFor app n s)
  apply runFor_invariant app hparser hmem
  . intro s s' evs hstep hs
    change ev ∈ s'.engine.ctx.log
    rw [hstep.log]
    apply List.mem_append_left _ hs
  . intro s s' frame evs hstep hs
    change ev ∈ s'.engine.ctx.log
    rw [hstep.log]
    apply List.mem_append_left _ hs

-- The acceptor that is still disconnected at the end of a read stops.
theorem runFor_two_of_disconnected [Transport T] (app : FixApp A) {e : FixEngine T} (a : A)
    (htake : e.recv.takeFrame = none) (hstate : e.ctx.session.state = .disconnected)
    : runFor app 2 ⟨e, a, .process⟩ = RunState.finish { e with shouldStop := true } a := by
  have hbatch : RunState.step app ⟨e, a, .process⟩ = ⟨{ e with shouldStop := true }, a, .poll⟩ := by
    simp [RunState.step, RunState.process, htake, FixEngine.endBatch, hstate,
      RunState.settleEngine]
  have hrun : runFor app 2 ⟨e, a, .process⟩
      = RunState.step app (RunState.step app ⟨e, a, .process⟩) := rfl
  rw [hrun, hbatch]
  simp [RunState.step, RunState.poll]

theorem acceptorRun_logon_split
    : (acceptorRun (.new acceptorConfig 0) [(logonFrame 1).take 10, (logonFrame 1).drop 10]
          3).phase.Terminal
        ∧ observed (acceptorRun (.new acceptorConfig 0)
            [(logonFrame 1).take 10, (logonFrame 1).drop 10] 3).engine.ctx.log
          = [] := by
  have hcut : framer.cut ((logonFrame 1).take 10) = none := by decide +kernel
  have hlen : ((logonFrame 1).take 10).length ≤ 8192 := by decide +kernel
  have hne : (logonFrame 1).take 10 ≠ [] := by decide +kernel
  have hone := acceptorRun_one [(logonFrame 1).drop 10] quiet_new hlen hne
  have hunread := runOf_script_one_unread silentApp () [(logonFrame 1).drop 10]
    (.new acceptorConfig 0) stoppedClock quiet_new hlen hne
  change (acceptorRun _ _ 1).engine.recv.unread = _ at hunread
  have hrun : acceptorRun (.new acceptorConfig 0) [(logonFrame 1).take 10, (logonFrame 1).drop 10] 3
      = runFor silentApp 2 (acceptorRun (.new acceptorConfig 0)
          [(logonFrame 1).take 10, (logonFrame 1).drop 10] 1) := by
    apply runFor_add silentApp 1 2
  rw [hone] at hrun hunread
  have htake : (RunState.receiveChunk (RunState.timer (.new (Script.mk
      [(logonFrame 1).take 10, (logonFrame 1).drop 10]) (.new acceptorConfig 0) stoppedClock)).2
      ((logonFrame 1).take 10) [(logonFrame 1).drop 10]).recv.takeFrame = none := by
    rw [RecvBuffer.takeFrame_eq_none, hunread]
    exact hcut
  rw [hrun, runFor_two_of_disconnected silentApp () htake rfl]
  exact ⟨trivial, rfl⟩

theorem acceptorRun_logon
    : .onLogon ∈ (acceptorRun (.new acceptorConfig 0) [logonFrame 1] 2).engine.ctx.log := by
  rcases acceptorRun_two [] quiet_new (peerFrame_logon 1) with ⟨evs, htook⟩
  rcases htook.recv with ⟨recv, htake, -⟩
  rcases (peerFrame_logon 1).exists_view with ⟨view, hview, hkind, hseq⟩
  rcases acceptorRun_awaits with ⟨hsession, hcan⟩
  have hparser := (run_fields silentApp () (Script.mk [logonFrame 1]) (.new acceptorConfig 0)
    stoppedClock .runAcceptor 1).1
  have hphase := htook.phase
  have hstep : acceptorRun (.new acceptorConfig 0) [logonFrame 1] 2
      = RunState.step silentApp (acceptorRun (.new acceptorConfig 0) [logonFrame 1] 1) := by
    apply runOf_succ
  rw [hstep]
  change (acceptorRun _ _ 1).engine.parser = .new at hparser
  generalize acceptorRun (.new acceptorConfig 0) [logonFrame 1] 1 = s at *
  cases s with
  | mk e a phase =>
    dsimp only at hphase hsession hcan hparser htake
    rw [hphase]
    have hawaits : e.ctx.session.AwaitsLogon := by
      rw [hsession]
      exact .inl rfl
    have hle : 1 ≤ e.ctx.session.expectedInboundSeqNum := by
      rw [hsession]
      decide
    have hlog : _ <+: (RunState.process silentApp e a).engine.ctx.log :=
      (RunState.process_acknowledges_iff a hparser htake hview hkind hseq hawaits).mpr
        ⟨hle, fun _ => hcan⟩
    apply hlog.subset
    rw [hsession]
    simp [acknowledgement, Session.new, acceptorConfig]

-- A Logon that is split between two reads ends the run, a Logon in one read is answered.
theorem not_observed_eq_of_split
    : (acceptorRun (.new acceptorConfig 0) [(logonFrame 1).take 10, (logonFrame 1).drop 10]
          3).phase.Terminal
        ∧ observed (acceptorRun (.new acceptorConfig 0)
            [(logonFrame 1).take 10, (logonFrame 1).drop 10] 3).engine.ctx.log
          = []
        ∧ ∀ n, .onLogon
          ∈ observed (acceptorRun (.new acceptorConfig 0) [logonFrame 1] (2 + n)).engine.ctx.log := by
  refine ⟨acceptorRun_logon_split.1, acceptorRun_logon_split.2, ?_⟩
  intro n
  have hparser := (run_fields silentApp () (Script.mk [logonFrame 1]) (.new acceptorConfig 0)
    stoppedClock .runAcceptor 2).1
  have hrun : acceptorRun (.new acceptorConfig 0) [logonFrame 1] (2 + n)
      = runFor silentApp n (acceptorRun (.new acceptorConfig 0) [logonFrame 1] 2) := by
    apply runFor_add
  rw [hrun]
  apply observed_of_mem (mem_log_runFor silentApp hparser acceptorRun_logon n)
  rfl

end Velocitas
