import VelocitasFix.Engine.Preserved

/-!
This module contains the inbound side of an engine, over any transport that says what it still holds:
a relation between what is pending and what the loop has received survives every step, if it survives
a read. The relation of a byte stream is one instance.
-/

namespace Velocitas

variable {T A : Type} [Transport T]

theorem FixEngine.sendBuilt_transport (e : FixEngine T) (message : Builder)
    : (e.sendBuilt message).state.ctx.transport = e.ctx.transport
        ∨ ∃ data, (e.sendBuilt message).state.ctx.transport
          = (Transport.send e.ctx.transport data).2 := by
  unfold sendBuilt
  dsimp only [Session.nextOutboundSeqNum]
  unfold transmit
  split
  . exact .inl rfl
  . right
    simp only [EngineContext.send]
    split
    all_goals
      next heq =>
        injection heq with _ heq
        rw [← heq]
        exact ⟨_, rfl⟩

theorem EngineContext.sendRaw_transport (ctx : EngineContext T) (data : Bytes)
    : (ctx.sendRaw data).2.transport = (Transport.send ctx.transport data).2 := by
  unfold sendRaw send
  cases Transport.send ctx.transport data with
  | mk res transport =>
    cases res with
    | error err => rfl
    | ok k => rfl

omit [Transport T] in
theorem FixEngine.received_of_sends {e e' : FixEngine T} (h : e.Sends e')
    : received e'.ctx.log = received e.ctx.log := by
  obtain ⟨msgs, hlog⟩ := h.log
  rw [hlog, received_append, received_map_sent, List.append_nil]

theorem FixEngine.received_endBatch (e : FixEngine T) (a : A)
    : received e.endBatch.state.ctx.log = received e.ctx.log := by
  obtain ⟨evs, hidle⟩ := RunState.idle_endBatch e a
  have hunread := hidle.unread
  have hlog := hidle.log
  rw [settleEngine_engine] at hunread hlog
  have hrecv : e.endBatch.state.recv = e.recv := by
    have hsent := (e.sendBuilt_sends logoutMessage).1.recv
    unfold endBatch
    split
    . rfl
    . generalize e.sendBuilt logoutMessage = o at hsent
      cases o with
      | next e' => exact hsent
      | halt reason e' =>
        cases reason with
        | error err => exact hsent
        | panic => exact hsent
    . rfl
  dsimp only at hunread hlog
  rw [hrecv, List.self_eq_append_right] at hunread
  rw [hlog, received_append, hunread, List.append_nil]

section Pending

variable {Q : Type} {pending : T → Q}
  (hsend : ∀ (t : T) (data : Bytes), pending (Transport.send t data).2 = pending t)

include hsend

theorem pending_run {α : Type} (prog : AppProg α) (ctx : EngineContext T)
    : pending (prog.run ctx).2.transport = pending ctx.transport := by
  induction prog generalizing ctx with
  | done result => rfl
  | sendRaw data next ih =>
    apply (ih (ctx.sendRaw data).1 (ctx.sendRaw data).2).trans
    rw [ctx.sendRaw_transport, hsend]
  | session next ih => exact ih _ ctx
  | requestStop next ih => exact ih _

-- Sending does not change what is left to be read.
theorem preserved_pending (app : FixApp A) (held : Q)
    : Preserved app Preserved.allKinds
        (fun ctx : EngineContext T => pending ctx.transport = held) := by
  constructor
  case quiet =>
    intro ctx ctx' hquiet hheld
    rw [hquiet.transport]
    exact hheld
  case built =>
    intro message _ e _ hheld
    cases e.sendBuilt_transport message with
    | inl hsame =>
      rw [hsame]
      exact hheld
    | inr hsent =>
      obtain ⟨data, hsent⟩ := hsent
      rw [hsent, hsend]
      exact hheld
  case onLogon => exact fun a ctx hheld => (pending_run hsend _ ctx).trans hheld
  case onMessage => exact fun a msgType view ctx hheld => (pending_run hsend _ ctx).trans hheld

variable {J : Q → Bytes → Prop}
  (hreceive : ∀ (e : FixEngine T) (a : A), J (pending e.ctx.transport) (received e.ctx.log) →
    J (pending (RunState.receive e a).engine.ctx.transport)
      (received (RunState.receive e a).engine.ctx.log))
  (hclose : ∀ (t : T) (bytes : Bytes), J (pending t) bytes →
    J (pending (Transport.close t).2) bytes)

include hreceive hclose

theorem RunState.poll_inbound (app : FixApp A) {e : FixEngine T} (a : A)
    (hlen : e.sendBuf.length = 4096) (h : J (pending e.ctx.transport) (received e.ctx.log))
    : J (pending (poll e a).engine.ctx.transport) (received (poll e a).engine.ctx.log) := by
  have hpolled := (preserved_pending hsend app _).polled (by simp [Preserved.allKinds]) a hlen rfl
  generalize poll e a = s at hpolled
  cases hpolled with
  | finished e' _ hlog hpending =>
    apply hclose
    change J (pending e'.ctx.transport) (received e'.ctx.log)
    rw [hpending, hlog]
    exact h
  | halted reason e' hsends hpending =>
    rw [hpending, FixEngine.received_of_sends hsends]
    exact h
  | received e' _ hsends _ hpending =>
    apply hreceive
    rw [hpending, FixEngine.received_of_sends hsends]
    exact h

theorem RunState.step_inbound (app : FixApp A) {s : RunState T A}
    (hparser : s.engine.parser = .new) (hlen : s.engine.sendBuf.length = 4096)
    (h : J (pending s.engine.ctx.transport) (received s.engine.ctx.log))
    : J (pending (step app s).engine.ctx.transport) (received (step app s).engine.ctx.log) := by
  have hpreserved := preserved_pending hsend app (pending s.engine.ctx.transport)
  cases s with
  | mk e a phase =>
    cases phase with
    | poll => exact poll_inbound hsend hreceive hclose app a hlen h
    | returned res => exact h
    | panicked => exact h
    | process =>
      cases htake : e.recv.takeFrame with
      | none =>
        have hprocess : step app ⟨e, a, .process⟩ = .settleEngine .poll a e.endBatch := by
          simp only [step, process, htake]
        rw [hprocess, settleEngine_engine, e.received_endBatch a,
          hpreserved.endBatch (fun _ => by simp [Preserved.allKinds]) hlen rfl]
        exact h
      | some res =>
        obtain ⟨evs, htook⟩ := @took_process _ _ _ app e a _ _ hparser htake
        have hheld := hpreserved.process (by simp [Preserved.allKinds])
          (by simp [Preserved.allKinds]) a hparser htake
          (fun _ _ _ => by simp [Preserved.allKinds]) hlen rfl
        change J (pending (process app e a).engine.ctx.transport)
          (received (process app e a).engine.ctx.log)
        rw [hheld, htook.taken_received.2]
        exact h

end Pending

-- `pending` is what is left to be read, as long as the transport is open.
structure Inbound (pending : T → Option Bytes) : Prop where
  send : ∀ (t : T) (data : Bytes), pending (Transport.send t data).2 = pending t
  recv : ∀ {t t' : T} {n : Nat} {data : Bytes}, Transport.recv t n = (.ok data, t') →
    ∃ bytes, pending t = some (data ++ bytes) ∧ pending t' = some bytes
  recv_error : ∀ {t t' : T} {n : Nat} {err : ErrorKind}, Transport.recv t n = (.error err, t') →
    pending t' = pending t
  close : ∀ t : T, pending (Transport.close t).2 = none ∨ pending (Transport.close t).2 = pending t

-- What was received are the first bytes of the stream, and the others are still to come.
structure Continues (stream : Bytes) (pending : Option Bytes) (received : Bytes) : Prop where
  isPrefix : received <+: stream
  rest : ∀ bytes, pending = some bytes → received ++ bytes = stream

def FixEngine.Streams (pending : T → Option Bytes) (stream : Bytes) (e : FixEngine T) : Prop :=
  Continues stream (pending e.ctx.transport) (received e.ctx.log)

omit [Transport T] in
theorem Continues.close {stream received : Bytes} {pending pending' : Option Bytes}
    (h : Continues stream pending received) (hclose : pending' = none ∨ pending' = pending)
    : Continues stream pending' received := by
  cases hclose with
  | inl hnone =>
    rw [hnone]
    exact ⟨h.isPrefix, fun _ hbytes => nomatch hbytes⟩
  | inr hsame =>
    rw [hsame]
    exact h

namespace Inbound

variable {pending : T → Option Bytes} {stream : Bytes} (hin : Inbound pending)

include hin

theorem receive (e : FixEngine T) (a : A) (h : e.Streams pending stream)
    : (RunState.receive e a).engine.Streams pending stream := by
  unfold RunState.receive
  cases hrecv : Transport.recv e.ctx.transport 8192 with
  | mk res transport =>
    cases res with
    | ok data =>
      obtain ⟨bytes, hbefore, hafter⟩ := hin.recv hrecv
      have hall := h.rest _ hbefore
      have hcontinues {log : List Event} (hlog : received log ++ bytes = stream)
          : Continues stream (pending transport) (received log) := by
        refine ⟨⟨bytes, hlog⟩, ?_⟩
        intro bytes' hbytes
        rw [← Option.some.inj (hafter.symm.trans hbytes)]
        exact hlog
      dsimp only
      split
      . next hlen =>
        rw [List.length_eq_zero_iff.mp hlen] at hall
        exact hcontinues hall
      . have hlog : received (e.ctx.log ++ [.received data]) ++ bytes = stream := by
          rw [received_append, List.append_assoc]
          simpa [received, Event.chunk] using hall
        exact hcontinues hlog
    | error err =>
      have hsame := hin.recv_error hrecv
      have h' : Continues stream (pending transport) (received e.ctx.log) := by
        rw [hsame]
        exact h
      dsimp only
      split
      . have hlog : received (e.ctx.log ++ [.disconnected]) = received e.ctx.log := by
          rw [received_append]
          exact List.append_nil _
        change Continues stream _ (received (e.ctx.log ++ [.disconnected]))
        rw [hlog]
        exact h'.close (hin.close transport)
      . exact h'

theorem step (app : FixApp A) {s : RunState T A} (hparser : s.engine.parser = .new)
    (hlen : s.engine.sendBuf.length = 4096) (h : s.engine.Streams pending stream)
    : (RunState.step app s).engine.Streams pending stream :=
  RunState.step_inbound hin.send hin.receive (fun t _ hJ => hJ.close (hin.close t)) app hparser hlen h

theorem runFor (app : FixApp A) {s : RunState T A} (hparser : s.engine.parser = .new)
    (hlen : s.engine.sendBuf.length = 4096) (h : s.engine.Streams pending stream) (n : Nat)
    : (Velocitas.runFor app n s).engine.Streams pending stream := by
  have hall : (Velocitas.runFor app n s).engine.parser = .new
      ∧ (Velocitas.runFor app n s).engine.sendBuf.length = 4096
      ∧ (Velocitas.runFor app n s).engine.Streams pending stream := by
    induction n with
    | zero => exact ⟨hparser, hlen, h⟩
    | succ n ih =>
      rw [runFor_succ]
      have hstreams := hin.step app ih.1 ih.2.1 ih.2.2
      have hfields := RunState.step_fields app ih.1
      exact ⟨hfields.1.trans ih.1, hfields.2.trans ih.2.1, hstreams⟩
  exact hall.2.2

end Inbound

end Velocitas
