import VelocitasFix.Engine.Preserved

/-!
This module contains the life of an engine in the hands of its embedder, who calls its entry points
in any order, with any application, each one after the call before it has returned.
-/

namespace Velocitas

variable {T A : Type} [Transport T]

inductive Call where
  | runInitiator
  | runAcceptor
  | handleInboundLogon
  | initiateLogout
  deriving DecidableEq, Repr

namespace Call

def start (call : Call) (e : FixEngine T) (a : A) : RunState T A :=
  match call with
  | .runInitiator => .settleEngine .poll a e.connect.sendLogon
  | .runAcceptor => { engine := e, app := a, phase := .poll }
  | .handleInboundLogon => .settleEngine (.returned (.ok ())) a e.handleInboundLogon
  | .initiateLogout => .settleEngine (.returned (.ok ())) a e.initiateLogout

end Call

-- The call with which the loop is entered; the server goes on to the loop after its call.
def Entry.call : Entry → Call
  | .runInitiator => .runInitiator
  | .runAcceptor => .runAcceptor
  | .handleInboundLogon => .handleInboundLogon

theorem Entry.start_engine (entry : Entry) (e : FixEngine T) (a : A)
    : (entry.start e a).engine = (entry.call.start e a).engine := by
  cases entry with
  | runInitiator => rfl
  | runAcceptor => rfl
  | handleInboundLogon => simp only [start, call, Call.start, settleEngine_engine]

-- An engine that no call is running on.
def FixEngine.atRest (e : FixEngine T) (a : A) : RunState T A :=
  { engine := e, app := a, phase := .returned (.ok ()) }

inductive Reachable (app : FixApp A) (start : RunState T A) : RunState T A → Prop where
  | refl : Reachable app start start
  | step {s : RunState T A} (h : Reachable app start s) : Reachable app start (s.step app)
  | call {s : RunState T A} {res : Except ErrorKind Unit} (call : Call) (a : A)
    (h : Reachable app start s) (hreturned : s.phase = .returned res)
    : Reachable app start (call.start s.engine a)

section

variable {app : FixApp A}

theorem Reachable.first (call : Call) (e : FixEngine T) (a : A)
    : Reachable app (e.atRest a) (call.start e a) :=
  .call (s := e.atRest a) call a .refl rfl

theorem Reachable.runFor {start s : RunState T A} (h : Reachable app start s) (n : Nat)
    : Reachable app start (runFor app n s) := by
  induction n with
  | zero => exact h
  | succ n ih =>
    rw [runFor_succ]
    exact ih.step

theorem Call.start_fields (call : Call) (e : FixEngine T) (a : A)
    : (call.start e a).engine.parser = e.parser
        ∧ (call.start e a).engine.sendBuf.length = e.sendBuf.length := by
  cases call with
  | runInitiator =>
    have hsends := e.sends_connect.trans e.connect.sendLogon_sends
    simp only [start, settleEngine_engine]
    exact ⟨hsends.parser, hsends.sendBuf⟩
  | runAcceptor => exact ⟨rfl, rfl⟩
  | handleInboundLogon =>
    have hsends := (e.sends_connect.trans (FixEngine.sends_onLogon _))
    have hsent := (((e.connect.atInstant .onLogon).record .handledLogon)).sendLogon_sends
    simp only [start, settleEngine_engine]
    exact ⟨hsent.parser.trans hsends.parser, hsent.sendBuf.trans hsends.sendBuf⟩
  | initiateLogout =>
    have hsends := e.sendLogout_sends
    simp only [start, settleEngine_engine]
    exact ⟨hsends.parser, hsends.sendBuf⟩

theorem Preserved.start {P : EngineContext T → Prop} (h : Preserved app allKinds P) (call : Call)
    {e : FixEngine T} (a : A) (hlen : e.sendBuf.length = 4096) (hP : P e.ctx)
    : P (call.start e a).engine.ctx := by
  cases call with
  | runInitiator =>
    simp only [Call.start, settleEngine_engine]
    exact h.sendLogon (e := e.connect) (by simp [allKinds]) hlen (h.quiet e.quiet_connect hP)
  | runAcceptor => exact hP
  | handleInboundLogon =>
    simp only [Call.start, settleEngine_engine]
    have hlogon := h.quiet e.connect.quiet_onLogon (h.quiet e.quiet_connect hP)
    exact h.sendLogon (e := (e.connect.atInstant .onLogon).record .handledLogon)
      (by simp [allKinds]) hlen (h.quiet ((e.connect.atInstant .onLogon).quiet_record rfl) hlogon)
  | initiateLogout =>
    simp only [Call.start, settleEngine_engine]
    exact h.sendLogout (by simp [allKinds]) hlen hP

theorem Reachable.preserved {P : EngineContext T → Prop} (h : Preserved app Preserved.allKinds P)
    (hpassive : Preserved.Passive P) {start s : RunState T A} (hparser : start.engine.parser = .new)
    (hlen : start.engine.sendBuf.length = 4096) (hP : P start.engine.ctx)
    (hreach : Reachable app start s)
    : s.engine.parser = .new ∧ s.engine.sendBuf.length = 4096 ∧ P s.engine.ctx := by
  induction hreach with
  | refl => exact ⟨hparser, hlen, hP⟩
  | @step s _ ih =>
    cases ih with
    | intro hparser hrest =>
      have hfields := s.step_fields app hparser
      exact ⟨hfields.1.trans hparser, hfields.2.trans hrest.1,
        h.step hpassive hparser hrest.1 hrest.2⟩
  | @call s res call a _ _ ih =>
    have hfields := call.start_fields s.engine a
    exact ⟨hfields.1.trans ih.1, hfields.2.trans ih.2.1, h.start call a ih.2.1 ih.2.2⟩

end

end Velocitas
