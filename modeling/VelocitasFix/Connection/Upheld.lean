import VelocitasFix.Connection.Agreement
import VelocitasFix.Engine.Application
import Mathlib.Data.List.Induction

/-!
This module contains the step from what the callbacks of two applications preserve to what holds of
both in every run of their connection.
-/

namespace Velocitas

variable {A B : Type}

-- What holds of a process that runs the application, and has perhaps not started.
structure Peer.Keeping (config : SessionConfig) (R E : A → List Event → Prop) (p : Peer A)
    : Prop where
  state : FixApp.Upholds.Keeping config R E p.state
  fresh : p.started = false → Holds config R (p.state.engine, p.state.app)

namespace Peer.Keeping

variable {config : SessionConfig} {R E : A → List Event → Prop} {p : Peer A}

theorem new {app : FixApp A} (happ : app.Upholds (StdTcpTransport TcpEnd) config R E)
    (t : StdTcpTransport TcpEnd) (now : Instant) (clock : Clock) {a : A} (hR : R a [])
    : Keeping config R E (.new (.new t (.new config now) clock) a) := by
  refine ⟨⟨⟨rfl, happ.ended a [] hR⟩, ?_⟩, fun _ => ⟨rfl, hR⟩⟩
  intro hrunning
  simp [Peer.new, FixEngine.atRest] at hrunning

theorem mapStream (h : p.Keeping config R E) (f : TcpEnd → TcpEnd)
    : (p.mapStream f).Keeping config R E :=
  ⟨⟨h.state.ended, h.state.running⟩, h.fresh⟩

theorem advance {app : FixApp A} (happ : app.Upholds (StdTcpTransport TcpEnd) config R E)
    (entry : Entry) (hparser : p.state.engine.parser = .new) (h : p.Keeping config R E)
    : (p.advance entry app).Keeping config R E := by
  unfold Peer.advance
  split
  . next hstarted =>
    refine ⟨happ.step hparser h.state, ?_⟩
    intro hfresh
    exact absurd (hstarted.symm.trans hfresh) (by decide)
  . next hstarted =>
    refine ⟨happ.start entry (h.fresh (by simpa using hstarted)), ?_⟩
    intro hfresh
    contradiction

theorem log_ended (h : p.Keeping config R E) : E p.state.app (appLog p.ctx.log) :=
  h.state.ended.2

end Peer.Keeping

namespace Connection

variable {clientApp : FixApp A} {serverApp : FixApp B} {config : FixClientConfig}
  {config' : SessionConfig}
  (hclient : clientApp.Converses (StdTcpTransport TcpEnd) config.sessionConfig)
  (hserver : serverApp.Converses (StdTcpTransport TcpEnd) config')
  (hsoh : config.sessionConfig.SohFree) (hsoh' : config'.SohFree)
  (hfits : config.sessionConfig.Fits) (hfits' : config'.Fits)
  {R E : A → List Event → Prop} {R' E' : B → List Event → Prop}
  (hupholds : clientApp.Upholds (StdTcpTransport TcpEnd) config.sessionConfig R E)
  (hupholds' : serverApp.Upholds (StdTcpTransport TcpEnd) config' R' E')

structure Keeping (config : FixClientConfig) (config' : SessionConfig)
    (R E : A → List Event → Prop) (R' E' : B → List Event → Prop) (c : Connection A B)
    : Prop where
  sound : c.Sound config config'
  client : c.client.Keeping config.sessionConfig R E
  server : c.server.Keeping config' R' E'

-- A move runs a process, or the network does something to its end of the connection.
theorem client_step (c : Connection A B) (move : Move)
    : (c.step clientApp serverApp move).client = c.client
        ∨ (∃ f, (c.step clientApp serverApp move).client = c.client.mapStream f)
        ∨ (c.step clientApp serverApp move).client
          = (c.client.advance .runInitiator clientApp).mapStream .flush := by
  cases move with
  | client => exact .inr (.inr rfl)
  | server => exact .inl rfl
  | arriveAtServer n => exact .inl rfl
  | arriveAtClient n => exact .inr (.inl ⟨_, rfl⟩)
  | finishServer =>
    unfold step
    dsimp only
    split
    . exact .inl rfl
    . exact .inl rfl
  | finishClient =>
    unfold step
    dsimp only
    split
    . exact .inr (.inl ⟨_, rfl⟩)
    . exact .inl rfl

theorem server_step (c : Connection A B) (move : Move)
    : (c.step clientApp serverApp move).server = c.server
        ∨ (∃ f, (c.step clientApp serverApp move).server = c.server.mapStream f)
        ∨ (c.step clientApp serverApp move).server
          = (c.server.advance .runAcceptor serverApp).mapStream .flush := by
  cases move with
  | client => exact .inl rfl
  | server => exact .inr (.inr rfl)
  | arriveAtServer n => exact .inr (.inl ⟨_, rfl⟩)
  | arriveAtClient n => exact .inl rfl
  | finishServer =>
    unfold step
    dsimp only
    split
    . exact .inr (.inl ⟨_, rfl⟩)
    . exact .inl rfl
  | finishClient =>
    unfold step
    dsimp only
    split
    . exact .inl rfl
    . exact .inl rfl

theorem step_guarded {I : A → Prop} [DecidablePred I] {c : Connection A B} (move : Move)
    (hI : I c.client.state.app) (hparser : c.client.state.engine.parser = .new)
    : c.step clientApp serverApp move = c.step (clientApp.guarded I) serverApp move := by
  have hadvance : c.client.advance .runInitiator clientApp
      = c.client.advance .runInitiator (clientApp.guarded I) := by
    unfold Peer.advance
    rw [(FixApp.same_guarded hI).step hparser]
  cases move with
  | client =>
    unfold step
    dsimp only
    rw [hadvance]
  | _ => rfl

-- A client that stays in the states for which it is meant runs as if it were guarded.
theorem run_guarded {I : A → Prop} [DecidablePred I] {c : Connection A B}
    (h : ∀ moves, I (c.run (clientApp.guarded I) serverApp moves).client.state.app
      ∧ (c.run (clientApp.guarded I) serverApp moves).Sound config config')
    (moves : List Move)
    : c.run clientApp serverApp moves = c.run (clientApp.guarded I) serverApp moves := by
  induction moves using List.reverseRecOn with
  | nil => rfl
  | append_singleton moves move ih =>
    obtain ⟨hI, _, _, hlinked⟩ := h moves
    unfold run at ih hI hlinked ⊢
    rw [List.foldl_append, List.foldl_append, ih]
    exact step_guarded move hI hlinked.first.parser

-- The application of the client is called to act once, whatever the network does.
theorem step_logsOnOnce {c : Connection A B} (move : Move) (hsound : c.Sound config config')
    (h : c.client.state.LogsOnOnce)
    : (c.step clientApp serverApp move).client.state.LogsOnOnce := by
  have hkept (p : Peer A) (f : TcpEnd → TcpEnd) (hp : p.state.LogsOnOnce)
      : (p.mapStream f).state.LogsOnOnce :=
    ⟨hp.role, hp.waiting, hp.once⟩
  obtain ⟨_, _, hlinked⟩ := hsound
  rcases @client_step _ _ clientApp serverApp c move with hsame | ⟨f, hmapped⟩ | hran
  . rw [hsame]
    exact h
  . rw [hmapped]
    exact hkept _ _ h
  . rw [hran]
    apply hkept
    unfold Peer.advance
    split
    . exact h.step clientApp hlinked.first.parser
    . next hstarted =>
      obtain ⟨transport, now, clock, hnew⟩ := hlinked.first.fresh (by simpa using hstarted)
      apply RunState.LogsOnOnce.start
      . exact h.role
      . rw [hnew]
        rfl

include hclient hserver hsoh hsoh' hfits hfits'

-- What one move preserves holds after any number of moves.
theorem run_induction {P : Connection A B → Prop}
    (hP : ∀ (c : Connection A B) (move : Move), c.Sound config config' → P c →
      P (c.step clientApp serverApp move))
    {c : Connection A B} (moves : List Move) (hsound : c.Sound config config') (h : P c)
    : P (c.run clientApp serverApp moves) := by
  induction moves generalizing c with
  | nil => exact h
  | cons move moves ih =>
    apply ih
    . exact step_sound clientApp serverApp hclient hserver hsoh hsoh' hfits hfits' move hsound
    . exact hP c move hsound h

theorem exists_logsOnOnce (fates fates' : Nat → Fate) (now now' : Instant) (clock clock' : Clock)
    (a : A) (b : B)
    : ∃ c : Connection A B,
        establish config config' fates fates' now now' clock clock' a b = .ok c
          ∧ ∀ moves, (c.run clientApp serverApp moves).client.state.LogsOnOnce := by
  obtain ⟨c, hopen, hsound⟩ := exists_established clientApp serverApp hclient hserver hsoh hsoh'
    hfits hfits' fates fates' now now' clock clock' a b
  refine ⟨c, hopen, ?_⟩
  intro moves
  apply run_induction hclient hserver hsoh hsoh' hfits hfits'
    (fun c move hsound h => step_logsOnOnce move hsound h) moves (hsound [])
  injection hopen with hopen
  rw [← hopen]
  exact ⟨rfl, fun _ => rfl, Nat.zero_le 1⟩

include hupholds hupholds'

theorem step_keeping {c : Connection A B} (move : Move) (h : c.Keeping config config' R E R' E')
    : (c.step clientApp serverApp move).Keeping config config' R E R' E' := by
  have hsound := step_sound clientApp serverApp hclient hserver hsoh hsoh' hfits hfits' move h.sound
  obtain ⟨_, _, hlinked⟩ := h.sound
  refine ⟨hsound, ?_, ?_⟩
  . rcases @client_step _ _ clientApp serverApp c move with hsame | ⟨f, hmapped⟩ | hran
    . rw [hsame]
      exact h.client
    . rw [hmapped]
      exact h.client.mapStream f
    . rw [hran]
      exact (h.client.advance hupholds .runInitiator hlinked.first.parser).mapStream _
  . rcases @server_step _ _ clientApp serverApp c move with hsame | ⟨f, hmapped⟩ | hran
    . rw [hsame]
      exact h.server
    . rw [hmapped]
      exact h.server.mapStream f
    . rw [hran]
      exact (h.server.advance hupholds' .runAcceptor hlinked.second.parser).mapStream _

-- What the two applications preserve holds of them in every run.
theorem exists_keeping (fates fates' : Nat → Fate) (now now' : Instant) (clock clock' : Clock)
    {a : A} {b : B} (hR : R a []) (hR' : R' b [])
    : ∃ c : Connection A B,
        establish config config' fates fates' now now' clock clock' a b = .ok c
          ∧ ∀ moves, (c.run clientApp serverApp moves).Keeping config config' R E R' E' := by
  obtain ⟨c, hopen, hsound⟩ := exists_established clientApp serverApp hclient hserver hsoh hsoh'
    hfits hfits' fates fates' now now' clock clock' a b
  refine ⟨c, hopen, ?_⟩
  intro moves
  apply run_induction hclient hserver hsoh hsoh' hfits hfits'
    (fun c move _ h =>
      step_keeping hclient hserver hsoh hsoh' hfits hfits' hupholds hupholds' move h)
    moves (hsound [])
  refine ⟨hsound [], ?_, ?_⟩
  . injection hopen with hopen
    rw [← hopen]
    exact .new hupholds _ now clock hR
  . injection hopen with hopen
    rw [← hopen]
    exact .new hupholds' _ now' clock' hR'

end Connection

end Velocitas
