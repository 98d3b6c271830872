import VelocitasFix.Transport.Aeron

/-!
This module contains a channel with two engines on it, one that runs as initiator and one that runs
as acceptor. Whoever moves enters its loop or goes on with it; the queue of the channel is shared.
-/

namespace Velocitas

structure Party (A : Type) where
  started : Bool
  state : RunState AeronTransport A

namespace Party

variable {A : Type}

def new (transport : AeronTransport) (session : Session) (clock : Clock) (a : A) : Party A where
  started := false
  state := FixEngine.atRest (.new transport session clock) a

def ctx (p : Party A) : EngineContext AeronTransport := p.state.engine.ctx

def bus (p : Party A) : Option AeronBus := p.ctx.transport.bus

-- What the other endpoint did to the queue is seen here as well.
def share (p : Party A) (bus : Option AeronBus) : Party A :=
  let engine := p.state.engine
  let transport := { engine.ctx.transport with bus }
  { p with state := { p.state with engine := { engine with ctx := { engine.ctx with transport } } } }

def advance (entry : Entry) (app : FixApp A) (p : Party A) : Party A :=
  if p.started then
    { p with state := p.state.step app }
  else
    { started := true, state := entry.start p.state.engine p.state.app }

end Party

structure Channel (A B : Type) where
  initiator : Party A
  acceptor : Party B

namespace Channel

variable {A B : Type}

inductive Move where
  | initiator
  | acceptor
  deriving DecidableEq, Repr

-- Both endpoints are open and nothing was sent yet.
def fresh (initiatorId acceptorId : UInt64) (initiatorSession acceptorSession : Session)
    (initiatorClock acceptorClock : Clock) (a : A) (b : B)
    : Channel A B :=
  let bus : AeronBus := { frames := [] }
  { initiator := .new ((AeronTransport.new initiatorId).connect bus) initiatorSession
      initiatorClock a
    acceptor := .new ((AeronTransport.new acceptorId).bind bus) acceptorSession acceptorClock b }

def step (initiatorApp : FixApp A) (acceptorApp : FixApp B) (c : Channel A B) : Move → Channel A B
  | .initiator =>
    let initiator := c.initiator.advance .runInitiator initiatorApp
    { initiator, acceptor := c.acceptor.share initiator.bus }
  | .acceptor =>
    let acceptor := c.acceptor.advance .runAcceptor acceptorApp
    { initiator := c.initiator.share acceptor.bus, acceptor }

def run (initiatorApp : FixApp A) (acceptorApp : FixApp B) (moves : List Move) (c : Channel A B)
    : Channel A B :=
  moves.foldl (step initiatorApp acceptorApp) c

end Channel

end Velocitas
