import VelocitasFix.Engine.Context
import VelocitasFix.Serializer.Orders

/-!
This module contains the two applications of the session demo: a trader that sends one order once it
is logged on, and an exchange that fills each order it gets.
-/

namespace Velocitas

open Ascii

-- Sends what was built, or panics. A panic ends the run as an error does; `crashed` is then the app.
def AppProg.transmit {A : Type} (built : Option (FixSerializer × Nat)) (sent crashed : A)
    : AppProg (Except ErrorKind Unit × A) :=
  match built with
  | none => .done (.error (.other 101), crashed)
  | some (ser, len) => .sendRaw (ser.buffer.take len) fun res => .done (res, sent)

structure ExchangeApp where
  clock : Clock
  crashed : Bool

namespace ExchangeApp

def new (clock : Clock) : ExchangeApp where
  clock := clock
  crashed := false

def clOrdId (msg : MessageView) : Bytes := (msg.getField Tags.clOrdId).getD (ascii "?")

def symbol (msg : MessageView) : Bytes := (msg.getField Tags.symbol).getD (ascii "?")

def qty (msg : MessageView) : Int64 := (msg.getFieldI64 Tags.orderQty).getD 0

def onMessage (a : ExchangeApp) (msgType : Bytes) (msg : MessageView)
    : AppProg (Except ErrorKind Unit × ExchangeApp) :=
  if msgType = ascii "D" then
    let ts := a.clock.timestamp
    let a := { a with clock := a.clock.tick }
    .session fun session =>
      let qty := qty msg
      let built := FixSerializer.buildExecutionReport (List.replicate 2048 0) (ascii "FIX.4.4")
        session.config.senderCompId session.config.targetCompId session.currentOutboundSeqNum ts
        (ascii "ORD-001") (ascii "EXEC-001") (clOrdId msg) (symbol msg) 49 qty qty (ascii "178.55")
        0 qty (ascii "178.55") 70 50
      .transmit built a { a with crashed := true }
  else
    .done (.ok (), a)

def app : FixApp ExchangeApp where
  onLogon a := .done (.ok (), a)
  onMessage := onMessage
  onLogout a := (.ok (), a)

end ExchangeApp

structure TraderApp where
  symbol : Bytes
  qty : Int64
  done : Bool
  clock : Clock
  crashed : Bool

namespace TraderApp

def new (symbol : Bytes) (qty : Int64) (clock : Clock) : TraderApp where
  symbol := symbol
  qty := qty
  done := false
  clock := clock
  crashed := false

def onLogon (a : TraderApp) : AppProg (Except ErrorKind Unit × TraderApp) :=
  let ts := a.clock.timestamp
  let a := { a with clock := a.clock.tick }
  .session fun session =>
    let built := FixSerializer.buildNewOrderSingle (List.replicate 1024 0) (ascii "FIX.4.4")
      session.config.senderCompId session.config.targetCompId session.currentOutboundSeqNum ts
      (ascii "ORD-001") a.symbol 49 a.qty 50 (ascii "178.55")
    .transmit built a { a with crashed := true }

def onMessage (a : TraderApp) (msgType : Bytes) (_ : MessageView)
    : AppProg (Except ErrorKind Unit × TraderApp) :=
  if msgType = ascii "8" ∧ ¬ a.done then
    .requestStop (.done (.ok (), { a with done := true }))
  else
    .done (.ok (), a)

def app : FixApp TraderApp where
  onLogon := onLogon
  onMessage := onMessage
  onLogout a := (.ok (), a)

end TraderApp

end Velocitas
