import VelocitasFix.Data.Pointwise
import VelocitasFix.Trading.Fills

/-!
This module contains the proof that the trader of the session demo gets what it ordered: it sends one
order at most, each report that it hears fills this order, and it is done once it has heard one.
-/

namespace Velocitas

open Ascii

theorem logons_appLog (log : List Event) : logons (appLog log) = logons log := by
  unfold logons appLog
  rw [List.countP_filter]
  apply List.countP_congr
  intro event _
  cases event <;> simp [Event.isLogon, Event.isApp]

theorem logons_record (log : List Event) (event : Event)
    : logons (log ++ [event]) = logons log + if event.isLogon then 1 else 0 := by
  rw [logons, List.countP_append, List.countP_singleton]
  rfl

-- What the receiver reads of an order of the trader.
structure Placed (symbol : Bytes) (qty : Int64) (order : MessageView) : Prop where
  msgType : order.msgType = some (ascii "D")
  clOrdId : order.getField Tags.clOrdId = some (ascii "ORD-001")
  symbol : order.getField Tags.symbol = some symbol
  orderQty : order.getFieldI64 Tags.orderQty = some qty

namespace TraderApp

def order (symbol : Bytes) (qty : Int64) (session : SessionView) (ts : Bytes) : OutMessage :=
  .newOrderSingle (ascii "FIX.4.4") session.config.senderCompId session.config.targetCompId
    session.currentOutboundSeqNum ts (ascii "ORD-001") symbol 49 qty 50 (ascii "178.55")

-- The names leave room for the rest of the order.
structure Fits (config : SessionConfig) (symbol : Bytes) : Prop where
  sohFree : Tags.soh ∉ symbol
  length_le : config.senderCompId.length + config.targetCompId.length + symbol.length ≤ 600

section Order

variable {symbol : Bytes} {qty : Int64} {session : SessionView} {t : HrTimestamp}
  (hfits : Fits session.config symbol)

include hfits

theorem length_order_le
    : (order symbol qty session t.toFixTimestamp).bytes.length ≤ 1024 := by
  apply Nat.le_trans OutMessage.length_newOrderSingle_le
  have hbegin : (ascii "FIX.4.4").length = 7 := rfl
  have hclOrdId : (ascii "ORD-001").length = 7 := rfl
  have hprice : (ascii "178.55").length = 6 := rfl
  have hnames := hfits.length_le
  rw [t.length_toFixTimestamp, hbegin, hclOrdId, hprice]
  omega

variable (hsoh : session.config.SohFree)

include hsoh

theorem readable_order
    : (order symbol qty session t.toFixTimestamp).Readable session.currentOutboundSeqNum := by
  have htime := HrTimestamp.sohFree_toFixTimestamp t
  have hbegin : Tags.soh ∉ ascii "FIX.4.4" := by decide
  have hclOrdId : Tags.soh ∉ ascii "ORD-001" := by decide
  have hprice : Tags.soh ∉ ascii "178.55" := by decide
  apply OutMessage.readable_newOrderSingle hbegin hsoh.2.1 hsoh.2.2 htime hclOrdId hfits.sohFree
    (by decide) (by decide) hprice
  have hle := @length_order_le _ qty _ t hfits
  change (order symbol qty session t.toFixTimestamp).bytes.length ≤ 65536
  omega

theorem conveyable_order
    : (order symbol qty session t.toFixTimestamp).Conveyable session.currentOutboundSeqNum where
  toReadable := readable_order hfits hsoh
  application := by
    change ascii "D" ∉ [MsgType.logon, MsgType.heartbeat, MsgType.testRequest, MsgType.logout]
    decide
  length_le_read := by
    have hle := @length_order_le _ qty _ t hfits
    omega

theorem placed_order
    : ∃ view, accepted (order symbol qty session t.toFixTimestamp).bytes = some view
        ∧ Placed symbol qty view := by
  obtain ⟨view, hparse, hread⟩ := (@readable_order _ qty _ t hfits hsoh).exists_readBy
    OutMessage.distinct_newOrderSingle
  refine ⟨view, by rw [accepted, hparse], ?_⟩
  constructor
  . exact hread.msgType
  . apply hread.str
    simp [order, OutMessage.newOrderSingle]
  . apply hread.str
    simp [order, OutMessage.newOrderSingle]
  . apply hread.int
    simp [order, OutMessage.newOrderSingle]

end Order

-- What is true of the trader at any time, also when the run has ended.
structure Trades (symbol : Bytes) (qty : Int64) (a : TraderApp) (log : List Event) : Prop where
  running : a.crashed = false
  symbol_eq : a.symbol = symbol
  qty_eq : a.qty = qty
  placed : ∀ frame ∈ sentByApp log, ∃ order, accepted frame = some order ∧ Placed symbol qty order
  length_eq : (sentByApp log).length = logons log
  done_iff : a.done = true
    ↔ ∃ frame ∈ delivered log, ∃ report, accepted frame = some report
      ∧ report.msgType = some (ascii "8")

theorem trades_new (symbol : Bytes) (qty : Int64) (wall : Clock)
    : Trades symbol qty (.new symbol qty wall) [] where
  running := rfl
  symbol_eq := rfl
  qty_eq := rfl
  placed := fun _ hframe => absurd hframe List.not_mem_nil
  length_eq := rfl
  done_iff := by simp [new, delivered]

-- The number of orders follows that of the calls which place them.
theorem trades_appLog {symbol : Bytes} {qty : Int64} {a : TraderApp} {log : List Event}
    : Trades symbol qty a (appLog log) ↔ Trades symbol qty a log := by
  constructor
  . intro h
    have hplaced := h.placed
    have hlength := h.length_eq
    have hdone := h.done_iff
    rw [sentByApp_appLog] at hplaced hlength
    rw [logons_appLog] at hlength
    rw [delivered_appLog] at hdone
    exact ⟨h.running, h.symbol_eq, h.qty_eq, hplaced, hlength, hdone⟩
  . intro h
    constructor
    . exact h.running
    . exact h.symbol_eq
    . exact h.qty_eq
    . rw [sentByApp_appLog]
      exact h.placed
    . rw [sentByApp_appLog, logons_appLog]
      exact h.length_eq
    . rw [delivered_appLog]
      exact h.done_iff

section Run

variable {T : Type} [Transport T] {config : SessionConfig} {symbol : Bytes} {qty : Int64}
  {a : TraderApp} {ctx : EngineContext T}

-- A new order: `on_logon` has been called once more, and one more message has been sent.
theorem returned_onLogon (hsoh : config.SohFree) (hfits : Fits config symbol)
    (hconfig : ctx.session.config = config) (h : Trades symbol qty a (appLog ctx.log))
    : Returned (Trades symbol qty) (Trades symbol qty) ((onLogon a).run (ctx.record .onLogon)) := by
  rw [trades_appLog] at h
  have hsession : ctx.session.view.config = config := hconfig
  have hsoh' : ctx.session.view.config.SohFree := hsession ▸ hsoh
  have hfits' : Fits ctx.session.view.config symbol := hsession ▸ hfits
  unfold onLogon
  apply @AppProg.returned_transmit _ _ _ _
    (order a.symbol a.qty ctx.session.view a.clock.timestamp)
  . intro _ res ctx' hlog
    have htrades : Trades symbol qty { a with clock := a.clock.tick } (appLog ctx'.log) := by
      rw [trades_appLog, hlog]
      change Trades symbol qty { a with clock := a.clock.tick }
        (ctx.log ++ [.onLogon] ++ [.sent (.raw _)])
      constructor
      . exact h.running
      . exact h.symbol_eq
      . exact h.qty_eq
      . intro frame hframe
        rw [sentByApp_sent, sentByApp_record _ rfl, List.mem_append, List.mem_singleton] at hframe
        cases hframe with
        | inl hframe => exact h.placed frame hframe
        | inr hframe =>
          rw [hframe, h.symbol_eq, h.qty_eq]
          exact placed_order hfits' hsoh'
      . rw [sentByApp_sent, sentByApp_record _ rfl, logons_record, logons_record,
          List.length_append, h.length_eq]
        rfl
      . rw [delivered_sent, delivered_append]
        change _ ↔ ∃ frame ∈ delivered ctx.log ++ [], _
        rw [List.append_nil]
        exact h.done_iff
    cases res with
    | ok _ => exact htrades
    | error err => exact htrades
  . intro hlt
    rw [List.length_replicate, h.symbol_eq] at hlt
    have hle := @length_order_le symbol a.qty ctx.session.view ⟨a.clock.wall a.clock.reads⟩ hfits'
    exact absurd hlt (Nat.not_lt.mpr hle)

-- A report finishes the trader, and nothing else does.
theorem returned_onMessage {msgType : Bytes} {view : MessageView} (hview : view.Parsed msgType)
    (expected : UInt64) (h : Trades symbol qty a (appLog ctx.log))
    : Returned (Trades symbol qty) (Trades symbol qty)
        ((onMessage a msgType view).run (ctx.record (.onMessage msgType view expected))) := by
  rw [trades_appLog] at h
  have hkept (done : Bool) (hdone : done = true ↔ a.done = true ∨ msgType = ascii "8")
      : Trades symbol qty { a with done } (ctx.log ++ [.onMessage msgType view expected]) := by
    constructor
    . exact h.running
    . exact h.symbol_eq
    . exact h.qty_eq
    . rw [sentByApp_record _ rfl]
      exact h.placed
    . rw [sentByApp_record _ rfl, logons_record]
      exact h.length_eq
    . change done = true ↔ _
      rw [hdone, h.done_iff, delivered_record]
      simp only [List.mem_append, List.mem_singleton, or_and_right, exists_or, exists_eq_left,
        hview.1, hview.2, Option.some.injEq, exists_eq_left']
  unfold onMessage
  split
  . next hreport =>
    change Trades symbol qty { a with done := true } (appLog (_ ++ [_]))
    rw [trades_appLog]
    exact hkept true (by simp [hreport.1])
  . next hother =>
    change Trades symbol qty a (appLog (_ ++ [_]))
    rw [trades_appLog]
    apply hkept a.done
    constructor
    . exact .inl
    . intro hdone
      cases hdone with
      | inl hdone => exact hdone
      | inr htype =>
        by_contra hnot
        exact hother ⟨htype, hnot⟩

theorem upholds (hsoh : config.SohFree) (hfits : Fits config symbol)
    : app.Upholds T config (Trades symbol qty) (Trades symbol qty) where
  ended := fun _ _ h => h
  onLogon := fun _ _ hconfig h => returned_onLogon hsoh hfits hconfig h
  onMessage := fun _ _ _ expected _ _ hview h => returned_onMessage hview expected h
  onLogout := fun _ _ h => h

-- The symbol of a trader never changes, so the bound on it is one on every state.
def guarded (symbol : Bytes) : FixApp TraderApp := app.guarded fun a => a.symbol = symbol

theorem converses_guarded (hsoh : config.SohFree) (hfits : Fits config symbol)
    : (guarded symbol).Converses T config := by
  apply FixApp.converses_guarded
  rintro a rfl ctx hconfig
  have hsession : ctx.session.view.config = config := hconfig
  have hconveys : (onLogon a).Conveys ctx := by
    change AppProg.Conveys (.transmit (FixSerializer.serialize _
      (order a.symbol a.qty ctx.session.view a.clock.timestamp)) _ _) ctx
    apply AppProg.conveys_transmit
    intro _
    apply conveyable_order
    . exact hsession ▸ hfits
    . exact hsession ▸ hsoh
  refine ⟨hconveys, ?_⟩
  intro msgType view _
  change (onMessage a msgType view).Conveys ctx
  unfold onMessage
  split
  . trivial
  . trivial

end Run

end TraderApp

-- What the trader reads of a report of the exchange.
structure Executed (symbol : Bytes) (qty : Int64) (report : MessageView) : Prop where
  msgType : report.msgType = some (ascii "8")
  clOrdId : report.getField Tags.clOrdId = some (ascii "ORD-001")
  symbol : report.getField Tags.symbol = some symbol
  orderQty : report.getFieldI64 Tags.orderQty = some qty
  lastQty : report.getFieldI64 Tags.lastQty = some qty
  cumQty : report.getFieldI64 Tags.cumQty = some qty
  leavesQty : report.getFieldI64 Tags.leavesQty = some 0
  ordStatus : report.getField Tags.ordStatus = some [50]

namespace Placed

variable {symbol : Bytes} {qty : Int64} {order report : MessageView} (h : Placed symbol qty order)

include h

theorem executed (hfilled : Filled order report) : Executed symbol qty report := by
  have hclOrdId : ExchangeApp.clOrdId order = ascii "ORD-001" := by
    rw [ExchangeApp.clOrdId, h.clOrdId, Option.getD_some]
  have hsymbol : ExchangeApp.symbol order = symbol := by
    rw [ExchangeApp.symbol, h.symbol, Option.getD_some]
  have hqty : ExchangeApp.qty order = qty := by
    rw [ExchangeApp.qty, h.orderQty, Option.getD_some]
  constructor
  . exact hfilled.msgType
  . rw [hfilled.clOrdId, hclOrdId]
  . rw [hfilled.symbol, hsymbol]
  . rw [hfilled.orderQty, hqty]
  . rw [hfilled.lastQty, hqty]
  . rw [hfilled.cumQty, hqty]
  . exact hfilled.leavesQty
  . exact hfilled.ordStatus

theorem fits {config : SessionConfig} (hsymbol : symbol.length ≤ 600)
    (hnames : config.senderCompId.length + config.targetCompId.length ≤ 800)
    : ExchangeApp.Fits config order := by
  have hclOrdId : (ascii "ORD-001").length = 7 := rfl
  unfold ExchangeApp.Fits ExchangeApp.clOrdId ExchangeApp.symbol
  rw [h.clOrdId, h.symbol, Option.getD_some, Option.getD_some, hclOrdId]
  omega

end Placed

namespace Connection

section Demo

variable {symbol : Bytes} {qty : Int64} {config : FixClientConfig} {config' : SessionConfig}
  (hsoh : config.sessionConfig.SohFree) (hsoh' : config'.SohFree)
  (hfits : config.sessionConfig.Fits) (hfits' : config'.Fits)
  (htrader : TraderApp.Fits config.sessionConfig symbol)
  (fates fates' : Nat → Fate) (now now' : Instant) (clock clock' wall wall' : Clock)

-- A run of the demo: what the two applications do, and that the trader is called to act only once.
structure Demo (symbol : Bytes) (qty : Int64) (config : FixClientConfig) (config' : SessionConfig)
    (c : Connection TraderApp ExchangeApp) : Prop where
  keeping : c.Keeping config config' (TraderApp.Trades symbol qty) (TraderApp.Trades symbol qty)
    ExchangeApp.Answered (ExchangeApp.Ended config')
  once : c.client.state.LogsOnOnce

include hsoh hsoh' hfits hfits' htrader

theorem exists_demo
    : ∃ c : Connection TraderApp ExchangeApp,
        establish config config' fates fates' now now' clock clock' (.new symbol qty wall)
            (.new wall') = .ok c
          ∧ ∀ moves, (c.run TraderApp.app ExchangeApp.app moves).Demo symbol qty config config' := by
  have hclient := @TraderApp.converses_guarded (StdTcpTransport TcpEnd) _ _ _ hsoh htrader
  have hserver := @ExchangeApp.converses (StdTcpTransport TcpEnd) _ _ hsoh'
  have hupholds := (@TraderApp.upholds (StdTcpTransport TcpEnd) _ _ _ qty hsoh htrader).guarded
    (I := fun a => a.symbol = symbol) fun _ _ h => h.symbol_eq
  obtain ⟨c, hopen, hkeeping⟩ := exists_keeping hclient hserver hsoh hsoh' hfits hfits' hupholds
    (ExchangeApp.upholds hsoh') fates fates' now now' clock clock'
    (TraderApp.trades_new symbol qty wall) (ExchangeApp.answered_new wall')
  obtain ⟨c', hopen', honce⟩ := exists_logsOnOnce hclient hserver hsoh hsoh' hfits hfits' fates
    fates' now now' clock clock' (.new symbol qty wall) (.new wall')
  rw [hopen, Except.ok.injEq] at hopen'
  subst hopen'
  refine ⟨c, hopen, ?_⟩
  intro moves
  have hguarded (moves : List Move)
      : c.run TraderApp.app ExchangeApp.app moves
          = c.run (TraderApp.guarded symbol) ExchangeApp.app moves :=
    run_guarded (fun moves => ⟨(hkeeping moves).client.log_ended.symbol_eq, (hkeeping moves).sound⟩)
      moves
  rw [hguarded]
  exact ⟨hkeeping moves, honce moves⟩

omit htrader in
-- All that the exchange hears are orders of the trader, which it can report on.
theorem Demo.exchange_running {c : Connection TraderApp ExchangeApp}
    (h : c.Demo symbol qty config config') (hsymbol : symbol.length ≤ 600)
    (hnames : config'.senderCompId.length + config'.targetCompId.length ≤ 800)
    : c.server.state.app.crashed = false := by
  by_contra hcrashed
  rw [Bool.not_eq_false] at hcrashed
  obtain ⟨frame, hframe, order, horder, hlong⟩ := h.keeping.server.log_ended.crashed hcrashed
  rw [delivered_appLog] at hframe
  have hsent := (h.keeping.sound.agree hsoh hsoh' hfits hfits').1.subset hframe
  have htrades := TraderApp.trades_appLog.mp h.keeping.client.log_ended
  obtain ⟨order', horder', hplaced⟩ := htrades.placed frame hsent
  rw [horder, Option.some.injEq] at horder'
  subst horder'
  exact hlong (hplaced.fits hsymbol hnames)

end Demo

end Connection

end Velocitas
