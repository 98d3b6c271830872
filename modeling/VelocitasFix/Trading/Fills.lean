import VelocitasFix.Connection.Upheld
import VelocitasFix.Trading.Impl

/-!
This module contains the proof that over a connection each report of the exchange fills the order it
answers, in the order in which the orders were sent, whatever the network does.
-/

namespace Velocitas

open Ascii

namespace AppProg

variable {A T : Type} [Transport T] {buffer : Bytes} {m : OutMessage} {sent crashed : A}
  {ctx : EngineContext T}

theorem conveys_transmit
    (hm : m.bytes.length ≤ buffer.length → m.Conveyable ctx.session.currentOutboundSeqNum)
    : (transmit (FixSerializer.serialize buffer m) sent crashed).Conveys ctx := by
  unfold transmit
  split
  . trivial
  . next ser n hser =>
    obtain ⟨htake, hle⟩ := FixSerializer.take_of_serialize hser
    rw [htake]
    exact ⟨⟨m, rfl, hm hle⟩, trivial⟩

-- The message goes out, whatever becomes of it, or it does not fit the buffer.
theorem returned_transmit {R E : A → List Event → Prop}
    (hsent : m.bytes.length ≤ buffer.length → ∀ (res : Except ErrorKind Unit)
      (ctx' : EngineContext T), ctx'.log = ctx.log ++ [.sent (.raw m.bytes)] →
      Returned R E ((res, sent), ctx'))
    (hcrashed : buffer.length < m.bytes.length → E crashed (appLog ctx.log))
    : Returned R E ((transmit (FixSerializer.serialize buffer m) sent crashed).run ctx) := by
  unfold transmit
  split
  . next hnone =>
    apply hcrashed
    by_contra hle
    obtain ⟨ser, n, hser⟩ := FixSerializer.serialize_eq_some_iff.mpr (Nat.le_of_not_lt hle)
    rw [hnone] at hser
    contradiction
  . next ser n hser =>
    obtain ⟨htake, hle⟩ := FixSerializer.take_of_serialize hser
    rw [htake]
    apply hsent hle
    exact ctx.sendRaw_log m.bytes

end AppProg

-- What the exchange takes for an order.
def IsOrder (frame : Bytes) : Prop := ∃ view ∈ accepted frame, view.msgType = some (ascii "D")

instance : DecidablePred IsOrder := fun frame =>
  inferInstanceAs (Decidable (∃ view ∈ accepted frame, view.msgType = some (ascii "D")))

def orders (ms : List Bytes) : List Bytes := ms.filter (IsOrder ·)

-- The report says that the whole order is executed and that nothing of it is left.
structure Filled (order report : MessageView) : Prop where
  msgType : report.msgType = some (ascii "8")
  clOrdId : report.getField Tags.clOrdId = some (ExchangeApp.clOrdId order)
  symbol : report.getField Tags.symbol = some (ExchangeApp.symbol order)
  orderQty : report.getFieldI64 Tags.orderQty = some (ExchangeApp.qty order)
  lastQty : report.getFieldI64 Tags.lastQty = some (ExchangeApp.qty order)
  cumQty : report.getFieldI64 Tags.cumQty = some (ExchangeApp.qty order)
  leavesQty : report.getFieldI64 Tags.leavesQty = some 0
  ordStatus : report.getField Tags.ordStatus = some [50]

def Fills (order report : Bytes) : Prop :=
  ∃ o r, accepted order = some o ∧ accepted report = some r ∧ Filled o r

namespace ExchangeApp

def report (order : MessageView) (session : SessionView) (ts : Bytes) : OutMessage :=
  .executionReport (ascii "FIX.4.4") session.config.senderCompId session.config.targetCompId
    session.currentOutboundSeqNum ts (ascii "ORD-001") (ascii "EXEC-001") (clOrdId order)
    (symbol order) 49 (qty order) (qty order) (ascii "178.55") 0 (qty order) (ascii "178.55") 70 50

theorem sohFree_getD {view : MessageView} {msgType : Bytes} (hview : view.Parsed msgType)
    (tag : UInt32)
    : Tags.soh ∉ (view.getField tag).getD (ascii "?") := by
  cases hget : view.getField tag with
  | none => decide
  | some value =>
    have haccepted := hview.1
    unfold accepted at haccepted
    split at haccepted
    . next view' n hparse =>
      rw [Option.some.injEq] at haccepted
      subst haccepted
      rw [MessageView.getField_eq] at hget
      obtain ⟨entry, hentry, rfl⟩ := Option.map_eq_some_iff.mp hget
      exact FixParser.sohFree_of_mem_entries hparse (List.mem_of_find?_eq_some hentry)
    . contradiction

section Report

variable {order : MessageView} {msgType : Bytes} {session : SessionView} {t : HrTimestamp}
  (hview : order.Parsed msgType) (hsoh : session.config.SohFree)
  (hfits : (report order session t.toFixTimestamp).bytes.length ≤ 2048)

include hview hsoh hfits

theorem readable_report
    : (report order session t.toFixTimestamp).Readable session.currentOutboundSeqNum := by
  have htime := HrTimestamp.sohFree_toFixTimestamp t
  have hbegin : Tags.soh ∉ ascii "FIX.4.4" := by decide
  have horderId : Tags.soh ∉ ascii "ORD-001" := by decide
  have hexecId : Tags.soh ∉ ascii "EXEC-001" := by decide
  have hpx : Tags.soh ∉ ascii "178.55" := by decide
  apply OutMessage.readable_executionReport hbegin hsoh.2.1 hsoh.2.2 htime
    (sohFree_getD hview _) (sohFree_getD hview _) (by decide) horderId hexecId hpx hpx (by decide)
    (by decide)
  change (report order session t.toFixTimestamp).bytes.length ≤ 65536
  omega

theorem conveyable_report
    : (report order session t.toFixTimestamp).Conveyable session.currentOutboundSeqNum where
  toReadable := readable_report hview hsoh hfits
  application := by
    change ascii "8" ∉ [MsgType.logon, MsgType.heartbeat, MsgType.testRequest, MsgType.logout]
    decide
  length_le_read := by omega

theorem fills_report : Fills order.buffer (report order session t.toFixTimestamp).bytes := by
  obtain ⟨view, hparse, hread⟩ := (readable_report hview hsoh hfits).exists_readBy
    OutMessage.distinct_executionReport
  refine ⟨order, view, hview.1, by rw [accepted, hparse], ?_⟩
  constructor
  . exact hread.msgType
  . apply hread.str
    simp [report, OutMessage.executionReport]
  . apply hread.str
    simp [report, OutMessage.executionReport]
  . apply hread.int
    simp [report, OutMessage.executionReport]
  . apply hread.int
    simp [report, OutMessage.executionReport]
  . apply hread.int
    simp [report, OutMessage.executionReport]
  . apply hread.int
    simp [report, OutMessage.executionReport]
  . apply hread.str
    simp [report, OutMessage.executionReport]

end Report

-- An order whose fields leave room for the rest of the report.
def Fits (config : SessionConfig) (order : MessageView) : Prop :=
  config.senderCompId.length + config.targetCompId.length + (clOrdId order).length
    + (symbol order).length ≤ 1500

theorem length_report_le {order : MessageView} {session : SessionView}
    (h : Fits session.config order) (t : HrTimestamp)
    : (report order session t.toFixTimestamp).bytes.length ≤ 2048 := by
  apply Nat.le_trans OutMessage.length_executionReport_le
  have hbegin : (ascii "FIX.4.4").length = 7 := rfl
  have horderId : (ascii "ORD-001").length = 7 := rfl
  have hexecId : (ascii "EXEC-001").length = 8 := rfl
  have hpx : (ascii "178.55").length = 6 := rfl
  unfold Fits at h
  rw [t.length_toFixTimestamp, hbegin, horderId, hexecId, hpx]
  omega

section Run

variable {T : Type} [Transport T] {config : SessionConfig} (hsoh : config.SohFree)

include hsoh

theorem converses : app.Converses T config := by
  intro a ctx hconfig
  refine ⟨trivial, ?_⟩
  intro msgType view hview
  change (onMessage a msgType view).Conveys ctx
  unfold onMessage
  split
  . change AppProg.Conveys (.transmit (FixSerializer.serialize _
      (report view ctx.session.view a.clock.timestamp)) _ _) ctx
    apply AppProg.conveys_transmit
    intro hle
    apply conveyable_report hview
    . change ctx.session.config.SohFree
      rw [hconfig]
      exact hsoh
    . rw [List.length_replicate] at hle
      exact hle
  . trivial

end Run

end ExchangeApp

theorem isOrder_iff {view : MessageView} {msgType : Bytes} (h : view.Parsed msgType)
    : IsOrder view.buffer ↔ msgType = ascii "D" := by
  simp [IsOrder, h.1, h.2]

theorem delivered_record (log : List Event) (msgType : Bytes) (view : MessageView)
    (expected : UInt64)
    : delivered (log ++ [.onMessage msgType view expected]) = delivered log ++ [view.buffer] :=
  delivered_append _ _

theorem sentByApp_record (log : List Event) {event : Event} (h : event.outbound = none)
    : sentByApp (log ++ [event]) = sentByApp log := by
  simp [sentByApp, sentOf, h]

theorem delivered_sent (log : List Event) (data : Bytes)
    : delivered (log ++ [.sent (.raw data)]) = delivered log := by
  rw [delivered_append]
  exact List.append_nil _

theorem sentByApp_sent (log : List Event) (data : Bytes)
    : sentByApp (log ++ [.sent (.raw data)]) = sentByApp log ++ [data] := by
  unfold sentByApp
  rw [sentOf_append, List.filterMap_append]
  rfl

namespace ExchangeApp

-- As long as it runs, the exchange has answered all orders.
def Answered (a : ExchangeApp) (log : List Event) : Prop :=
  a.crashed = false ∧ List.Forall₂ Fills (orders (delivered log)) (sentByApp log)

structure Ended (config : SessionConfig) (a : ExchangeApp) (log : List Event) : Prop where
  answered : ∃ os, os <+: orders (delivered log) ∧ List.Forall₂ Fills os (sentByApp log)
  crashed : a.crashed = true →
    ∃ order ∈ delivered log, ∃ o, accepted order = some o ∧ ¬ Fits config o

theorem Answered.ended {config : SessionConfig} {a : ExchangeApp} {log : List Event}
    (h : Answered a log)
    : Ended config a log where
  answered := ⟨_, List.prefix_refl _, h.2⟩
  crashed := by
    intro hcrashed
    rw [h.1] at hcrashed
    contradiction

section Run

variable {T : Type} [Transport T] {config : SessionConfig} (hsoh : config.SohFree)
  {a : ExchangeApp} {view : MessageView} {msgType : Bytes} {ctx : EngineContext T}
  (hconfig : ctx.session.config = config) (hview : view.Parsed msgType)

include hsoh hconfig hview

-- The report goes out, or the exchange panics because it does not fit its buffer.
theorem returned_order (htype : msgType = ascii "D") (expected : UInt64)
    (h : Answered a (appLog ctx.log))
    : Returned Answered (Ended config)
        ((onMessage a msgType view).run (ctx.record (.onMessage msgType view expected))) := by
  have horder := (isOrder_iff hview).mpr htype
  obtain ⟨hrunning, hall⟩ := h
  rw [delivered_appLog, sentByApp_appLog] at hall
  unfold onMessage
  rw [if_pos htype]
  have hlast : orders (delivered ctx.log ++ [view.buffer])
      = orders (delivered ctx.log) ++ [view.buffer] := by
    rw [orders, List.filter_append, List.filter_singleton]
    simp [orders, horder]
  have hsoh' : ctx.session.view.config.SohFree := by
    change ctx.session.config.SohFree
    rw [hconfig]
    exact hsoh
  apply @AppProg.returned_transmit _ _ _ _ (report view ctx.session.view a.clock.timestamp)
  . intro hle res ctx' hlog
    rw [List.length_replicate] at hle
    have hanswered : Answered { a with clock := a.clock.tick } (appLog ctx'.log) := by
      refine ⟨hrunning, ?_⟩
      rw [delivered_appLog, sentByApp_appLog, hlog, delivered_sent, sentByApp_sent]
      change List.Forall₂ Fills
        (orders (delivered (ctx.log ++ [.onMessage msgType view expected])))
        (sentByApp (ctx.log ++ [.onMessage msgType view expected]) ++ _)
      rw [delivered_record, sentByApp_record _ rfl, hlast]
      apply List.rel_append hall
      exact .cons (fills_report hview hsoh' hle) .nil
    cases res with
    | ok _ => exact hanswered
    | error err => exact hanswered.ended
  . intro hlt
    rw [List.length_replicate] at hlt
    have hlog : appLog (ctx.record (.onMessage msgType view expected)).log
        = appLog (ctx.log ++ [.onMessage msgType view expected]) := rfl
    constructor
    . rw [hlog, delivered_appLog, sentByApp_appLog, delivered_record, sentByApp_record _ rfl, hlast]
      exact ⟨_, List.prefix_append _ _, hall⟩
    . intro _
      rw [hlog, delivered_appLog, delivered_record]
      refine ⟨view.buffer, List.mem_append_right _ List.mem_cons_self, view, hview.1, ?_⟩
      intro hfits
      rw [← hconfig] at hfits
      have hle := @length_report_le view ctx.session.view hfits ⟨a.clock.wall a.clock.reads⟩
      exact absurd hlt (Nat.not_lt.mpr hle)

omit hsoh hconfig in
theorem returned_other (htype : msgType ≠ ascii "D") (expected : UInt64)
    (h : Answered a (appLog ctx.log))
    : Returned Answered (Ended config)
        ((onMessage a msgType view).run (ctx.record (.onMessage msgType view expected))) := by
  have horder := mt (isOrder_iff hview).mp htype
  obtain ⟨hrunning, hall⟩ := h
  rw [delivered_appLog, sentByApp_appLog] at hall
  unfold onMessage
  rw [if_neg htype]
  refine ⟨hrunning, ?_⟩
  change List.Forall₂ Fills
    (orders (delivered (appLog (ctx.log ++ [.onMessage msgType view expected]))))
    (sentByApp (appLog (ctx.log ++ [.onMessage msgType view expected])))
  have hsame : orders (delivered ctx.log ++ [view.buffer]) = orders (delivered ctx.log) := by
    rw [orders, List.filter_append, List.filter_singleton]
    simp [orders, horder]
  rw [delivered_appLog, sentByApp_appLog, delivered_record, sentByApp_record _ rfl, hsame]
  exact hall

end Run

theorem upholds {T : Type} [Transport T] {config : SessionConfig} (hsoh : config.SohFree)
    : app.Upholds T config Answered (Ended config) where
  ended := fun _ _ h => h.ended
  onLogon := by
    intro a ctx _ h
    obtain ⟨hrunning, hall⟩ := h
    rw [delivered_appLog, sentByApp_appLog] at hall
    refine ⟨hrunning, ?_⟩
    change List.Forall₂ Fills (orders (delivered (appLog (ctx.log ++ [.onLogon]))))
      (sentByApp (appLog (ctx.log ++ [.onLogon])))
    have hdelivered : delivered (ctx.log ++ [.onLogon]) = delivered ctx.log := by
      rw [delivered_append]
      exact List.append_nil _
    rw [delivered_appLog, sentByApp_appLog, hdelivered, sentByApp_record _ rfl]
    exact hall
  onMessage := by
    intro a msgType view expected ctx hconfig hview h
    by_cases htype : msgType = ascii "D"
    . exact returned_order hsoh hconfig hview htype expected h
    . exact returned_other hview htype expected h
  onLogout := fun _ _ h => h

theorem answered_new (wall : Clock) : Answered (.new wall) [] := ⟨rfl, .nil⟩

end ExchangeApp

theorem orders_isPrefix {ms ms' : List Bytes} (h : ms <+: ms') : orders ms <+: orders ms' :=
  h.filter _

-- The first reports answer the first orders.
theorem Fills.of_isPrefix {os rs rs' : List Bytes} (h : List.Forall₂ Fills os rs)
    (hrs : rs' <+: rs)
    : ∃ os', os' <+: os ∧ List.Forall₂ Fills os' rs' := by
  obtain ⟨rest, rfl⟩ := hrs
  refine ⟨os.take rs'.length, List.take_prefix _ _, ?_⟩
  have htake := List.forall₂_take rs'.length h
  rw [List.take_left] at htake
  exact htake

namespace Connection

open StdTcpTransport

section Fills

variable {A : Type} {config : FixClientConfig} {config' : SessionConfig}
  (hsoh : config.sessionConfig.SohFree) (hsoh' : config'.SohFree)
  (hfits : config.sessionConfig.Fits) (hfits' : config'.Fits)

include hsoh hsoh' hfits hfits'

-- The client has got the first reports, and these answer the first orders of those that arrived.
theorem Keeping.fills {R E : A → List Event → Prop} {c : Connection A ExchangeApp}
    (h : c.Keeping config config' R E ExchangeApp.Answered (ExchangeApp.Ended config'))
    : ∃ os, os <+: orders (sentByApp c.client.ctx.log)
        ∧ List.Forall₂ Fills os (delivered c.client.ctx.log) := by
  obtain ⟨horders, hreports, -, -⟩ := h.sound.agree hsoh hsoh' hfits hfits'
  obtain ⟨os, hos, hall⟩ := h.server.log_ended.answered
  rw [sentByApp_appLog] at hall
  rw [delivered_appLog] at hos
  obtain ⟨os', hos', hall'⟩ := Fills.of_isPrefix hall hreports
  exact ⟨os', (hos'.trans hos).trans (orders_isPrefix horders), hall'⟩

end Fills

end Connection

end Velocitas
