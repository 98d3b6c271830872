import VelocitasFix.Engine.Conveyance
import VelocitasFix.Engine.Inbound

/-!
This module contains what an engine puts on a transport that may fail at any send, for good: what
left the engine are the first bytes of messages that the other side can read, numbered 1, 2, 3 and
so on, whatever the application does about a failed send.
-/

namespace Velocitas

variable {T A : Type}

-- The messages of one side, in the order in which they were handed to the transport.
structure Speech (config : SessionConfig) (msgs : List Outbound) : Prop where
  numbers : msgs.map Outbound.seqNum = countingUp msgs.length
  built : ∀ m, .built m ∈ msgs →
    ∃ message ∈ Preserved.allKinds, ∃ (seq : UInt64) (clock : Clock),
      m = message config seq clock.timestamp
  ofApp : ∀ data, .raw data ∈ msgs →
    ∃ (m : OutMessage) (seqNum : UInt64), data = m.bytes ∧ m.Conveyable seqNum

namespace Speech

variable {config : SessionConfig} {msgs : List Outbound}

theorem nil : Speech config [] where
  numbers := rfl
  built := fun _ hm => absurd hm List.not_mem_nil
  ofApp := fun _ hdata => absurd hdata List.not_mem_nil

theorem concat (h : Speech config msgs) {o : Outbound}
    (hnumber : o.seqNum = some (UInt64.ofNat (msgs.length + 1)))
    (hbuilt : ∀ m, o = .built m →
      ∃ message ∈ Preserved.allKinds, ∃ (seq : UInt64) (clock : Clock),
        m = message config seq clock.timestamp)
    (hofApp : ∀ data, o = .raw data →
      ∃ (m : OutMessage) (seqNum : UInt64), data = m.bytes ∧ m.Conveyable seqNum)
    : Speech config (msgs ++ [o]) where
  numbers := by
    rw [List.map_append, h.numbers, List.length_append, List.length_singleton, countingUp_succ,
      List.map_singleton, hnumber]
  built := by
    intro m hm
    rw [List.mem_append, List.mem_singleton] at hm
    cases hm with
    | inl hm => exact h.built m hm
    | inr hm => exact hbuilt m hm.symm
  ofApp := by
    intro data hdata
    rw [List.mem_append, List.mem_singleton] at hdata
    cases hdata with
    | inl hdata => exact h.ofApp data hdata
    | inr hdata => exact hofApp data hdata.symm

-- An engine whose transport never fails could have sent the same.
theorem exists_conveyed (h : Speech config msgs)
    : ∃ ctx : EngineContext Script,
        Conveyed config (fun _ _ => True) ctx ∧ sentOf ctx.log = msgs := by
  have hsent : sentOf (msgs.map Event.sent) = msgs := by
    unfold sentOf
    rw [List.filterMap_map]
    exact List.filterMap_some
  refine ⟨{ transport := .mk []
            session := { Session.new config 0 with
              outboundSeqNum := UInt64.ofNat (msgs.length + 1) }
            clock := stoppedClock
            log := msgs.map Event.sent },
    ⟨⟨reliable_script [], rfl, ?_, ?_, ?_⟩, ?_, trivial⟩, hsent⟩
  . change UInt64.ofNat (msgs.length + 1) = _
    rw [hsent]
  . rw [hsent]
    exact h.numbers
  . rw [hsent]
    exact h.built
  . rw [hsent]
    exact h.ofApp

variable (hsoh : config.SohFree) (hfits : config.Fits)

include hsoh hfits

theorem legible (h : Speech config msgs) : Legible (msgs.map Outbound.bytes) := by
  obtain ⟨ctx, hconveyed, rfl⟩ := h.exists_conveyed
  exact hconveyed.legible hsoh hfits

theorem filter_eq (h : Speech config msgs)
    : (msgs.map Outbound.bytes).filter (IsApplicationFrame ·) = msgs.filterMap Outbound.ofApp := by
  obtain ⟨ctx, hconveyed, rfl⟩ := h.exists_conveyed
  exact hconveyed.filter_sent hsoh hfits

end Speech

section Sending

variable [Transport T]

-- A send takes the whole message, or a part of it and then the transport is of no more use.
structure Outgoing (usable : T → Prop) (outbox : T → Bytes) : Prop where
  sent : ∀ {t t' : T} {data : Bytes} {k : Nat}, Transport.send t data = (.ok k, t') →
    usable t' ∧ outbox t' = outbox t ++ data
  failed : ∀ {t t' : T} {data : Bytes} {err : ErrorKind},
    Transport.send t data = (.error err, t') →
      ¬ usable t' ∧ ∃ part, part <+: data ∧ outbox t' = outbox t ++ part
  unusable : ∀ {t t' : T} {data : Bytes} {res : Except ErrorKind Nat}, ¬ usable t →
    Transport.send t data = (res, t') → ¬ usable t' ∧ outbox t' = outbox t
  received : ∀ (t : T) (n : Nat), (usable (Transport.recv t n).2 → usable t)
    ∧ outbox (Transport.recv t n).2 = outbox t
  closed : ∀ t : T, ¬ usable (Transport.close t).2 ∧ outbox (Transport.close t).2 <+: outbox t

-- A view of the parser, with its type.
def MessageView.Parsed (view : MessageView) (msgType : Bytes) : Prop :=
  accepted view.buffer = some view ∧ view.msgType = some msgType

instance (view : MessageView) (msgType : Bytes) : Decidable (view.Parsed msgType) :=
  inferInstanceAs (Decidable (_ ∧ _))

-- The application sends such messages whatever it is called with, in a session so configured.
def FixApp.Converses (T : Type) [Transport T] (config : SessionConfig) (app : FixApp A) : Prop :=
  ∀ (a : A) (ctx : EngineContext T), ctx.session.config = config → (app.onLogon a).Conveys ctx
    ∧ ∀ (msgType : Bytes) (view : MessageView), view.Parsed msgType →
      (app.onMessage a msgType view).Conveys ctx

-- The same application as far as an engine can tell.
def FixApp.onParsed (app : FixApp A) : FixApp A :=
  { app with
    onMessage := fun a msgType view =>
      if view.Parsed msgType then
        app.onMessage a msgType view
      else
        .done (.ok (), a) }

-- Two applications that do the same in one state, with every view that the parser makes.
structure FixApp.Same (app app' : FixApp A) (a : A) : Prop where
  onLogon : app.onLogon a = app'.onLogon a
  onMessage : ∀ (msgType : Bytes) (view : MessageView), view.Parsed msgType →
    app.onMessage a msgType view = app'.onMessage a msgType view
  onLogout : app.onLogout a = app'.onLogout a

theorem FixApp.same_onParsed (app : FixApp A) (a : A) : app.onParsed.Same app a where
  onLogon := rfl
  onMessage := fun _ _ hview => if_pos hview
  onLogout := rfl

theorem FixApp.Same.dispatch {app app' : FixApp A} {a : A} (h : app.Same app' a)
    (e : FixEngine T) {view : MessageView} (hview : accepted view.buffer = some view)
    (expected : UInt64)
    : e.dispatch app a view expected = e.dispatch app' a view expected := by
  unfold FixEngine.dispatch FixEngine.handleLogon FixEngine.handleLogout FixEngine.acceptLogon
  cases htype : view.msgType with
  | none => rfl
  | some msgType =>
    dsimp only
    rw [h.onLogon, h.onMessage msgType view ⟨hview, htype⟩, h.onLogout]

-- An engine does the same with both of them.
theorem FixApp.Same.step {app app' : FixApp A} {s : RunState T A} (h : app.Same app' s.app)
    (hparser : s.engine.parser = .new)
    : s.step app = s.step app' := by
  rcases s with ⟨e, a, phase⟩
  cases phase with
  | poll => rfl
  | returned res => rfl
  | panicked => rfl
  | process =>
    change RunState.process app e a = RunState.process app' e a
    unfold RunState.process
    cases htake : e.recv.takeFrame with
    | none => rfl
    | some res =>
      obtain ⟨frame, recv⟩ := res
      have hparser1 : (({ e with recv } : FixEngine T).record (.taken frame)).parser = .new :=
        hparser
      dsimp only
      cases haccepted : accepted frame with
      | none =>
        rw [RunState.processMessage_of_rejected app a hparser1 haccepted,
          RunState.processMessage_of_rejected app' a hparser1 haccepted]
      | some view =>
        have hview : accepted view.buffer = some view := by
          rw [buffer_of_accepted haccepted]
          exact haccepted
        rw [RunState.processMessage_of_accepted app a hparser1 haccepted,
          RunState.processMessage_of_accepted app' a hparser1 haccepted, h.dispatch _ hview]

theorem FixEngine.sendBuilt_of_fits {e : FixEngine T} {message : Builder}
    (hfits : (e.nextMessage message).bytes.length ≤ e.sendBuf.length)
    : (e.sendBuilt message).state.ctx.transport
          = (Transport.send e.ctx.transport (e.nextMessage message).bytes).2
        ∧ (e.sendBuilt message).state.ctx.session = e.ctx.session.nextOutboundSeqNum.2
        ∧ (e.sendBuilt message).state.ctx.log
          = e.ctx.log ++ [.sent (.built (e.nextMessage message))] := by
  obtain ⟨ser, hser, -, hbytes⟩ := FixSerializer.serialize_of_le hfits
  unfold sendBuilt
  dsimp only [Session.nextOutboundSeqNum]
  change FixSerializer.serialize e.sendBuf (message _ _ _) = _ at hser
  rw [hser]
  simp only [transmit, EngineContext.send, hbytes]
  split
  all_goals
    next heq =>
      injection heq with _ heq
      rw [← heq]
      exact ⟨rfl, rfl, rfl⟩

-- `gone` is what the transport has passed on already; `msgs` is all that the other side may hear.
structure Speaking (config : SessionConfig) (usable : T → Prop) (outbox : T → Bytes)
    (gone : Bytes) (ctx : EngineContext T) (msgs : List Outbound) : Prop where
  speech : Speech config msgs
  isPrefix : msgs <+: sentOf ctx.log
  bytes : gone ++ outbox ctx.transport <+: (msgs.map Outbound.bytes).flatten
  whole : usable ctx.transport → msgs = sentOf ctx.log
    ∧ gone ++ outbox ctx.transport = (msgs.map Outbound.bytes).flatten
    ∧ ctx.session.outboundSeqNum = UInt64.ofNat (msgs.length + 1)

structure Speaks (config : SessionConfig) (usable : T → Prop) (outbox : T → Bytes)
    (gone : Bytes) (ctx : EngineContext T) : Prop where
  config_eq : ctx.session.config = config
  exists_speaking : ∃ msgs, Speaking config usable outbox gone ctx msgs

namespace Speaks

variable {config : SessionConfig} {usable : T → Prop} {outbox : T → Bytes} {gone : Bytes}

omit [Transport T] in
theorem quiet {ctx ctx' : EngineContext T} (h : Speaks config usable outbox gone ctx)
    (hquiet : ctx.Quiet ctx')
    : Speaks config usable outbox gone ctx' where
  config_eq := hquiet.config.trans h.config_eq
  exists_speaking := by
    obtain ⟨msgs, hspeaking⟩ := h.exists_speaking
    refine ⟨msgs, hspeaking.speech, ?_, ?_, ?_⟩
    . rw [hquiet.sent]
      exact hspeaking.isPrefix
    . rw [hquiet.transport]
      exact hspeaking.bytes
    . rw [hquiet.transport, hquiet.sent, hquiet.outbound]
      exact hspeaking.whole

variable (hout : Outgoing usable outbox)

include hout

-- The transport is given one more message, which carries the outbound number.
theorem send {ctx ctx' : EngineContext T} (h : Speaks config usable outbox gone ctx) {o : Outbound}
    (htransport : ctx'.transport = (Transport.send ctx.transport o.bytes).2)
    (hconfig : ctx'.session.config = ctx.session.config)
    (houtbound : ∀ k, (Transport.send ctx.transport o.bytes).1 = .ok k →
      ctx'.session.outboundSeqNum = ctx.session.outboundSeqNum + 1)
    (hsent : sentOf ctx'.log = sentOf ctx.log ++ [o])
    (hnumber : o.seqNum = some ctx.session.outboundSeqNum)
    (hbuilt : ∀ m, o = .built m →
      ∃ message ∈ Preserved.allKinds, ∃ (seq : UInt64) (clock : Clock),
        m = message config seq clock.timestamp)
    (hofApp : ∀ data, o = .raw data →
      ∃ (m : OutMessage) (seqNum : UInt64), data = m.bytes ∧ m.Conveyable seqNum)
    : Speaks config usable outbox gone ctx' where
  config_eq := hconfig.trans h.config_eq
  exists_speaking := by
    obtain ⟨msgs, hspeaking⟩ := h.exists_speaking
    have hlonger : sentOf ctx.log <+: sentOf ctx'.log := by
      rw [hsent]
      exact List.prefix_append _ _
    cases hres : Transport.send ctx.transport o.bytes with
    | mk res transport =>
      rw [hres] at htransport houtbound
      dsimp only at htransport houtbound
      by_cases husable : usable ctx.transport
      . obtain ⟨hall, hbytes, hnext⟩ := hspeaking.whole husable
        rw [hnext] at hnumber houtbound
        have hspeech := hspeaking.speech.concat hnumber hbuilt hofApp
        have hflatten : ((msgs ++ [o]).map Outbound.bytes).flatten
            = gone ++ outbox ctx.transport ++ o.bytes := by
          rw [List.map_append, List.flatten_append, hbytes]
          simp
        have hsent' : msgs ++ [o] = sentOf ctx'.log := by rw [hsent, hall]
        refine ⟨msgs ++ [o], hspeech, hsent' ▸ List.prefix_refl _, ?_, ?_⟩
        . rw [hflatten, htransport, List.append_assoc]
          cases res with
          | ok k =>
            have hbox := (hout.sent hres).2
            exact hbox ▸ List.prefix_refl _
          | error err =>
            obtain ⟨-, part, hpart, hbox⟩ := hout.failed hres
            rw [hbox, List.prefix_append_right_inj, List.prefix_append_right_inj]
            exact hpart
        . intro husable'
          rw [htransport] at husable' ⊢
          cases res with
          | ok k =>
            refine ⟨hsent', ?_, ?_⟩
            . rw [hflatten, (hout.sent hres).2, List.append_assoc]
            . rw [houtbound k rfl, List.length_append, List.length_singleton]
              exact (UInt64.ofNat_add _ 1).symm
          | error err => exact absurd husable' (hout.failed hres).1
      . obtain ⟨hstill, hbox⟩ := hout.unusable husable hres
        refine ⟨msgs, hspeaking.speech, hspeaking.isPrefix.trans hlonger, ?_, ?_⟩
        . rw [htransport, hbox]
          exact hspeaking.bytes
        . intro husable'
          rw [htransport] at husable'
          exact absurd husable' hstill

theorem sendBuilt (hfits : config.Fits) {message : Builder} (hkind : message ∈ Preserved.allKinds)
    {e : FixEngine T} (hlen : e.sendBuf.length = 4096) (h : Speaks config usable outbox gone e.ctx)
    : Speaks config usable outbox gone (e.sendBuilt message).state.ctx := by
  have hm : (e.nextMessage message).bytes.length ≤ e.sendBuf.length := by
    unfold FixEngine.nextMessage
    rw [h.config_eq, hlen]
    exact hfits message hkind _ _
  obtain ⟨htransport, hsession, hlog⟩ := FixEngine.sendBuilt_of_fits hm
  apply h.send hout (o := .built (e.nextMessage message)) htransport
  . rw [hsession]
    rfl
  . intro k _
    rw [hsession]
    rfl
  . rw [hlog, sentOf_append]
    rfl
  . exact seqNum_of_mem_allKinds hkind _ _ _
  . intro m hm
    injection hm with hm
    rw [← hm, FixEngine.nextMessage, h.config_eq]
    exact ⟨message, hkind, _, _, rfl⟩
  . intro data hdata
    contradiction

theorem sendRaw {ctx : EngineContext T} (h : Speaks config usable outbox gone ctx) {m : OutMessage}
    (hm : m.Conveyable ctx.session.currentOutboundSeqNum)
    : Speaks config usable outbox gone (ctx.sendRaw m.bytes).2 := by
  have hlog := ctx.sendRaw_log m.bytes
  apply h.send hout (o := .raw m.bytes) (ctx.sendRaw_transport m.bytes)
  . unfold EngineContext.sendRaw EngineContext.send
    cases Transport.send ctx.transport m.bytes with
    | mk res transport =>
      cases res with
      | error err => rfl
      | ok k => rfl
  . intro k hk
    exact (ctx.sendRaw_of_ok hk).outbound
  . rw [hlog, sentOf_append]
    rfl
  . exact hm.toReadable.wireSeqNum_eq
  . intro m' hm'
    contradiction
  . intro data hdata
    injection hdata with hdata
    exact ⟨m, _, hdata.symm, hm⟩

theorem run {α : Type} {prog : AppProg α} {ctx : EngineContext T}
    (h : Speaks config usable outbox gone ctx) (hprog : prog.Conveys ctx)
    : Speaks config usable outbox gone (prog.run ctx).2 := by
  induction prog generalizing ctx with
  | done result => exact h
  | sendRaw data next ih =>
    obtain ⟨⟨m, rfl, hm⟩, hnext⟩ := hprog
    exact ih _ (h.sendRaw hout hm) hnext
  | session next ih => exact ih _ h hprog
  | requestStop next ih => exact ih (h.quiet ⟨rfl, rfl, rfl, rfl⟩) hprog

theorem preserved {app : FixApp A} (hfits : config.Fits) (happ : app.Converses T config)
    : Preserved app.onParsed Preserved.allKinds (Speaks config usable outbox gone) where
  quiet := fun hquiet h => h.quiet hquiet
  built := fun _ hkind _ hlen h => h.sendBuilt hout hfits hkind hlen
  onLogon := fun a ctx h => h.run hout (happ a ctx h.config_eq).1
  onMessage := by
    intro a msgType view ctx h
    unfold FixApp.onParsed
    dsimp only
    split
    . next hparsed => exact h.run hout ((happ a ctx h.config_eq).2 msgType view hparsed)
    . exact h

theorem passive : Preserved.Passive (Speaks config usable outbox gone) where
  received := by
    intro ctx n h
    obtain ⟨msgs, hspeaking⟩ := h.exists_speaking
    obtain ⟨husable, hbox⟩ := hout.received ctx.transport n
    refine ⟨h.config_eq, msgs, hspeaking.speech, hspeaking.isPrefix, ?_, ?_⟩
    . rw [hbox]
      exact hspeaking.bytes
    . intro hafter
      rw [hbox]
      exact hspeaking.whole (husable hafter)
  closed := by
    intro ctx h
    obtain ⟨msgs, hspeaking⟩ := h.exists_speaking
    obtain ⟨hunusable, hbox⟩ := hout.closed ctx.transport
    refine ⟨h.config_eq, msgs, hspeaking.speech, hspeaking.isPrefix, ?_, ?_⟩
    . exact ((List.prefix_append_right_inj gone).mpr hbox).trans hspeaking.bytes
    . intro hafter
      exact absurd hafter hunusable

end Speaks

end Sending

end Velocitas
