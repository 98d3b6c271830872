import VelocitasFix.Engine.Embedder
import VelocitasFix.Engine.Script
import VelocitasFix.Timestamp.Lemmas

/-!
This module contains the proof that the messages an engine hands to its transport are numbered
1, 2, 3 and so on, whoever builds them: the engine at its send sites or the application in a callback.
-/

namespace Velocitas

variable {T A : Type}

-- MsgSeqNum as a reader of the wire finds it.
def wireSeqNum (data : Bytes) : Option UInt64 := (accepted data).bind MessageView.msgSeqNum

def OutMessage.seqNum (m : OutMessage) : Option UInt64 :=
  m.args.findSome? fun
    | .u64 tag value => if tag = Tags.msgSeqNum then some value else none
    | _ => none

namespace Outbound

def bytes : Outbound → Bytes
  | .built m => m.bytes
  | .raw data => data

def seqNum : Outbound → Option UInt64
  | .built m => m.seqNum
  | .raw data => wireSeqNum data

end Outbound

inductive TransportOp where
  | send (data : Bytes)
  | recv (n : Nat)
  | close

def TransportOp.run [Transport T] (t : T) : TransportOp → T
  | .send data => (Transport.send t data).2
  | .recv n => (Transport.recv t n).2
  | .close => (Transport.close t).2

-- Every send succeeds, whatever was done with the transport before.
def Reliable [Transport T] (t : T) : Prop :=
  ∀ (ops : List TransportOp) (data : Bytes),
    ∃ k, (Transport.send (ops.foldl TransportOp.run t) data).1 = .ok k

theorem Reliable.run [Transport T] {t : T} (h : Reliable t) (op : TransportOp)
    : Reliable (op.run t) :=
  fun ops data => h (op :: ops) data

theorem Reliable.send [Transport T] {t : T} (h : Reliable t) (data : Bytes)
    : ∃ k, (Transport.send t data).1 = .ok k :=
  h [] data

-- Every session message of the configuration fits the send buffer.
def SessionConfig.Fits (config : SessionConfig) : Prop :=
  ∀ message ∈ Preserved.allKinds, ∀ (seq : UInt64) (clock : Clock),
    (message config seq clock.timestamp).bytes.length ≤ 4096

-- Everything the program sends carries the outbound number that it finds when it sends it.
def AppProg.Numbers [Transport T] {α : Type} : AppProg α → EngineContext T → Prop
  | .done _, _ => True
  | .sendRaw data next, ctx =>
    wireSeqNum data = some ctx.session.currentOutboundSeqNum
      ∧ (next (ctx.sendRaw data).1).Numbers (ctx.sendRaw data).2
  | .session next, ctx => (next ctx.session.view).Numbers ctx
  | .requestStop next, ctx => next.Numbers ctx.requestStop

def FixApp.Numbers (T : Type) [Transport T] (app : FixApp A) : Prop :=
  ∀ (a : A) (ctx : EngineContext T), Reliable ctx.transport →
    (app.onLogon a).Numbers ctx
      ∧ ∀ (msgType : Bytes) (view : MessageView), (app.onMessage a msgType view).Numbers ctx

-- The numbers 1, 2, 3 and so on.
def countingUp (count : Nat) : List (Option UInt64) :=
  (List.range count).map fun i => some (UInt64.ofNat (i + 1))

theorem countingUp_succ (count : Nat)
    : countingUp (count + 1) = countingUp count ++ [some (UInt64.ofNat (count + 1))] := by
  rw [countingUp, List.range_succ, List.map_append]
  rfl

theorem seqNum_of_mem_allKinds {message : Builder} (h : message ∈ Preserved.allKinds)
    (config : SessionConfig) (seq : UInt64) (time : Bytes)
    : (message config seq time).seqNum = some seq := by
  simp only [Preserved.allKinds, List.mem_cons, List.not_mem_nil, or_false] at h
  rcases h with rfl | rfl | rfl
  all_goals rfl

theorem msgType_of_mem_allKinds {message : Builder} (h : message ∈ Preserved.allKinds)
    (config : SessionConfig) (seq : UInt64) (time : Bytes)
    : (message config seq time).msgType ∈ [MsgType.logon, MsgType.heartbeat, MsgType.logout] := by
  simp only [Preserved.allKinds, List.mem_cons, List.not_mem_nil, or_false] at h
  rcases h with rfl | rfl | rfl
  . exact List.mem_cons_self
  . exact .tail _ List.mem_cons_self
  . exact .tail _ (.tail _ List.mem_cons_self)

section

variable [Transport T]

structure Contiguous (config : SessionConfig) (ctx : EngineContext T) : Prop where
  reliable : Reliable ctx.transport
  config_eq : ctx.session.config = config
  outbound : ctx.session.outboundSeqNum = UInt64.ofNat ((sentOf ctx.log).length + 1)
  numbers : (sentOf ctx.log).map Outbound.seqNum = countingUp (sentOf ctx.log).length
  built : ∀ m, .built m ∈ sentOf ctx.log →
    ∃ message ∈ Preserved.allKinds, ∃ (seq : UInt64) (clock : Clock),
      m = message config seq clock.timestamp

namespace Contiguous

variable {config : SessionConfig}

theorem quiet {ctx ctx' : EngineContext T} (h : Contiguous config ctx) (hquiet : ctx.Quiet ctx')
    : Contiguous config ctx' where
  reliable := by
    rw [hquiet.transport]
    exact h.reliable
  config_eq := hquiet.config.trans h.config_eq
  outbound := by rw [hquiet.sent, hquiet.outbound, h.outbound]
  numbers := by rw [hquiet.sent, h.numbers]
  built := by
    rw [hquiet.sent]
    exact h.built

theorem sent {ctx ctx' : EngineContext T} {message : Outbound} (h : Contiguous config ctx)
    (hreliable : Reliable ctx'.transport) (hconfig : ctx'.session.config = ctx.session.config)
    (houtbound : ctx'.session.outboundSeqNum = ctx.session.outboundSeqNum + 1)
    (hsent : sentOf ctx'.log = sentOf ctx.log ++ [message])
    (hnumber : message.seqNum = some ctx.session.outboundSeqNum)
    (hbuilt : ∀ m, message = .built m → ∃ builder ∈ Preserved.allKinds,
      ∃ (seq : UInt64) (clock : Clock), m = builder config seq clock.timestamp)
    : Contiguous config ctx' where
  reliable := hreliable
  config_eq := hconfig.trans h.config_eq
  outbound := by
    rw [houtbound, h.outbound, hsent, List.length_append, List.length_singleton]
    exact (UInt64.ofNat_add _ 1).symm
  numbers := by
    rw [hsent, List.map_append, h.numbers, List.length_append, List.length_singleton,
      countingUp_succ, List.map_singleton, hnumber, h.outbound]
  built := by
    intro m hm
    rw [hsent, List.mem_append, List.mem_singleton] at hm
    cases hm with
    | inl hm => exact h.built m hm
    | inr hm => exact hbuilt m hm.symm

-- A session message fits the send buffer and the transport takes it.
theorem exists_sendBuilt (hfits : config.Fits) {message : Builder}
    (hkind : message ∈ Preserved.allKinds) {e : FixEngine T} (hlen : e.sendBuf.length = 4096)
    (h : Contiguous config e.ctx)
    : ∃ e', e.sendBuilt message = .next e'
        ∧ e'.ctx.log = e.ctx.log ++ [.sent (.built (e.nextMessage message))]
        ∧ e'.ctx.session = e.ctx.session.nextOutboundSeqNum.2
        ∧ e'.ctx.transport = (Transport.send e.ctx.transport (e.nextMessage message).bytes).2 := by
  have hm : (e.nextMessage message).bytes.length ≤ 4096 := by
    unfold FixEngine.nextMessage
    rw [h.config_eq]
    exact hfits message hkind _ _
  rw [← hlen] at hm
  cases h.reliable.send (e.nextMessage message).bytes with
  | intro k hk =>
    obtain ⟨e', hbuilt, -, hrest⟩ := FixEngine.exists_sendBuilt_of_ok hm hk
    exact ⟨e', hbuilt, hrest⟩

theorem sendBuilt (hfits : config.Fits) {message : Builder} (hkind : message ∈ Preserved.allKinds)
    {e : FixEngine T} (hlen : e.sendBuf.length = 4096) (h : Contiguous config e.ctx)
    : Contiguous config (e.sendBuilt message).state.ctx := by
  obtain ⟨e', hbuilt, hlog, hsession, htransport⟩ := h.exists_sendBuilt hfits hkind hlen
  rw [hbuilt]
  apply @sent T _ config e.ctx e'.ctx (.built (e.nextMessage message)) h
  . rw [htransport]
    exact h.reliable.run (.send _)
  . rw [hsession]
    rfl
  . rw [hsession]
    rfl
  . rw [hlog, sentOf_append]
    rfl
  . exact seqNum_of_mem_allKinds hkind _ _ _
  . intro m hm
    injection hm with hm
    rw [← hm, FixEngine.nextMessage, h.config_eq]
    exact ⟨message, hkind, _, _, rfl⟩

theorem sendRaw {ctx : EngineContext T} (h : Contiguous config ctx) {data : Bytes}
    (hnumber : wireSeqNum data = some ctx.session.currentOutboundSeqNum)
    : Contiguous config (ctx.sendRaw data).2 := by
  cases h.reliable.send data with
  | intro k hk =>
    have hsent := ctx.sendRaw_of_ok hk
    apply @sent T _ config ctx _ (.raw data) h
    . rw [hsent.transport]
      exact h.reliable.run (.send data)
    . exact hsent.config
    . exact hsent.outbound
    . rw [hsent.log, sentOf_append]
      rfl
    . exact hnumber
    . intro m hm
      contradiction

theorem run {α : Type} {prog : AppProg α} {ctx : EngineContext T} (h : Contiguous config ctx)
    (hprog : prog.Numbers ctx)
    : Contiguous config (prog.run ctx).2 := by
  induction prog generalizing ctx with
  | done result => exact h
  | sendRaw data next ih => exact ih _ (h.sendRaw hprog.1) hprog.2
  | session next ih => exact ih _ h hprog
  | requestStop next ih => exact ih (h.quiet ⟨rfl, rfl, rfl, rfl⟩) hprog

theorem preserved {app : FixApp A} (hfits : config.Fits) (happ : app.Numbers T)
    : Preserved app Preserved.allKinds (Contiguous config : EngineContext T → Prop) where
  quiet := fun hquiet h => h.quiet hquiet
  built := fun _ hkind _ hlen h => h.sendBuilt hfits hkind hlen
  onLogon := fun a ctx h => h.run (happ a ctx h.reliable).1
  onMessage := fun a msgType view ctx h => h.run ((happ a ctx h.reliable).2 msgType view)

theorem passive : Preserved.Passive (Contiguous config : EngineContext T → Prop) where
  received := fun _ n h => ⟨h.reliable.run (.recv n), h.config_eq, h.outbound, h.numbers, h.built⟩
  closed := fun _ h => ⟨h.reliable.run .close, h.config_eq, h.outbound, h.numbers, h.built⟩

end Contiguous

def SessionConfig.SohFree (config : SessionConfig) : Prop :=
  Tags.soh ∉ config.fixVersion ∧ Tags.soh ∉ config.senderCompId ∧ Tags.soh ∉ config.targetCompId

instance (config : SessionConfig) : Decidable config.SohFree :=
  inferInstanceAs (Decidable (_ ∧ _))

theorem readable_of_mem_allKinds {message : Builder} (hkind : message ∈ Preserved.allKinds)
    {config : SessionConfig} (hsoh : config.SohFree) {seq : UInt64} {clock : Clock}
    (hlength : (message config seq clock.timestamp).bytes.length ≤ 4096)
    : (message config seq clock.timestamp).Readable seq := by
  rcases hsoh with ⟨hbegin, hsender, htarget⟩
  have htime : Tags.soh ∉ clock.timestamp := HrTimestamp.sohFree_toFixTimestamp _
  have hlen : (message config seq clock.timestamp).bytes.length ≤ 65536 := by omega
  simp only [Preserved.allKinds, List.mem_cons, List.not_mem_nil, or_false] at hkind
  rcases hkind with rfl | rfl | rfl
  . exact .logon hbegin hsender htarget htime hlen
  . have htype : Tags.soh ∉ MsgType.heartbeat := by decide
    exact .of_args hbegin htype hsender htarget htime hlen (List.append_nil _).symm (by simp) (by simp)
  . have htype : Tags.soh ∉ MsgType.logout := by decide
    exact .of_args hbegin htype hsender htarget htime hlen (List.append_nil _).symm (by simp) (by simp)

-- How short the strings of a configuration are that leave room for every session message.
theorem SessionConfig.fits_of_length_le {config : SessionConfig}
    (h : config.fixVersion.length + config.senderCompId.length + config.targetCompId.length ≤ 3900)
    : config.Fits := by
  intro message hkind seq clock
  have htime : clock.timestamp.length = 21 := HrTimestamp.length_toFixTimestamp _
  have hle := (message config seq clock.timestamp).length_bytes_le
  simp only [Preserved.allKinds, List.mem_cons, List.not_mem_nil, or_false] at hkind
  have hlogon : MsgType.logon.length = 1 := by decide
  have hheartbeat : MsgType.heartbeat.length = 1 := by decide
  have hlogout : MsgType.logout.length = 1 := by decide
  apply Nat.le_trans hle
  rcases hkind with rfl | rfl | rfl
  . change 40 + config.fixVersion.length + MsgType.logon.length
      + (12 + config.senderCompId.length + (12 + config.targetCompId.length + (32
        + (12 + clock.timestamp.length + (32 + (32 + 0)))))) ≤ 4096
    omega
  . change 40 + config.fixVersion.length + MsgType.heartbeat.length
      + (12 + config.senderCompId.length + (12 + config.targetCompId.length + (32
        + (12 + clock.timestamp.length + 0)))) ≤ 4096
    omega
  . change 40 + config.fixVersion.length + MsgType.logout.length
      + (12 + config.senderCompId.length + (12 + config.targetCompId.length + (32
        + (12 + clock.timestamp.length + 0)))) ≤ 4096
    omega

theorem Contiguous.exists_readable {config : SessionConfig} {ctx : EngineContext T}
    (h : Contiguous config ctx) (hsoh : config.SohFree) (hfits : config.Fits) {m : OutMessage}
    (hm : .built m ∈ sentOf ctx.log)
    : ∃ seq, m.Readable seq ∧ m.seqNum = some seq ∧ m.bytes.length ≤ 4096
        ∧ m.msgType ∈ [MsgType.logon, MsgType.heartbeat, MsgType.testRequest, MsgType.logout] := by
  obtain ⟨message, hkind, seq, clock, rfl⟩ := h.built m hm
  have hlength := hfits message hkind seq clock
  have htype := msgType_of_mem_allKinds hkind config seq clock.timestamp
  have hsubset : [MsgType.logon, MsgType.heartbeat, MsgType.logout]
      ⊆ [MsgType.logon, MsgType.heartbeat, MsgType.testRequest, MsgType.logout] := by
    simp
  exact ⟨seq, readable_of_mem_allKinds hkind hsoh hlength, seqNum_of_mem_allKinds hkind _ _ _,
    hlength, hsubset htype⟩

theorem OutMessage.Readable.wireSeqNum_eq {m : OutMessage} {seq : UInt64} (h : m.Readable seq)
    : wireSeqNum m.bytes = some seq := by
  obtain ⟨view, hparse, _, _, hseq⟩ := h.parse
  rw [wireSeqNum, accepted, hparse, Option.bind_some, hseq]

theorem Contiguous.wireNumbers {config : SessionConfig} {ctx : EngineContext T}
    (h : Contiguous config ctx) (hsoh : config.SohFree) (hfits : config.Fits)
    : (sentOf ctx.log).map (fun o => wireSeqNum o.bytes)
        = countingUp (sentOf ctx.log).length := by
  rw [← h.numbers]
  apply List.map_congr_left
  intro o ho
  cases o with
  | raw data => rfl
  | built m =>
    obtain ⟨seq, hreadable, hseq, -⟩ := h.exists_readable hsoh hfits ho
    exact hreadable.wireSeqNum_eq.trans hseq.symm

end

def orderMessage (seq : UInt64) : OutMessage where
  beginString := acceptorConfig.fixVersion
  msgType := ascii "D"
  args := [.str Tags.senderCompId acceptorConfig.senderCompId,
    .str Tags.targetCompId acceptorConfig.targetCompId, .u64 Tags.msgSeqNum seq,
    .str Tags.sendingTime stoppedClock.timestamp]

-- An application that sends one order once it is logged on.
def orderApp : FixApp Unit where
  onLogon _ := .session fun view =>
    .sendRaw (orderMessage view.currentOutboundSeqNum).bytes fun res => .done (res, ())
  onMessage _ _ _ := .done (.ok (), ())
  onLogout _ := (.ok (), ())

theorem length_orderMessage_le (seq : UInt64) : (orderMessage seq).bytes.length ≤ 4096 :=
  Nat.le_trans (orderMessage seq).length_bytes_le (by
    have htime : stoppedClock.timestamp.length = 21 := HrTimestamp.length_toFixTimestamp _
    change 40 + acceptorConfig.fixVersion.length + (ascii "D").length
      + (12 + acceptorConfig.senderCompId.length + (12 + acceptorConfig.targetCompId.length + (32
        + (12 + stoppedClock.timestamp.length + 0)))) ≤ 4096
    rw [htime]
    decide)

theorem readable_orderMessage (seq : UInt64) : (orderMessage seq).Readable seq := by
  have hbegin : Tags.soh ∉ acceptorConfig.fixVersion := by decide
  have htype : Tags.soh ∉ ascii "D" := by decide
  exact .of_args hbegin htype (by decide) (by decide) (HrTimestamp.sohFree_toFixTimestamp _)
    (Nat.le_trans (length_orderMessage_le seq) (by decide)) (List.append_nil _).symm (by simp)
    (by simp)

theorem numbers_orderApp : orderApp.Numbers Script :=
  fun _ _ _ => ⟨⟨(readable_orderMessage _).wireSeqNum_eq, trivial⟩, fun _ _ => trivial⟩

theorem reliable_script (reads : List Bytes) : Reliable (Script.mk reads) :=
  fun _ data => ⟨data.length, rfl⟩

theorem fits_acceptorConfig : acceptorConfig.Fits :=
  SessionConfig.fits_of_length_le (by decide)

-- A session message of the scripted acceptor goes out.
theorem exists_sendBuilt_script {e : FixEngine Script} {message : Builder}
    (hkind : message ∈ Preserved.allKinds) (hconfig : e.ctx.session.config = acceptorConfig)
    (hlen : e.sendBuf.length = 4096)
    : ∃ e', e.sendBuilt message = .next e' ∧ e.Sends e'
        ∧ e'.ctx.log = e.ctx.log ++ [.sent (.built (e.nextMessage message))]
        ∧ e'.ctx.session = e.ctx.session.nextOutboundSeqNum.2
        ∧ e'.ctx.transport = e.ctx.transport ∧ e'.ctx.clock = e.ctx.clock.tick := by
  have hfits : (e.nextMessage message).bytes.length ≤ e.sendBuf.length := by
    unfold FixEngine.nextMessage
    rw [hconfig, hlen]
    exact fits_acceptorConfig message hkind _ _
  obtain ⟨e', hbuilt, hsends, hlog, hsession, htransport⟩ :=
    FixEngine.exists_sendBuilt_of_ok hfits rfl
  have hclock := e.sendBuilt_clock message
  rw [hbuilt] at hclock
  exact ⟨e', hbuilt, hsends, hlog, hsession, htransport, hclock⟩

end Velocitas
