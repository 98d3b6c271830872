import VelocitasFix.Data.Ascii
import VelocitasFix.Data.Counter
import VelocitasFix.Data.Search
import VelocitasFix.Transport.Exchange
import VelocitasFix.Transport.Refusal

/-!
This module contains the registry of channels: all endpoints of a process, the queue of each channel
that one of them has opened, and the proof that a frame only passes between two endpoints that have
opened the same channel, whatever else goes on in the process.
-/

namespace Velocitas

open Ascii

-- The fields of a transport configuration that an endpoint reads.
structure AeronConfig where
  aeronChannel : Option Bytes
  aeronStreamId : Int32
  deriving DecidableEq, Repr

structure ChannelKey where
  channel : Bytes
  streamId : Int32
  deriving DecidableEq, Repr

def AeronConfig.channelKey (config : AeronConfig) (address : Bytes) (port : UInt16)
    : ChannelKey where
  channel := config.aeronChannel.getD
    (ascii "aeron:udp?endpoint=" ++ address ++ ascii ":" ++ decimal port.toNat)
  streamId := config.aeronStreamId

namespace AeronTransport

-- The length of the frame that is there to be received, if there is one.
def poll (t : AeronTransport) : Except ErrorKind (Option Nat) :=
  match t.bus with
  | none => .error .notConnected
  | some bus => .ok ((bus.frames.find? (·.senderId ≠ t.endpointId)).map (·.payload.length))

-- What a poll announces is what the next read gets, if the buffer is large enough.
theorem recv_of_poll {t : AeronTransport} {len : Nat} (h : t.poll = .ok (some len)) (n : Nat)
    : ∃ payload : Bytes, payload.length = len
        ∧ (t.recv n).1 = if n < len then .error .invalidInput else .ok payload := by
  unfold poll at h
  unfold recv
  cases hbus : t.bus with
  | none =>
    rw [hbus] at h
    contradiction
  | some bus =>
    rw [hbus] at h
    injection h with h
    obtain ⟨frame, hfind, hlen⟩ := Option.map_eq_some_iff.mp h
    refine ⟨frame.payload, hlen, ?_⟩
    dsimp only
    rw [hfind]
    dsimp only
    rw [hlen]
    split
    . rfl
    . rfl

end AeronTransport

-- An endpoint, with the key of the queue that it has opened.
structure AeronEndpoint where
  endpointId : UInt64
  connected : Bool
  config : AeronConfig
  key : Option ChannelKey
  deriving DecidableEq, Repr

-- A call of `open` by an endpoint with this configuration.
structure Opening where
  endpointId : UInt64
  config : AeronConfig
  address : Bytes
  port : UInt16
  deriving DecidableEq, Repr

def Opening.key (o : Opening) : ChannelKey := o.config.channelKey o.address o.port

-- A frame that an endpoint has taken out of the queue of a channel.
structure Taking where
  key : ChannelKey
  receiver : UInt64
  frame : AeronFrame
  deriving DecidableEq, Repr

-- The endpoints and the two globals, and what was opened, sent and taken so far.
structure AeronProcess where
  registry : ChannelKey → Option AeronBus
  nextEndpointId : UInt64
  endpoints : List AeronEndpoint
  opened : List Opening
  sent : List (ChannelKey × AeronFrame)
  taken : List Taking

namespace AeronProcess

inductive Op where
  | new (config : AeronConfig)
  | connect (i : Nat) (address : Bytes) (port : UInt16)
  | bind (i : Nat) (address : Bytes) (port : UInt16)
  | send (i : Nat) (data : Bytes)
  | recv (i : Nat) (n : Nat)
  | close (i : Nat)
  deriving DecidableEq, Repr

def start : AeronProcess where
  registry := fun _ => none
  nextEndpointId := 1
  endpoints := []
  opened := []
  sent := []
  taken := []

-- The endpoint with the queue that it shares, as its operations find it.
def transport (p : AeronProcess) (e : AeronEndpoint) : AeronTransport where
  endpointId := e.endpointId
  connected := e.connected
  bus := e.key.bind p.registry

def write (p : AeronProcess) (key : ChannelKey) (bus : AeronBus) : AeronProcess :=
  { p with registry := Function.update p.registry key (some bus) }

-- The queue of the channel is created by the endpoint that opens it first.
def openChannel (p : AeronProcess) (i : Nat) (e : AeronEndpoint) (address : Bytes) (port : UInt16)
    : AeronProcess :=
  let key := e.config.channelKey address port
  let p := p.write key ((p.registry key).getD ⟨[]⟩)
  { p with
    endpoints := p.endpoints.set i { e with key := some key, connected := true }
    opened := p.opened ++ [⟨e.endpointId, e.config, address, port⟩] }

def step (p : AeronProcess) : Op → AeronProcess
  | .new config =>
    { p with
      nextEndpointId := p.nextEndpointId + 1
      endpoints := p.endpoints ++ [⟨p.nextEndpointId, false, config, none⟩] }
  | .connect i address port | .bind i address port =>
    match p.endpoints[i]? with
    | none => p
    | some e => p.openChannel i e address port
  | .send i data =>
    match p.endpoints[i]? with
    | none => p
    | some e =>
      match e.key, ((p.transport e).send data).2.bus with
      | some key, some bus =>
        { p.write key bus with sent := p.sent ++ [(key, ⟨e.endpointId, data⟩)] }
      | _, _ => p
  | .recv i n =>
    match p.endpoints[i]? with
    | none => p
    | some e =>
      match e.key, ((p.transport e).recv n).2.bus, (p.transport e).next with
      | some key, some bus, some frame =>
        { p.write key bus with taken := p.taken ++ [⟨key, e.endpointId, frame⟩] }
      | _, _, _ => p
  | .close i =>
    match p.endpoints[i]? with
    | none => p
    | some e => { p with endpoints := p.endpoints.set i { e with connected := false } }

def run (ops : List Op) : AeronProcess := ops.foldl step start

def queue (p : AeronProcess) (key : ChannelKey) : List AeronFrame :=
  match p.registry key with
  | none => []
  | some bus => bus.frames

-- What one endpoint sent on a channel, and what others took of it.
def sentOn (p : AeronProcess) (key : ChannelKey) (sender : UInt64) : List AeronFrame :=
  (p.sent.filter fun s => s.1 = key ∧ s.2.senderId = sender).map Prod.snd

def takenOn (p : AeronProcess) (key : ChannelKey) (sender : UInt64) : List AeronFrame :=
  (p.taken.filter fun t => t.key = key ∧ t.frame.senderId = sender).map Taking.frame

-- What a step does, by the operation and what it finds.
inductive Steps (p : AeronProcess) : AeronProcess → Prop where
  | idle : Steps p p
  | created (config : AeronConfig) : Steps p (p.step (.new config))
  | opened (i : Nat) (e : AeronEndpoint) (address : Bytes) (port : UInt16)
    (he : p.endpoints[i]? = some e)
    : Steps p (p.openChannel i e address port)
  | sent (i : Nat) (e : AeronEndpoint) (key : ChannelKey) (bus : AeronBus) (data : Bytes)
    (he : p.endpoints[i]? = some e) (hkey : e.key = some key) (hbus : p.registry key = some bus)
    : Steps p { p.write key ⟨bus.frames ++ [⟨e.endpointId, data⟩]⟩ with
        sent := p.sent ++ [(key, ⟨e.endpointId, data⟩)] }
  | taken (i : Nat) (e : AeronEndpoint) (key : ChannelKey) (bus : AeronBus) (frame : AeronFrame)
    (he : p.endpoints[i]? = some e) (hkey : e.key = some key) (hbus : p.registry key = some bus)
    (hfind : bus.frames.find? (·.senderId ≠ e.endpointId) = some frame)
    : Steps p { p.write key ⟨bus.frames.eraseP (·.senderId ≠ e.endpointId)⟩ with
        taken := p.taken ++ [⟨key, e.endpointId, frame⟩] }
  | closed (i : Nat) (e : AeronEndpoint) (he : p.endpoints[i]? = some e)
    : Steps p { p with endpoints := p.endpoints.set i { e with connected := false } }

theorem recv_bus {t : AeronTransport} {bus : AeronBus} {frame : AeronFrame} (n : Nat)
    (hbus : t.bus = some bus) (hfind : bus.frames.find? (·.senderId ≠ t.endpointId) = some frame)
    : (t.recv n).2.bus = some ⟨bus.frames.eraseP (·.senderId ≠ t.endpointId)⟩ := by
  rw [AeronTransport.recv, hbus]
  dsimp only
  rw [hfind]
  dsimp only
  split
  . rfl
  . rfl

theorem step_open (p : AeronProcess) (i : Nat) (address : Bytes) (port : UInt16)
    : p.Steps (match p.endpoints[i]? with
      | none => p
      | some e => p.openChannel i e address port) := by
  split
  . exact .idle
  . next e he => exact .opened i e address port he

theorem step_cases (p : AeronProcess) (op : Op) : p.Steps (p.step op) := by
  cases op with
  | new config => exact .created config
  | connect i address port => exact p.step_open i address port
  | bind i address port => exact p.step_open i address port
  | close i =>
    unfold step
    dsimp only
    split
    . exact .idle
    . next e he => exact .closed i e he
  | send i data =>
    unfold step
    dsimp only
    split
    . exact .idle
    . next e he =>
      split
      . next key bus hkey hsent =>
        have htransport : (p.transport e).bus = p.registry key := by
          change e.key.bind p.registry = _
          rw [hkey]
          rfl
        cases hbus : p.registry key with
        | none =>
          rw [AeronTransport.send, htransport, hbus] at hsent
          dsimp only at hsent
          rw [htransport, hbus] at hsent
          contradiction
        | some bus0 =>
          rw [AeronTransport.send, htransport, hbus] at hsent
          injection hsent with hsent
          rw [← hsent]
          exact .sent i e key bus0 data he hkey hbus
      . exact .idle
  | recv i n =>
    unfold step
    dsimp only
    split
    . exact .idle
    . next e he =>
      split
      . next key bus frame hkey hreceived hnext =>
        have htransport : (p.transport e).bus = p.registry key := by
          change e.key.bind p.registry = _
          rw [hkey]
          rfl
        obtain ⟨bus0, hbus, hfind⟩ := AeronTransport.exists_bus_of_next hnext
        rw [recv_bus n hbus hfind, Option.some.injEq] at hreceived
        rw [← hreceived]
        exact .taken i e key bus0 frame he hkey (htransport.symm.trans hbus) hfind
      . exact .idle

theorem queue_write (p : AeronProcess) (key key' : ChannelKey) (bus : AeronBus)
    : (p.write key bus).queue key' = if key' = key then bus.frames else p.queue key' := by
  unfold queue write
  dsimp only
  by_cases h : key' = key
  . rw [h, Function.update_self, if_pos rfl]
  . rw [Function.update_of_ne h, if_neg h]

theorem queue_of_registry {p : AeronProcess} {key : ChannelKey} {bus : AeronBus}
    (h : p.registry key = some bus)
    : p.queue key = bus.frames := by
  rw [queue, h]

-- Opening a channel changes no queue.
theorem queue_openChannel (p : AeronProcess) (i : Nat) (e : AeronEndpoint) (address : Bytes)
    (port : UInt16) (key : ChannelKey)
    : (p.openChannel i e address port).queue key = p.queue key := by
  change (p.write (e.config.channelKey address port) _).queue key = _
  rw [queue_write]
  split
  . next h =>
    rw [h, queue]
    cases p.registry (e.config.channelKey address port) with
    | none => rfl
    | some bus => rfl
  . rfl

/-
The endpoints are numbered, and each key that one of them holds was opened by it. On every channel
the frames of a sender are those that were taken and then those in the queue.
-/
def HasOpened (p : AeronProcess) (id : UInt64) (key : ChannelKey) : Prop :=
  ∃ o ∈ p.opened, o.endpointId = id ∧ o.key = key

structure Registered (p : AeronProcess) : Prop where
  ids : p.endpoints.map (fun e => e.endpointId.toNat)
    = Counter.issued (2 ^ 64) 1 p.endpoints.length
  next : p.nextEndpointId.toNat = (1 + p.endpoints.length) % 2 ^ 64
  openers : ∀ o ∈ p.opened, ∃ e ∈ p.endpoints,
    e.endpointId = o.endpointId ∧ e.config = o.config
  holders : ∀ e ∈ p.endpoints, ∀ key, e.key = some key → p.HasOpened e.endpointId key
  flow : ∀ key sender, p.sentOn key sender
    = p.takenOn key sender ++ (p.queue key).filter (·.senderId = sender)
  queued : ∀ key, ∀ frame ∈ p.queue key, p.HasOpened frame.senderId key
  takers : ∀ t ∈ p.taken, p.HasOpened t.receiver t.key ∧ p.HasOpened t.frame.senderId t.key
    ∧ t.receiver ≠ t.frame.senderId

theorem hasOpened_openChannel {p : AeronProcess} {i : Nat} {e : AeronEndpoint} {address : Bytes}
    {port : UInt16} {id : UInt64} {key : ChannelKey} (h : p.HasOpened id key)
    : (p.openChannel i e address port).HasOpened id key := by
  obtain ⟨o, ho, hrest⟩ := h
  exact ⟨o, List.mem_append_left _ ho, hrest⟩

theorem registered_start : Registered start where
  ids := rfl
  next := rfl
  openers := nofun
  holders := nofun
  flow := fun _ _ => rfl
  queued := fun _ => nofun
  takers := nofun

namespace Registered

variable {p : AeronProcess}

theorem created (h : p.Registered) (config : AeronConfig) : (p.step (.new config)).Registered where
  ids := by
    change (p.endpoints ++ [_]).map _ = _
    rw [List.map_append, h.ids, List.map_singleton, h.next]
    change _ = Counter.issued _ _ (p.endpoints ++ [_]).length
    rw [List.length_append, List.length_singleton, Counter.issued_succ]
  next := by
    change (p.nextEndpointId + 1).toNat = (1 + (p.endpoints ++ [_]).length) % 2 ^ 64
    rw [UInt64.toNat_add, h.next, List.length_append, List.length_singleton]
    change ((1 + p.endpoints.length) % 2 ^ 64 + 1) % 2 ^ 64 = _
    omega
  openers := by
    intro o ho
    obtain ⟨e, he, hrest⟩ := h.openers o ho
    exact ⟨e, List.mem_append_left _ he, hrest⟩
  holders := by
    intro e he key hkey
    change e ∈ p.endpoints ++ [_] at he
    rw [List.mem_append, List.mem_singleton] at he
    cases he with
    | inl he => exact h.holders e he key hkey
    | inr he =>
      rw [he] at hkey
      contradiction
  flow := h.flow
  queued := h.queued
  takers := h.takers

-- An endpoint is replaced by one with the same number and configuration.
theorem ids_set (h : p.Registered) {i : Nat} {e e' : AeronEndpoint} (he : p.endpoints[i]? = some e)
    (hid : e'.endpointId = e.endpointId)
    : (p.endpoints.set i e').map (fun e => e.endpointId.toNat)
        = Counter.issued (2 ^ 64) 1 (p.endpoints.set i e').length := by
  obtain ⟨hlt, heq⟩ := List.getElem?_eq_some_iff.mp he
  have hlt' : i < (p.endpoints.map fun e => e.endpointId.toNat).length := by simpa using hlt
  have hval : (p.endpoints.map fun e => e.endpointId.toNat)[i] = e.endpointId.toNat := by
    rw [List.getElem_map, heq]
  rw [List.map_set, List.length_set, ← h.ids, hid, ← hval]
  exact List.set_getElem_self hlt'

theorem openers_set (h : p.Registered) {i : Nat} {e f : AeronEndpoint}
    (he : p.endpoints[i]? = some e) (hid : f.endpointId = e.endpointId)
    (hconfig : f.config = e.config) {o : Opening} (ho : o ∈ p.opened)
    : ∃ e ∈ p.endpoints.set i f, e.endpointId = o.endpointId ∧ e.config = o.config := by
  obtain ⟨g, hg, hrest⟩ := h.openers o ho
  obtain ⟨j, hj⟩ := List.mem_iff_getElem?.mp hg
  have hlt := (List.getElem?_eq_some_iff.mp hj).1
  by_cases hij : i = j
  . rw [hij, hj, Option.some.injEq] at he
    refine ⟨f, ?_, ?_⟩
    . rw [hij]
      exact List.mem_set hlt f
    . rw [hid, hconfig, ← he]
      exact hrest
  . refine ⟨g, List.mem_iff_getElem?.mpr ⟨j, ?_⟩, hrest⟩
    rw [List.getElem?_set_ne hij]
    exact hj

theorem opened (h : p.Registered) {i : Nat} {e : AeronEndpoint} (address : Bytes) (port : UInt16)
    (he : p.endpoints[i]? = some e)
    : (p.openChannel i e address port).Registered where
  ids := h.ids_set he rfl
  next := by
    change p.nextEndpointId.toNat = (1 + (p.endpoints.set i _).length) % 2 ^ 64
    rw [List.length_set]
    exact h.next
  openers := by
    intro o ho
    change o ∈ p.opened ++ [_] at ho
    rw [List.mem_append, List.mem_singleton] at ho
    cases ho with
    | inl ho =>
      apply h.openers_set (f := { e with key := some _, connected := true }) he rfl rfl ho
    | inr ho =>
      have hlt := (List.getElem?_eq_some_iff.mp he).1
      rw [ho]
      exact ⟨_, List.mem_set hlt _, rfl, rfl⟩
  holders := by
    intro f hf key hkey
    change f ∈ p.endpoints.set i _ at hf
    rcases List.mem_or_eq_of_mem_set hf with hf | hf
    . exact hasOpened_openChannel (h.holders f hf key hkey)
    . rw [hf] at hkey ⊢
      injection hkey with hkey
      exact ⟨_, List.mem_append_right _ List.mem_cons_self, rfl, hkey⟩
  flow := by
    intro key sender
    rw [queue_openChannel]
    exact h.flow key sender
  queued := by
    intro key frame hframe
    rw [queue_openChannel] at hframe
    exact hasOpened_openChannel (h.queued key frame hframe)
  takers := by
    intro t ht
    obtain ⟨hreceiver, hsender, hne⟩ := h.takers t ht
    exact ⟨hasOpened_openChannel hreceiver, hasOpened_openChannel hsender, hne⟩

theorem closed (h : p.Registered) {i : Nat} {e : AeronEndpoint} (he : p.endpoints[i]? = some e)
    : Registered { p with endpoints := p.endpoints.set i { e with connected := false } } where
  ids := h.ids_set he rfl
  next := by
    change p.nextEndpointId.toNat = (1 + (p.endpoints.set i _).length) % 2 ^ 64
    rw [List.length_set]
    exact h.next
  openers := fun _ ho => h.openers_set (f := { e with connected := false }) he rfl rfl ho
  holders := by
    intro f hf key hkey
    rcases List.mem_or_eq_of_mem_set hf with hf | hf
    . exact h.holders f hf key hkey
    . rw [hf] at hkey ⊢
      exact h.holders e (List.mem_of_getElem? he) key hkey
  flow := h.flow
  queued := h.queued
  takers := h.takers

theorem sent (h : p.Registered) {i : Nat} {e : AeronEndpoint} {key : ChannelKey} {bus : AeronBus}
    (data : Bytes) (he : p.endpoints[i]? = some e) (hkey : e.key = some key)
    (hbus : p.registry key = some bus)
    : Registered { p.write key ⟨bus.frames ++ [⟨e.endpointId, data⟩]⟩ with
        sent := p.sent ++ [(key, ⟨e.endpointId, data⟩)] } where
  ids := h.ids
  next := h.next
  openers := h.openers
  holders := h.holders
  flow := by
    intro key' sender
    have hflow := h.flow key' sender
    change (List.filter _ (p.sent ++ [_])).map Prod.snd
      = p.takenOn key' sender ++ ((p.write key _).queue key').filter _
    rw [List.filter_append, List.map_append, queue_write]
    change p.sentOn key' sender ++ _ = _
    rw [hflow, List.append_assoc]
    congr 1
    by_cases hsame : key' = key
    . rw [hsame, if_pos rfl, queue_of_registry hbus, List.filter_append]
      congr 1
      by_cases hsender : e.endpointId = sender
      . simp [hsender]
      . simp [hsender]
    . have hother : key ≠ key' := fun heq => hsame heq.symm
      rw [if_neg hsame]
      simp [hother]
  queued := by
    intro key' frame hframe
    change frame ∈ (p.write key _).queue key' at hframe
    rw [queue_write] at hframe
    split at hframe
    . next hsame =>
      rw [List.mem_append, List.mem_singleton] at hframe
      rw [hsame]
      cases hframe with
      | inl hframe =>
        apply h.queued key
        rw [queue_of_registry hbus]
        exact hframe
      | inr hframe =>
        rw [hframe]
        exact h.holders e (List.mem_of_getElem? he) key hkey
    . exact h.queued key' frame hframe
  takers := h.takers

theorem taken (h : p.Registered) {i : Nat} {e : AeronEndpoint} {key : ChannelKey} {bus : AeronBus}
    {frame : AeronFrame} (he : p.endpoints[i]? = some e) (hkey : e.key = some key)
    (hbus : p.registry key = some bus)
    (hfind : bus.frames.find? (·.senderId ≠ e.endpointId) = some frame)
    : Registered { p.write key ⟨bus.frames.eraseP (·.senderId ≠ e.endpointId)⟩ with
        taken := p.taken ++ [⟨key, e.endpointId, frame⟩] } where
  ids := h.ids
  next := h.next
  openers := h.openers
  holders := h.holders
  flow := by
    intro key' sender
    have hflow := h.flow key' sender
    change p.sentOn key' sender = (List.filter _ (p.taken ++ [_])).map Taking.frame
      ++ ((p.write key _).queue key').filter _
    rw [List.filter_append, List.map_append, queue_write, hflow, List.append_assoc]
    change _ = p.takenOn key' sender ++ _
    congr 1
    by_cases hsame : key' = key
    . rw [hsame, if_pos rfl, queue_of_registry hbus,
        (Exchange.frames_of_find hfind).2.2 sender]
      congr 1
      by_cases hsender : frame.senderId = sender
      . simp [hsender]
      . simp [hsender]
    . have hother : key ≠ key' := fun heq => hsame heq.symm
      rw [if_neg hsame]
      simp [hother]
  queued := by
    intro key' f hf
    change f ∈ (p.write key _).queue key' at hf
    rw [queue_write] at hf
    split at hf
    . next hsame =>
      rw [hsame]
      apply h.queued key
      rw [queue_of_registry hbus]
      exact List.mem_of_mem_eraseP hf
    . exact h.queued key' f hf
  takers := by
    intro t ht
    change t ∈ p.taken ++ [_] at ht
    rw [List.mem_append, List.mem_singleton] at ht
    cases ht with
    | inl ht => exact h.takers t ht
    | inr ht =>
      obtain ⟨hother, hmem, -⟩ := Exchange.frames_of_find hfind
      rw [ht]
      refine ⟨h.holders e (List.mem_of_getElem? he) key hkey, ?_, fun heq => hother heq.symm⟩
      apply h.queued key
      rw [queue_of_registry hbus]
      exact hmem

theorem step (h : p.Registered) (op : Op) : (p.step op).Registered := by
  have hsteps := p.step_cases op
  generalize p.step op = p' at hsteps
  cases hsteps with
  | idle => exact h
  | created config => exact h.created config
  | opened i e address port he => exact h.opened address port he
  | sent i e key bus data he hkey hbus => exact h.sent data he hkey hbus
  | taken i e key bus frame he hkey hbus hfind => exact h.taken he hkey hbus hfind
  | closed i e he => exact h.closed he

theorem run (ops : List Op) : (AeronProcess.run ops).Registered := by
  have hstart := registered_start
  unfold AeronProcess.run
  generalize start = p at hstart
  induction ops generalizing p with
  | nil => exact hstart
  | cons op ops ih => exact ih _ (hstart.step op)

end Registered

-- The part of a key that an endpoint without a channel of its own takes from its address.
theorem channelKey_udp_inj {config config' : AeronConfig} (h : config.aeronChannel = none)
    (h' : config'.aeronChannel = none) {address address' : Bytes} {port port' : UInt16}
    (hkey : config.channelKey address port = config'.channelKey address' port')
    : address = address' ∧ port = port' := by
  have hchannel := congrArg ChannelKey.channel hkey
  unfold AeronConfig.channelKey at hchannel
  simp only [h, h', Option.getD_none, List.append_assoc, List.append_cancel_left_eq] at hchannel
  have hcolon (n : Nat) : 58 ∉ (decimal n).reverse := by
    rw [List.mem_reverse]
    exact (allDigits_decimal n).not_mem (by decide)
  have hreverse := congrArg List.reverse hchannel
  have hascii : ascii ":" = [58] := by decide
  rw [hascii, List.reverse_append, List.reverse_append, List.reverse_append, List.reverse_append,
    List.reverse_singleton, List.append_assoc, List.append_assoc, List.singleton_append,
    List.singleton_append] at hreverse
  have hpre : (decimal port.toNat).reverse ++ 58 :: address.reverse
      <+: (decimal port'.toNat).reverse ++ 58 :: address'.reverse := by
    rw [hreverse]
  have hdigits := ((Search.prefix_mark_iff (hcolon _) (hcolon _)).mp hpre).1
  rw [hdigits, List.append_cancel_left_eq, List.cons.injEq] at hreverse
  have hvalue := congrArg value (List.reverse_injective hdigits)
  rw [value_decimal, value_decimal] at hvalue
  exact ⟨List.reverse_injective hreverse.2, UInt16.toNat_inj.mp hvalue⟩

end AeronProcess

end Velocitas
