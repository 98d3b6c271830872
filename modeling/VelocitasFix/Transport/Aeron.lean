import VelocitasFix.Engine.Numbering

/-!
This module contains the transport over an in-process channel: a queue of frames that all endpoints
of the channel share, each frame marked with the endpoint that sent it. The registry that finds the
queue of a channel is left out, so that opening an endpoint takes the queue itself.
-/

namespace Velocitas

structure AeronFrame where
  senderId : UInt64
  payload : Bytes
  deriving DecidableEq, Repr

structure AeronBus where
  frames : List AeronFrame
  deriving DecidableEq, Repr

structure AeronTransport where
  endpointId : UInt64
  connected : Bool
  bus : Option AeronBus
  deriving DecidableEq, Repr

namespace AeronTransport

def new (endpointId : UInt64) : AeronTransport where
  endpointId := endpointId
  connected := false
  bus := none

def connect (t : AeronTransport) (bus : AeronBus) : AeronTransport :=
  { t with bus := some bus, connected := true }

def bind (t : AeronTransport) (bus : AeronBus) : AeronTransport :=
  { t with bus := some bus, connected := true }

def send (t : AeronTransport) (data : Bytes) : Except ErrorKind Nat × AeronTransport :=
  match t.bus with
  | none => (.error .notConnected, t)
  | some bus =>
    let frame : AeronFrame := { senderId := t.endpointId, payload := data }
    (.ok data.length, { t with bus := some { frames := bus.frames ++ [frame] } })

-- The frame is removed before its size is compared with that of the buffer.
def recv (t : AeronTransport) (n : Nat) : Except ErrorKind Bytes × AeronTransport :=
  match t.bus with
  | none => (.error .notConnected, t)
  | some bus =>
    match bus.frames.find? (·.senderId ≠ t.endpointId) with
    | none => (.ok [], t)
    | some frame =>
      let frames := bus.frames.eraseP (·.senderId ≠ t.endpointId)
      let t := { t with bus := some { frames } }
      if frame.payload.length > n then
        (.error .invalidInput, t)
      else
        (.ok frame.payload, t)

def close (t : AeronTransport) : Except ErrorKind Unit × AeronTransport :=
  (.ok (), { t with connected := false })

theorem length_recv {t t' : AeronTransport} {n : Nat} {data : Bytes}
    (h : t.recv n = (.ok data, t'))
    : data.length ≤ n := by
  unfold recv at h
  split at h
  . exact nomatch congrArg Prod.fst h
  . split at h
    . injection h with h
      injection h with h
      rw [← h]
      exact Nat.zero_le n
    . dsimp only at h
      split at h
      . exact nomatch congrArg Prod.fst h
      . next hle =>
        injection h with h
        injection h with h
        rw [← h]
        exact Nat.le_of_not_lt hle

instance : Transport AeronTransport where
  send := send
  recv := recv
  close := close
  length_recv := length_recv

end AeronTransport

namespace AeronBus

-- The payloads of an endpoint that no other one has received yet, the oldest one first.
def sentBy (bus : AeronBus) (id : UInt64) : List Bytes :=
  (bus.frames.filter (·.senderId = id)).map AeronFrame.payload

-- The payloads that an endpoint can receive.
def inbox (bus : AeronBus) (id : UInt64) : List Bytes :=
  (bus.frames.filter (·.senderId ≠ id)).map AeronFrame.payload

def Between (bus : AeronBus) (x y : UInt64) : Prop :=
  ∀ frame ∈ bus.frames, frame.senderId = x ∨ frame.senderId = y

variable {bus : AeronBus} {x y : UInt64}

theorem Between.symm (h : bus.Between x y) : bus.Between y x :=
  fun frame hmem => (h frame hmem).symm

theorem Between.inbox_eq (h : bus.Between x y) (hne : x ≠ y) : bus.inbox y = bus.sentBy x := by
  have hfilter : bus.frames.filter (·.senderId ≠ y) = bus.frames.filter (·.senderId = x) := by
    apply List.filter_congr
    intro frame hmem
    rw [decide_eq_decide]
    cases h frame hmem with
    | inl hx => simp [hx, hne]
    | inr hy => simp [hy, hne.symm]
  rw [inbox, hfilter, sentBy]

theorem sentBy_push (id : UInt64) (data : Bytes)
    : sentBy ⟨bus.frames ++ [⟨id, data⟩]⟩ id = bus.sentBy id ++ [data] := by
  simp [sentBy]

theorem inbox_push (id : UInt64) (data : Bytes)
    : inbox ⟨bus.frames ++ [⟨id, data⟩]⟩ id = bus.inbox id := by
  simp [inbox]

theorem inbox_erase (id : UInt64)
    : inbox ⟨bus.frames.eraseP (·.senderId ≠ id)⟩ id = (bus.inbox id).tail := by
  unfold inbox
  induction bus.frames with
  | nil => rfl
  | cons frame frames ih =>
    by_cases hid : frame.senderId = id
    . simpa [hid] using ih
    . simp [hid]

theorem sentBy_erase (id : UInt64)
    : sentBy ⟨bus.frames.eraseP (·.senderId ≠ id)⟩ id = bus.sentBy id := by
  unfold sentBy
  induction bus.frames with
  | nil => rfl
  | cons frame frames ih =>
    by_cases hid : frame.senderId = id
    . simpa [hid] using ih
    . simp [hid]

end AeronBus

namespace AeronTransport

-- What a read of an open endpoint does: nothing, or it takes the oldest payload of another one.
inductive Reads (t : AeronTransport) (bus : AeronBus) (n : Nat)
    : Except ErrorKind Bytes × AeronTransport → Prop where
  | empty (hinbox : bus.inbox t.endpointId = []) : Reads t bus n (.ok [], t)
  | taken (payload : Bytes) (payloads : List Bytes) (bus' : AeronBus)
    (hinbox : bus.inbox t.endpointId = payload :: payloads)
    (hinbox' : bus'.inbox t.endpointId = payloads)
    (hsent : bus'.sentBy t.endpointId = bus.sentBy t.endpointId)
    (hframes : ∀ frame ∈ bus'.frames, frame ∈ bus.frames)
    : Reads t bus n
        (if payload.length > n then .error .invalidInput else .ok payload,
          { t with bus := some bus' })

theorem reads_of_bus {t : AeronTransport} {bus : AeronBus} (h : t.bus = some bus) (n : Nat)
    : t.Reads bus n (Transport.recv t n) := by
  change t.Reads bus n (t.recv n)
  have hhead : (bus.frames.filter (·.senderId ≠ t.endpointId)).head?
      = bus.frames.find? (·.senderId ≠ t.endpointId) :=
    List.head?_filter
  unfold recv
  rw [h]
  dsimp only
  cases hfind : bus.frames.find? (·.senderId ≠ t.endpointId) with
  | none =>
    rw [hfind, List.head?_eq_none_iff] at hhead
    apply Reads.empty
    rw [AeronBus.inbox, hhead, List.map_nil]
  | some frame =>
    rw [hfind, List.head?_eq_some_iff] at hhead
    obtain ⟨frames, hfilter⟩ := hhead
    have hinbox : bus.inbox t.endpointId
        = frame.payload :: frames.map AeronFrame.payload := by
      rw [AeronBus.inbox, hfilter, List.map_cons]
    have htaken := Reads.taken (t := t) (n := n) frame.payload (frames.map AeronFrame.payload)
      ⟨bus.frames.eraseP (·.senderId ≠ t.endpointId)⟩ hinbox
      (by rw [AeronBus.inbox_erase, hinbox, List.tail_cons])
      (AeronBus.sentBy_erase _) (fun _ hmem => List.mem_of_mem_eraseP hmem)
    dsimp only
    split at htaken
    . next hlarge => rw [if_pos hlarge]; exact htaken
    . next hlarge => rw [if_neg hlarge]; exact htaken

theorem isSome_bus_run {t : AeronTransport} (h : t.bus.isSome) (op : TransportOp)
    : (op.run t).bus.isSome := by
  obtain ⟨bus, hbus⟩ := Option.isSome_iff_exists.mp h
  cases op with
  | send data =>
    change (t.send data).2.bus.isSome
    simp [send, hbus]
  | recv n =>
    have hreads := reads_of_bus hbus n
    change (Transport.recv t n).2.bus.isSome
    generalize Transport.recv t n = res at hreads
    cases hreads with
    | empty => exact h
    | taken => rfl
  | close => exact h

theorem reliable_of_isSome {t : AeronTransport} (h : t.bus.isSome) : Reliable t := by
  intro ops data
  induction ops generalizing t with
  | nil =>
    obtain ⟨bus, hbus⟩ := Option.isSome_iff_exists.mp h
    refine ⟨data.length, ?_⟩
    change (t.send data).1 = _
    simp [send, hbus]
  | cons op ops ih => exact ih (isSome_bus_run h op)

end AeronTransport

end Velocitas
