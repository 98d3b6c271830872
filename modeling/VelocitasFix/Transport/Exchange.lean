import VelocitasFix.Transport.Aeron

/-!
This module contains any number of endpoints on one channel, and the proof that the channel delivers:
the frames of each sender are received in the order in which they were sent, each of them once.
-/

namespace Velocitas

-- A payload that an endpoint received, and who had sent it.
structure Receipt where
  receiver : UInt64
  sender : UInt64
  payload : Bytes
  deriving DecidableEq, Repr

-- The queue of the channel, and what was sent and received on it so far.
structure Exchange where
  bus : AeronBus
  sent : List AeronFrame
  received : List Receipt
  deriving DecidableEq, Repr

namespace Exchange

inductive Op where
  | send (id : UInt64) (data : Bytes)
  | recv (id : UInt64) (n : Nat)
  deriving DecidableEq, Repr

def Op.id : Op → UInt64
  | .send id _ => id
  | .recv id _ => id

def empty : Exchange where
  bus := ⟨[]⟩
  sent := []
  received := []

-- An open endpoint of the channel.
def endpoint (x : Exchange) (id : UInt64) : AeronTransport :=
  (AeronTransport.new id).connect x.bus

-- Who sent the frame that a read of the endpoint would take.
def nextSender (x : Exchange) (id : UInt64) : Option UInt64 :=
  (x.bus.frames.find? (·.senderId ≠ id)).map AeronFrame.senderId

def step (x : Exchange) : Op → Exchange
  | .send id data =>
    let t := ((x.endpoint id).send data).2
    { x with bus := t.bus.getD x.bus, sent := x.sent ++ [⟨id, data⟩] }
  | .recv id n =>
    let (result, t) := (x.endpoint id).recv n
    let bus := t.bus.getD x.bus
    match x.nextSender id, result with
    | some sender, .ok payload =>
      if payload.isEmpty then
        { x with bus }
      else
        { x with bus, received := x.received ++ [⟨id, sender, payload⟩] }
    | _, _ => { x with bus }

def run (ops : List Op) : Exchange := ops.foldl step empty

def sentBy (x : Exchange) (id : UInt64) : List Bytes :=
  (x.sent.filter (·.senderId = id)).map AeronFrame.payload

def receivedFrom (x : Exchange) (sender : UInt64) : List Receipt :=
  x.received.filter (·.sender = sender)

def receivedBy (x : Exchange) (receiver sender : UInt64) : List Bytes :=
  ((x.receivedFrom sender).filter (·.receiver = receiver)).map Receipt.payload

-- The payloads are not empty, and every buffer is large enough for each of them.
structure Suited (ops : List Op) : Prop where
  nonempty : ∀ id data, .send id data ∈ ops → data ≠ []
  fits : ∀ id data, .send id data ∈ ops → ∀ id' n, .recv id' n ∈ ops → data.length ≤ n

-- What a read takes out of the queue: the first frame of another endpoint.
theorem frames_of_find {frames : List AeronFrame} {id : UInt64} {frame : AeronFrame}
    (h : frames.find? (·.senderId ≠ id) = some frame)
    : frame.senderId ≠ id ∧ frame ∈ frames
        ∧ ∀ sender, (frames.filter (·.senderId = sender))
          = (if frame.senderId = sender then [frame] else [])
            ++ (frames.eraseP (·.senderId ≠ id)).filter (·.senderId = sender) := by
  refine ⟨by simpa using List.find?_some h, List.mem_of_find?_eq_some h, ?_⟩
  intro sender
  induction frames with
  | nil => contradiction
  | cons f fs ih =>
    by_cases hid : f.senderId = id
    . rw [List.find?_cons_of_neg (by simpa using hid)] at h
      rw [List.eraseP_cons_of_neg (by simpa using hid), List.filter_cons, List.filter_cons, ih h]
      split
      . next hf =>
        have hne : frame.senderId ≠ sender := by
          have hframe := List.find?_some h
          simp only [ne_eq, decide_not, Bool.not_eq_true', decide_eq_false_iff_not] at hframe hf
          simp only [decide_eq_true_eq] at hf
          rw [← hf, hid]
          exact hframe
        rw [if_neg hne]
        rfl
      . rfl
    . rw [List.find?_cons_of_pos (by simpa using hid)] at h
      injection h with h
      rw [List.eraseP_cons_of_pos (by simpa using hid), List.filter_cons, h]
      by_cases hsender : frame.senderId = sender
      . simp [hsender]
      . simp [hsender]

theorem recv_endpoint_of_none {x : Exchange} {id : UInt64} {n : Nat}
    (h : x.bus.frames.find? (·.senderId ≠ id) = none)
    : (x.endpoint id).recv n = (.ok [], x.endpoint id) := by
  have hbus : (x.endpoint id).bus = some x.bus := rfl
  have hfind : x.bus.frames.find? (·.senderId ≠ (x.endpoint id).endpointId) = none := h
  rw [AeronTransport.recv, hbus]
  dsimp only
  rw [hfind]

theorem recv_endpoint_of_some {x : Exchange} {id : UInt64} {n : Nat} {frame : AeronFrame}
    (h : x.bus.frames.find? (·.senderId ≠ id) = some frame) (hfit : frame.payload.length ≤ n)
    : (x.endpoint id).recv n
        = (.ok frame.payload,
            { x.endpoint id with bus := some ⟨x.bus.frames.eraseP (·.senderId ≠ id)⟩ }) := by
  have hbus : (x.endpoint id).bus = some x.bus := rfl
  have hfind : x.bus.frames.find? (·.senderId ≠ (x.endpoint id).endpointId) = some frame := h
  rw [AeronTransport.recv, hbus]
  dsimp only
  rw [hfind]
  dsimp only
  rw [if_neg (Nat.not_lt.mpr hfit)]
  rfl

theorem step_recv_of_none {x : Exchange} {id : UInt64} {n : Nat}
    (h : x.bus.frames.find? (·.senderId ≠ id) = none)
    : x.step (.recv id n) = x := by
  simp only [step, nextSender, recv_endpoint_of_none h, h]
  rfl

theorem step_recv_of_some {x : Exchange} {id : UInt64} {n : Nat} {frame : AeronFrame}
    (h : x.bus.frames.find? (·.senderId ≠ id) = some frame) (hnonempty : frame.payload ≠ [])
    (hfit : frame.payload.length ≤ n)
    : x.step (.recv id n)
        = { x with
            bus := ⟨x.bus.frames.eraseP (·.senderId ≠ id)⟩
            received := x.received ++ [⟨id, frame.senderId, frame.payload⟩] } := by
  simp only [step, nextSender, recv_endpoint_of_some h hfit, h, Option.map_some]
  rw [if_neg (by simpa using hnonempty)]
  rfl

-- Each sender's frames: those received so far, by whoever it was, and then those in the queue.
structure Delivers (P : Bytes → Prop) (x : Exchange) : Prop where
  flow : ∀ sender, x.sentBy sender
    = (x.receivedFrom sender).map Receipt.payload ++ x.bus.sentBy sender
  others : ∀ r ∈ x.received, r.receiver ≠ r.sender
  queued : ∀ frame ∈ x.bus.frames, P frame.payload

theorem Delivers.send {P : Bytes → Prop} {x : Exchange} (h : Delivers P x) (id : UInt64)
    {data : Bytes} (hdata : P data)
    : Delivers P (x.step (.send id data)) := by
  have hstep : x.step (.send id data)
      = { x with bus := ⟨x.bus.frames ++ [⟨id, data⟩]⟩, sent := x.sent ++ [⟨id, data⟩] } := rfl
  rw [hstep]
  constructor
  case flow =>
    intro sender
    have hflow := h.flow sender
    unfold sentBy receivedFrom AeronBus.sentBy at hflow ⊢
    rw [List.filter_append, List.map_append, hflow, List.filter_append, List.map_append,
      List.append_assoc]
  case others => exact h.others
  case queued =>
    intro frame hframe
    rw [List.mem_append, List.mem_singleton] at hframe
    cases hframe with
    | inl hmem => exact h.queued frame hmem
    | inr heq =>
      rw [heq]
      exact hdata

theorem Delivers.recv {P : Bytes → Prop} {x : Exchange} (h : Delivers P x) (id : UInt64) {n : Nat}
    (hP : ∀ data, P data → data ≠ [] ∧ data.length ≤ n)
    : Delivers P (x.step (.recv id n)) := by
  cases hfind : x.bus.frames.find? (·.senderId ≠ id) with
  | none =>
    rw [step_recv_of_none hfind]
    exact h
  | some frame =>
    obtain ⟨hother, hmem, hfilter⟩ := frames_of_find hfind
    obtain ⟨hnonempty, hfit⟩ := hP frame.payload (h.queued frame hmem)
    rw [step_recv_of_some hfind hnonempty hfit]
    constructor
    case flow =>
      intro sender
      have hflow := h.flow sender
      unfold sentBy receivedFrom AeronBus.sentBy at hflow ⊢
      rw [hflow, hfilter sender, List.filter_append, List.map_append, List.map_append,
        List.append_assoc]
      congr 2
      by_cases hsender : frame.senderId = sender
      . simp [hsender]
      . simp [hsender]
    case others =>
      intro r hr
      rw [List.mem_append, List.mem_singleton] at hr
      cases hr with
      | inl hmem => exact h.others r hmem
      | inr heq =>
        rw [heq]
        exact hother.symm
    case queued =>
      intro f hf
      exact h.queued f (List.mem_of_mem_eraseP hf)

theorem run_delivers {P : Bytes → Prop} {ops : List Op}
    (hsend : ∀ id data, .send id data ∈ ops → P data)
    (hrecv : ∀ id n, .recv id n ∈ ops → ∀ data, P data → data ≠ [] ∧ data.length ≤ n)
    : Delivers P (run ops) := by
  have hempty : Delivers P empty := ⟨fun _ => rfl, nofun, nofun⟩
  unfold run
  generalize empty = x at hempty
  induction ops generalizing x with
  | nil => exact hempty
  | cons op ops ih =>
    apply ih
    . intro id data hmem
      exact hsend id data (List.mem_cons_of_mem op hmem)
    . intro id n hmem
      exact hrecv id n (List.mem_cons_of_mem op hmem)
    . cases op with
      | send id data => exact hempty.send id (hsend id data List.mem_cons_self)
      | recv id n => exact hempty.recv id (hrecv id n List.mem_cons_self)

theorem receiver_of_mem_received {p : UInt64 → Prop} {ops : List Op} (h : ∀ op ∈ ops, p op.id)
    : ∀ r ∈ (run ops).received, p r.receiver := by
  have hempty : ∀ r ∈ empty.received, p r.receiver := nofun
  unfold run
  generalize empty = x at hempty
  induction ops generalizing x with
  | nil => exact hempty
  | cons op ops ih =>
    rw [List.forall_mem_cons] at h
    apply ih h.2
    cases op with
    | send id data => exact hempty
    | recv id n =>
      intro r hr
      unfold step at hr
      dsimp only at hr
      split at hr
      . split at hr
        . exact hempty r hr
        . rw [List.mem_append, List.mem_singleton] at hr
          cases hr with
          | inl hmem => exact hempty r hmem
          | inr heq =>
            rw [heq]
            exact h.1
      . exact hempty r hr

-- Whatever the order of the operations was, and so at every moment of a run.
theorem bus_delivers (ops : List Op) (h : Suited ops)
    : let x := run ops
      (∀ sender, x.sentBy sender
          = (x.receivedFrom sender).map Receipt.payload ++ x.bus.sentBy sender)
        ∧ (∀ r ∈ x.received, r.receiver ≠ r.sender)
        ∧ (∀ sender receiver, (x.receivedBy receiver sender).Sublist (x.sentBy sender))
        ∧ ∀ sender receiver, sender ≠ receiver → (∀ op ∈ ops, op.id = sender ∨ op.id = receiver) →
          x.receivedBy receiver sender <+: x.sentBy sender := by
  intro x
  have hdelivers : Delivers
      (fun data => data ≠ [] ∧ ∀ id n, .recv id n ∈ ops → data.length ≤ n) x := by
    apply run_delivers
    . intro id data hmem
      exact ⟨h.nonempty id data hmem, h.fits id data hmem⟩
    . intro id n hmem data hdata
      exact ⟨hdata.1, hdata.2 id n hmem⟩
  refine ⟨hdelivers.flow, hdelivers.others, ?_, ?_⟩
  . intro sender receiver
    rw [hdelivers.flow sender]
    apply List.Sublist.trans _ (List.sublist_append_left _ _)
    exact List.Sublist.map _ List.filter_sublist
  . intro sender receiver hne htwo
    have hreceiver := receiver_of_mem_received (p := fun id => id = sender ∨ id = receiver) htwo
    have hall : (x.receivedFrom sender).filter (·.receiver = receiver) = x.receivedFrom sender := by
      rw [List.filter_eq_self]
      intro r hr
      unfold receivedFrom at hr
      rw [List.mem_filter, decide_eq_true_eq] at hr
      have hother := hdelivers.others r hr.1
      rw [decide_eq_true_eq]
      cases hreceiver r hr.1 with
      | inl heq => exact absurd (heq.trans hr.2.symm) hother
      | inr heq => exact heq
    rw [receivedBy, hall, hdelivers.flow sender]
    apply List.prefix_append

-- Two senders and two readers, the second sender among them.
theorem bus_delivers_three
    : let ops : List Op :=
        [.send 1 [65], .send 2 [66], .send 1 [67], .recv 2 8, .recv 3 8, .recv 3 8]
      let x := run ops
      (∀ sender, x.sentBy sender
          = (x.receivedFrom sender).map Receipt.payload ++ x.bus.sentBy sender)
        ∧ (∀ r ∈ x.received, r.receiver ≠ r.sender)
        ∧ (∀ sender receiver, (x.receivedBy receiver sender).Sublist (x.sentBy sender))
        ∧ ∀ sender receiver, sender ≠ receiver → (∀ op ∈ ops, op.id = sender ∨ op.id = receiver) →
          x.receivedBy receiver sender <+: x.sentBy sender :=
  bus_delivers _ ⟨by simp; grind, by simp; grind⟩

end Exchange

end Velocitas
