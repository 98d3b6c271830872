import VelocitasFix.Transport.Aeron

/-!
This module contains what a read of the channel loses when it fails because the buffer is too small:
the frame is gone, and the next read goes on behind it.
-/

namespace Velocitas

namespace AeronTransport

-- The frames on the channel of an endpoint, the oldest one first.
def queue (t : AeronTransport) : List AeronFrame :=
  match t.bus with
  | none => []
  | some bus => bus.frames

-- The frame that a read takes out of the queue.
def next (t : AeronTransport) : Option AeronFrame :=
  t.queue.find? (·.senderId ≠ t.endpointId)

variable {t : AeronTransport} {n : Nat} {frame : AeronFrame}

theorem queue_of_bus {bus : AeronBus} (h : t.bus = some bus) : t.queue = bus.frames := by
  rw [queue, h]

theorem exists_bus_of_next (h : t.next = some frame)
    : ∃ bus, t.bus = some bus ∧ bus.frames.find? (·.senderId ≠ t.endpointId) = some frame := by
  cases hbus : t.bus with
  | none =>
    rw [next, queue, hbus] at h
    contradiction
  | some bus =>
    rw [next, queue_of_bus hbus] at h
    exact ⟨bus, rfl, h⟩

theorem recv_of_large (h : t.next = some frame) (hlarge : n < frame.payload.length)
    : (t.recv n).1 = .error .invalidInput
        ∧ (t.recv n).2.queue = t.queue.eraseP (·.senderId ≠ t.endpointId) := by
  obtain ⟨bus, hbus, hfind⟩ := exists_bus_of_next h
  rw [recv, hbus, queue_of_bus hbus]
  dsimp only
  rw [hfind]
  dsimp only
  rw [if_pos hlarge]
  exact ⟨rfl, rfl⟩

-- Only a frame that is larger than the buffer makes a read fail for want of room.
theorem exists_of_recv_invalidInput (h : (t.recv n).1 = .error .invalidInput)
    : ∃ frame, t.next = some frame ∧ n < frame.payload.length := by
  rw [recv] at h
  cases hbus : t.bus with
  | none =>
    rw [hbus] at h
    exact nomatch h
  | some bus =>
    rw [hbus] at h
    rw [next, queue_of_bus hbus]
    dsimp only at h
    split at h
    . exact nomatch h
    . next frame hfind =>
      split at h
      . next hlarge => exact ⟨frame, hfind, hlarge⟩
      . exact nomatch h

theorem length_eraseP_queue (h : t.next = some frame)
    : (t.queue.eraseP (·.senderId ≠ t.endpointId)).length + 1 = t.queue.length := by
  have hmem := List.mem_of_find?_eq_some h
  have hpos := List.length_pos_of_mem hmem
  rw [List.length_eraseP_of_mem hmem (List.find?_some h)]
  omega

/-
What is asked of a read that fails for want of room: the queue stays as it is, so that a buffer which
is large enough receives the frame, and the frames of each sender keep their order.
-/
structure LosesNothing (t : AeronTransport) (n : Nat) : Prop where
  queue_eq : (t.recv n).1 = .error .invalidInput → (t.recv n).2.queue = t.queue
  again : (t.recv n).1 = .error .invalidInput → ∀ frame m, t.next = some frame →
    frame.payload.length ≤ m → ((t.recv n).2.recv m).1 = .ok frame.payload
  order : (t.recv n).1 = .error .invalidInput → ∀ sender,
    (t.recv n).2.queue.filter (·.senderId = sender) = t.queue.filter (·.senderId = sender)

theorem losesNothing_iff (t : AeronTransport) (n : Nat)
    : (LosesNothing t n ↔ ∀ frame, t.next = some frame → frame.payload.length ≤ n)
        ∧ ∀ frame, t.next = some frame → n < frame.payload.length →
          (t.recv n).1 = .error .invalidInput
            ∧ (t.recv n).2.queue = t.queue.eraseP (·.senderId ≠ t.endpointId) := by
  refine ⟨⟨?_, ?_⟩, fun _ => recv_of_large⟩
  . intro h frame hnext
    by_contra hlarge
    obtain ⟨herror, hqueue⟩ := recv_of_large hnext (Nat.lt_of_not_le hlarge)
    have hlen := length_eraseP_queue hnext
    rw [← hqueue, h.queue_eq herror] at hlen
    omega
  . intro hfits
    have hnot : (t.recv n).1 ≠ .error .invalidInput := by
      intro herror
      obtain ⟨frame, hnext, hlarge⟩ := exists_of_recv_invalidInput herror
      have hle := hfits frame hnext
      omega
    exact ⟨fun herror => absurd herror hnot, fun herror => absurd herror hnot,
      fun herror => absurd herror hnot⟩

-- An endpoint with one frame of another endpoint on its channel.
def waiting (payload : Bytes) : AeronTransport :=
  (new 2).connect ⟨[⟨1, payload⟩]⟩

-- The frame is larger by one byte than the buffer that the engine reads into.
theorem not_losesNothing
    : ¬ ∀ (t : AeronTransport) (n : Nat), LosesNothing t n := by
  intro h
  have hnext : (waiting (List.replicate 8193 0)).next = some ⟨1, List.replicate 8193 0⟩ := rfl
  have hlarge : 8192 < (List.replicate 8193 (0 : UInt8)).length := by
    rw [List.length_replicate]
    omega
  obtain ⟨herror, hqueue⟩ := recv_of_large (n := 8192) hnext hlarge
  have hlen := length_eraseP_queue hnext
  rw [← hqueue, (h _ 8192).queue_eq herror] at hlen
  omega

end AeronTransport

end Velocitas
