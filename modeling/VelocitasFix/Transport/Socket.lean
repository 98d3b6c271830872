import VelocitasFix.Engine.Inbound
import VelocitasFix.Transport.Tcp

/-!
This module contains a socket whose behaviour is fixed in advance: how it divides the stream of the
client into reads, which reads fail, and how its other operations end.
-/

namespace Velocitas

section

variable {S : Type} [TcpStream S] {pending : S → Bytes}

-- What is left to be read of the stream is what is left to be read of the transport.
theorem StdTcpTransport.inbound
    (hwrite : ∀ (s : S) (data : Bytes), pending (TcpStream.writeAll s data).2 = pending s)
    (hread : ∀ {s s' : S} {n : Nat} {data : Bytes}, TcpStream.read s n = (.ok data, s') →
      pending s = data ++ pending s')
    (herror : ∀ {s s' : S} {n : Nat} {err : ErrorKind}, TcpStream.read s n = (.error err, s') →
      pending s = pending s')
    : Inbound (fun t : StdTcpTransport S => t.stream.map pending) where
  send := by
    intro t data
    change (t.send data).2.stream.map pending = _
    unfold StdTcpTransport.send
    split
    . rfl
    . next stream hstream =>
      have hnext := hwrite stream data
      rw [hstream]
      split
      all_goals
        next heq =>
          rw [heq] at hnext
          exact congrArg some hnext
  recv := by
    intro t t' n data hrecv
    change t.recv n = _ at hrecv
    unfold StdTcpTransport.recv at hrecv
    split at hrecv
    . exact nomatch congrArg Prod.fst hrecv
    . next stream hstream =>
      rw [hstream]
      split at hrecv
      . next stream' hok =>
        injection hrecv with hdata ht
        injection hdata with hdata
        rw [← ht, ← hdata]
        exact ⟨pending stream', congrArg some (hread hok), rfl⟩
      . next stream' hfailed =>
        split at hrecv
        . injection hrecv with hdata ht
          injection hdata with hdata
          rw [← ht, ← hdata]
          exact ⟨pending stream', congrArg some (herror hfailed), rfl⟩
        . exact nomatch congrArg Prod.fst hrecv
  recv_error := by
    intro t t' n err hrecv
    change t.recv n = _ at hrecv
    unfold StdTcpTransport.recv at hrecv
    split at hrecv
    . injection hrecv with _ ht
      rw [ht]
    . next stream hstream =>
      rw [hstream]
      split at hrecv
      . exact nomatch congrArg Prod.fst hrecv
      . next hfailed =>
        split at hrecv
        . exact nomatch congrArg Prod.fst hrecv
        . injection hrecv with _ ht
          rw [← ht]
          exact congrArg some (herror hfailed).symm
  close := fun _ => .inl rfl

end

-- The end of `reads` is the end of the stream, and operations succeed after `outcomes`.
structure Socket where
  reads : List (Except ErrorKind Bytes)
  outcomes : List (Except ErrorKind Unit)

namespace Socket

def next (s : Socket) : Except ErrorKind Unit × Socket :=
  match s.outcomes with
  | [] => (.ok (), s)
  | res :: outcomes => (res, { s with outcomes })

-- A read into less space than a chunk needs leaves the rest of the chunk to the next one.
def read (s : Socket) (n : Nat) : Except ErrorKind Bytes × Socket :=
  match s.reads with
  | [] => (.ok [], s)
  | .error e :: reads => (.error e, { s with reads })
  | .ok chunk :: reads =>
    if chunk.length ≤ n then
      (.ok chunk, { s with reads })
    else
      (.ok (chunk.take n), { s with reads := .ok (chunk.drop n) :: reads })

theorem length_read {s s' : Socket} {n : Nat} {data : Bytes} (h : s.read n = (.ok data, s'))
    : data.length ≤ n := by
  unfold read at h
  split at h
  . injection h with h
    injection h with h
    rw [← h]
    exact Nat.zero_le n
  . exact nomatch congrArg Prod.fst h
  . split at h
    . next hle =>
      injection h with h
      injection h with h
      rw [← h]
      exact hle
    . injection h with h
      injection h with h
      rw [← h, List.length_take]
      exact Nat.min_le_left _ _

instance : TcpStream Socket where
  setNodelay := fun s _ => s.next
  setReadTimeout := fun s _ => s.next
  read := read
  writeAll := fun s _ => s.next
  length_read := length_read

def bytesOf (reads : List (Except ErrorKind Bytes)) : Bytes :=
  (reads.filterMap Except.toOption).flatten

-- The bytes of the client that have not been read yet.
def pending (s : Socket) : Bytes := bytesOf s.reads

-- Some read, of those that lie ahead, ends after the next `n` bytes.
def EndsRead (s : Socket) (n : Nat) : Prop := ∃ k, (bytesOf (s.reads.take k)).length = n

theorem reads_next (s : Socket) : s.next.2.reads = s.reads := by
  unfold next
  split
  . rfl
  . rfl

theorem pending_next (s : Socket) : s.next.2.pending = s.pending := by
  unfold pending
  rw [s.reads_next]

theorem bytesOf_ok (chunk : Bytes) (reads : List (Except ErrorKind Bytes))
    : bytesOf (.ok chunk :: reads) = chunk ++ bytesOf reads := rfl

theorem pending_read {s s' : Socket} {n : Nat} {data : Bytes} (h : s.read n = (.ok data, s'))
    : s.pending = data ++ s'.pending := by
  unfold read at h
  unfold pending
  split at h
  . next hreads =>
    injection h with hdata hs
    injection hdata with hdata
    rw [← hdata, ← hs]
    rfl
  . exact nomatch congrArg Prod.fst h
  . next chunk reads hreads =>
    rw [hreads, bytesOf_ok]
    split at h
    . injection h with hdata hs
      injection hdata with hdata
      rw [← hdata, ← hs]
    . injection h with hdata hs
      injection hdata with hdata
      rw [← hdata, ← hs, bytesOf_ok, ← List.append_assoc, List.take_append_drop]

theorem pending_read_error {s s' : Socket} {n : Nat} {err : ErrorKind}
    (h : s.read n = (.error err, s'))
    : s.pending = s'.pending := by
  unfold read at h
  unfold pending
  split at h
  . exact nomatch congrArg Prod.fst h
  . next hreads =>
    injection h with _ hs
    rw [← hs, hreads]
    rfl
  . split at h
    . exact nomatch congrArg Prod.fst h
    . exact nomatch congrArg Prod.fst h

theorem inbound_tcp : Inbound (fun t : StdTcpTransport Socket => t.stream.map pending) :=
  StdTcpTransport.inbound (fun s _ => s.pending_next) pending_read pending_read_error

end Socket

end Velocitas
