import VelocitasFix.Engine.Context

/-!
This module contains the transport over a kernel TCP stream.
-/

namespace Velocitas

def Duration.fromMillis (millis : Nat) : Duration := millis * 1000000

-- The operations of a connected socket; each one may fail.
class TcpStream (S : Type) where
  setNodelay : S → Bool → Except ErrorKind Unit × S
  setReadTimeout : S → Option Duration → Except ErrorKind Unit × S
  read : S → Nat → Except ErrorKind Bytes × S
  writeAll : S → Bytes → Except ErrorKind Unit × S
  length_read : ∀ {s s' n data}, read s n = (.ok data, s') → data.length ≤ n

structure TransportConfig where
  tcpNodelay : Bool
  deriving DecidableEq, Repr

def TransportConfig.kernelTcp : TransportConfig where
  tcpNodelay := true

structure StdTcpTransport (S : Type) where
  stream : Option S
  connected : Bool
  config : TransportConfig

namespace StdTcpTransport

variable {S : Type} [TcpStream S]

omit [TcpStream S] in
def new (config : TransportConfig) : StdTcpTransport S where
  stream := none
  connected := false
  config := config

-- `dial` is what the operating system answers to `TcpStream::connect`.
def connect (dial : Bytes → UInt16 → Except ErrorKind S) (t : StdTcpTransport S)
    (address : Bytes) (port : UInt16)
    : Except ErrorKind Unit × StdTcpTransport S :=
  match dial address port with
  | .error e => (.error e, t)
  | .ok stream =>
    match TcpStream.setNodelay stream t.config.tcpNodelay with
    | (.error e, _) => (.error e, t)
    | (.ok _, stream) =>
      match TcpStream.setReadTimeout stream (some (.fromMillis 100)) with
      | (.error e, _) => (.error e, t)
      | (.ok _, stream) => (.ok (), { t with stream := some stream, connected := true })

def fromStream (stream : S) (config : TransportConfig)
    : Except ErrorKind (StdTcpTransport S) :=
  match TcpStream.setNodelay stream config.tcpNodelay with
  | (.error e, _) => .error e
  | (.ok _, stream) =>
    match TcpStream.setReadTimeout stream (some (.fromMillis 100)) with
    | (.error e, _) => .error e
    | (.ok _, stream) => .ok { stream := some stream, connected := true, config }

def send (t : StdTcpTransport S) (data : Bytes) : Except ErrorKind Nat × StdTcpTransport S :=
  match t.stream with
  | none => (.error .notConnected, t)
  | some stream =>
    match TcpStream.writeAll stream data with
    | (.error e, stream) => (.error e, { t with stream := some stream })
    | (.ok _, stream) => (.ok data.length, { t with stream := some stream })

-- A read that times out reads nothing.
def recv (t : StdTcpTransport S) (n : Nat) : Except ErrorKind Bytes × StdTcpTransport S :=
  match t.stream with
  | none => (.error .notConnected, t)
  | some stream =>
    match TcpStream.read stream n with
    | (.ok data, stream) => (.ok data, { t with stream := some stream })
    | (.error e, stream) =>
      if e = .wouldBlock ∨ e = .timedOut then
        (.ok [], { t with stream := some stream })
      else
        (.error e, { t with stream := some stream })

-- The socket is shut down and dropped.
def close (t : StdTcpTransport S) : Except ErrorKind Unit × StdTcpTransport S :=
  (.ok (), { t with stream := none, connected := false })

theorem length_recv {t t' : StdTcpTransport S} {n : Nat} {data : Bytes}
    (h : t.recv n = (.ok data, t'))
    : data.length ≤ n := by
  unfold recv at h
  split at h
  . exact nomatch congrArg Prod.fst h
  . split at h
    . next hread =>
      injection h with h
      injection h with h
      rw [← h]
      exact TcpStream.length_read hread
    . split at h
      . injection h with h
        injection h with h
        rw [← h]
        exact Nat.zero_le n
      . exact nomatch congrArg Prod.fst h

instance : Transport (StdTcpTransport S) where
  send := send
  recv := recv
  close := close
  length_recv := length_recv

theorem exists_send_iff (stream : S) (connected : Bool) (config : TransportConfig) (data : Bytes)
    : (∃ n, (Transport.send (StdTcpTransport.mk (some stream) connected config) data).1 = .ok n)
        ↔ (TcpStream.writeAll stream data).1 = .ok () := by
  change (∃ n, (send _ _).1 = .ok n) ↔ _
  unfold send
  dsimp only
  cases TcpStream.writeAll stream data with
  | mk res stream =>
    cases res with
    | error e => simp
    | ok _ => simp

end StdTcpTransport

end Velocitas
