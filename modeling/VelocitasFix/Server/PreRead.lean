import VelocitasFix.Engine.Numbering
import VelocitasFix.Engine.Script
import VelocitasFix.Server.Impl
import VelocitasFix.Transport.Socket

/-!
This module contains what becomes of the bytes that the server reads before it starts an engine: they
are in a buffer of their own, and the engine starts with the bytes that are still in the socket.
-/

namespace Velocitas

open FixParser (framer)

namespace Socket

theorem exists_of_read {s s' : Socket} {n : Nat} {data : Bytes} (h : s.read n = (.ok data, s'))
    (hne : data.length ≠ 0)
    : ∃ chunk reads, s.reads = .ok chunk :: reads
        ∧ (chunk.length ≤ n ∧ data = chunk ∧ s'.reads = reads
          ∨ n < chunk.length ∧ data = chunk.take n ∧ s'.reads = .ok (chunk.drop n) :: reads) := by
  unfold read at h
  split at h
  . injection h with hdata
    injection hdata with hdata
    rw [← hdata] at hne
    exact absurd rfl hne
  . exact nomatch congrArg Prod.fst h
  . next chunk reads hreads =>
    refine ⟨chunk, reads, hreads, ?_⟩
    split at h
    . next hle =>
      injection h with hdata hs
      injection hdata with hdata
      rw [← hs]
      exact .inl ⟨hle, hdata.symm, rfl⟩
    . next hlt =>
      injection h with hdata hs
      injection hdata with hdata
      rw [← hs]
      exact .inr ⟨Nat.lt_of_not_le hlt, hdata.symm, rfl⟩

theorem endsRead_cons {s : Socket} {chunk : Bytes} {reads : List (Except ErrorKind Bytes)}
    (hreads : s.reads = .ok chunk :: reads) {m : Nat} (hm : 0 < m)
    : s.EndsRead m ↔ ∃ k, chunk.length + (bytesOf (reads.take k)).length = m := by
  unfold EndsRead
  rw [hreads]
  constructor
  . rintro ⟨k, hk⟩
    cases k with
    | zero =>
      change 0 = m at hk
      omega
    | succ k =>
      rw [List.take_succ_cons, bytesOf_ok, List.length_append] at hk
      exact ⟨k, hk⟩
  . rintro ⟨k, hk⟩
    refine ⟨k + 1, ?_⟩
    rw [List.take_succ_cons, bytesOf_ok, List.length_append]
    exact hk

section Read

variable {s s' : Socket} {n m : Nat} {data : Bytes} (h : s.read n = (.ok data, s'))
  (hne : data.length ≠ 0) (hm : 0 < m)

include h hne hm

theorem endsRead_add : s.EndsRead (data.length + m) ↔ s'.EndsRead m := by
  obtain ⟨chunk, reads, hreads, hcases⟩ := exists_of_read h hne
  rw [endsRead_cons hreads (by omega)]
  cases hcases with
  | inl hwhole =>
    obtain ⟨_, hdata, hreads'⟩ := hwhole
    unfold EndsRead
    rw [hdata, hreads']
    apply exists_congr
    intro k
    exact Nat.add_left_cancel_iff
  | inr hcut =>
    obtain ⟨hlt, hdata, hreads'⟩ := hcut
    rw [endsRead_cons hreads' hm, hdata, List.length_take, List.length_drop]
    apply exists_congr
    intro k
    omega

-- The read that brings the last one of the next `m` bytes.
theorem endsRead_iff_of_le (hle : m ≤ data.length)
    : (data.length = m ↔ s.EndsRead m ∨ n = m) := by
  obtain ⟨chunk, reads, hreads, hcases⟩ := exists_of_read h hne
  have hlen := length_read h
  rw [endsRead_cons hreads hm]
  cases hcases with
  | inl hwhole =>
    rw [← hwhole.2.1]
    constructor
    . intro heq
      exact .inl ⟨0, heq⟩
    . rintro (⟨k, hk⟩ | heq)
      . omega
      . omega
  | inr hcut =>
    obtain ⟨hlt, hdata, _⟩ := hcut
    have hn : data.length = n := by
      rw [hdata, List.length_take]
      omega
    constructor
    . intro heq
      exact .inr (hn.symm.trans heq)
    . rintro (⟨k, hk⟩ | heq)
      . omega
      . omega

end Read

end Socket

section ReadLogon

variable {S : Type} [TcpStream S]

theorem readLogon_eq (parser : FixParser) (stream : S) (pre : Bytes)
    : readLogon parser stream pre
        = match TcpStream.read stream (4096 - pre.length) with
          | (.error e, stream) => (.error (.io e), stream)
          | (.ok data, stream) =>
            if data.length = 0 then
              (.error .closedBeforeLogon, stream)
            else
              match FixParser.findMessageBoundary (pre ++ data) with
              | some boundary => (parser.logonCompId ((pre ++ data).take boundary), stream)
              | none => readLogon parser stream (pre ++ data) := by
  rw [readLogon]
  split
  all_goals
    next hread =>
      generalize TcpStream.read stream (4096 - pre.length) = res at hread
      subst hread
      rfl

end ReadLogon

variable {logon rest : Bytes} (hlogon : framer.IsFrame logon)

include hlogon

theorem boundary_of_stream {pre pending : Bytes} (hstream : pre ++ pending = logon ++ rest)
    : FixParser.findMessageBoundary pre
        = if logon.length ≤ pre.length then some logon.length else none := by
  have hwhole : FixParser.findMessageBoundary (pre ++ pending) = some logon.length := by
    rw [hstream]
    exact hlogon rest
  split
  . next hle => exact (FixParser.findMessageBoundary_append hle).mp hwhole
  . next hlt =>
    cases hcut : FixParser.findMessageBoundary pre with
    | none => rfl
    | some n =>
      have hle : n ≤ pre.length := framer.le_of_cut hcut
      have heq : FixParser.findMessageBoundary (pre ++ pending) = some n :=
        (FixParser.findMessageBoundary_append hle).mpr hcut
      rw [hwhole] at heq
      injection heq with heq
      omega

-- One read of the pre-read: it completes the Logon, or the pre-read goes on behind what was read.
theorem readLogon_cases {parser : FixParser} {socket socket' : Socket} {pre compId : Bytes}
    (hstream : pre ++ socket.pending = logon ++ rest)
    (hread : readLogon parser socket pre = (.ok compId, socket'))
    : ∃ data socket1, TcpStream.read socket (4096 - pre.length) = (.ok data, socket1)
        ∧ data.length ≠ 0 ∧ (pre ++ data) ++ socket1.pending = logon ++ rest
        ∧ ((logon.length ≤ (pre ++ data).length ∧ parser.logonCompId logon = .ok compId
            ∧ socket1 = socket')
          ∨ ((pre ++ data).length < logon.length
            ∧ readLogon parser socket1 (pre ++ data) = (.ok compId, socket'))) := by
  rw [readLogon_eq] at hread
  cases hres : TcpStream.read socket (4096 - pre.length) with
  | mk res socket1 =>
    rw [hres] at hread
    cases res with
    | error err => exact nomatch congrArg Prod.fst hread
    | ok data =>
      dsimp only at hread
      split at hread
      . exact nomatch congrArg Prod.fst hread
      . next hne =>
        have hstream1 : (pre ++ data) ++ socket1.pending = logon ++ rest := by
          rw [← hstream, Socket.pending_read hres, List.append_assoc]
        refine ⟨data, socket1, rfl, hne, hstream1, ?_⟩
        rw [boundary_of_stream hlogon hstream1] at hread
        by_cases hle : logon.length ≤ (pre ++ data).length
        . have htake : (pre ++ data).take logon.length = logon := by
            have htaken := congrArg (List.take logon.length) hstream1
            rw [List.take_append_of_le_length hle, List.take_left] at htaken
            exact htaken
          rw [if_pos hle] at hread
          dsimp only at hread
          rw [htake, Prod.mk.injEq] at hread
          exact .inl ⟨hle, hread.1, hread.2⟩
        . rw [if_neg hle] at hread
          exact .inr ⟨Nat.lt_of_not_le hle, hread⟩

-- What the pre-read has taken of the stream when it succeeds, and which part of it the Logon is.
theorem exists_of_readLogon {parser : FixParser} {socket socket' : Socket} {pre compId : Bytes}
    (hpre : pre.length < logon.length) (hstream : pre ++ socket.pending = logon ++ rest)
    (hread : readLogon parser socket pre = (.ok compId, socket'))
    : ∃ pre', pre' ++ socket'.pending = logon ++ rest ∧ parser.logonCompId logon = .ok compId
        ∧ (pre'.length = logon.length
          ↔ socket.EndsRead (logon.length - pre.length) ∨ logon.length = 4096) := by
  induction hspace : 4096 - pre.length using Nat.strong_induction_on generalizing pre socket with
  | _ space ih =>
    obtain ⟨data, socket1, hres, hne, hstream1, hcases⟩ := readLogon_cases hlogon hstream hread
    have hlen : data.length ≤ 4096 - pre.length := Socket.length_read hres
    rw [List.length_append] at hcases
    cases hcases with
    | inl hfound =>
      obtain ⟨hle, hcompId, rfl⟩ := hfound
      refine ⟨pre ++ data, hstream1, hcompId, ?_⟩
      have hiff := Socket.endsRead_iff_of_le hres hne (m := logon.length - pre.length)
        (by omega) (by omega)
      have hends : data.length = logon.length - pre.length
          ↔ (pre ++ data).length = logon.length := by
        rw [List.length_append]
        omega
      have hfull : 4096 - pre.length = logon.length - pre.length
          ↔ logon.length = 4096 := by omega
      rw [← hends, ← hfull]
      exact hiff
    | inr hmore =>
      obtain ⟨hlt, hread1⟩ := hmore
      have hadd := Socket.endsRead_add hres hne (m := logon.length - (pre ++ data).length)
        (by rw [List.length_append]; omega)
      have hsum : data.length + (logon.length - (pre ++ data).length)
          = logon.length - pre.length := by
        rw [List.length_append]
        omega
      rw [hsum] at hadd
      rw [hadd]
      apply ih (4096 - (pre ++ data).length) _ _ hstream1 hread1 rfl
      . rw [List.length_append]
        omega
      . rw [List.length_append]
        omega

variable {A : Type} {config : FixServerConfig} {env : Env A} {connId : Nat} {compId : Bytes}

omit hlogon in
theorem exists_of_preRead {remote remote' : Bytes} {socket socket' : Socket}
    (h : (Thread.preRead remote socket : Thread Socket A) = .logonRead remote' compId socket')
    : ∃ socket1 : Socket, socket1.reads = socket.reads
        ∧ readLogon .new socket1 [] = (.ok compId, socket') := by
  unfold Thread.preRead at h
  split at h
  . contradiction
  . next hnodelay =>
    split at h
    . contradiction
    . next htimeout =>
      split at h
      . contradiction
      . next socket1 _ _ _ hread =>
        injection h with _ hcompId hsocket
        rw [hcompId, hsocket] at hread
        refine ⟨_, ?_, hread⟩
        have hreads := (socket.next.2.reads_next).trans socket.reads_next
        change socket.next = _ at hnodelay
        change Socket.next _ = _ at htimeout
        rw [hnodelay] at hreads
        dsimp only at hreads
        rw [htimeout] at hreads
        exact hreads

-- The engine that a set-up starts, over a transport with what is left in the socket.
omit hlogon in
theorem exists_of_setUp {socket : Socket} {s : RunState (StdTcpTransport Socket) A}
    (h : Thread.setUp config env connId compId socket = .running connId s)
    : ∃ transport : StdTcpTransport Socket,
        transport.stream.map Socket.pending = some socket.pending
          ∧ s = Entry.handleInboundLogon.start
            (.new transport (.new (config.sessionConfig connId compId) env.now) env.clock)
            env.app := by
  unfold Thread.setUp at h
  split at h
  . contradiction
  . next transport htransport =>
    refine ⟨transport, ?_, ?_⟩
    . unfold StdTcpTransport.fromStream at htransport
      split at htransport
      . contradiction
      . next hnodelay =>
        split at htransport
        . contradiction
        . next htimeout =>
          injection htransport with htransport
          have hpending := (socket.next.2.pending_next).trans socket.pending_next
          change socket.next = _ at hnodelay
          change Socket.next _ = _ at htimeout
          rw [hnodelay] at hpending
          dsimp only at hpending
          rw [htimeout] at hpending
          rw [← htransport]
          exact congrArg some hpending
    . dsimp only at h
      split at h
      . contradiction
      . contradiction
      . next engine hengine =>
        injection h with _ hs
        rw [← hs]
        unfold Entry.start
        dsimp only
        rw [hengine]
        rfl

omit hlogon in
theorem started_of_setUp {socket : Socket} {s : RunState (StdTcpTransport Socket) A}
    (h : Thread.setUp config env connId compId socket = .running connId s) (app : FixApp A)
    : s.engine.parser = .new ∧ s.engine.sendBuf.length = 4096 ∧ received s.engine.ctx.log = []
        ∧ s.engine.ctx.transport.stream.map Socket.pending = some socket.pending := by
  obtain ⟨transport, hpending, hs⟩ := exists_of_setUp h
  let session := Session.new (config.sessionConfig connId compId) env.now
  let e : FixEngine (StdTcpTransport Socket) := .new transport session env.clock
  have hstarted := start_started env.app transport session env.clock .handleInboundLogon
  let pending (t : StdTcpTransport Socket) : Option Bytes := t.stream.map Socket.pending
  have hheld := @preserved_pending _ _ _ _ pending Socket.inbound_tcp.send app (some socket.pending)
  have hpreserved := hheld.start .handleInboundLogon (e := e) env.app List.length_replicate hpending
  have hengine := Entry.handleInboundLogon.start_engine e env.app
  change _ = (Call.handleInboundLogon.start e env.app).engine at hengine
  rw [← hengine] at hpreserved
  rw [hs]
  exact ⟨hstarted.parser, hstarted.sendBuf, hstarted.taken_log.2, hpreserved⟩

theorem engine_sees_rest_iff {remote remote' : Bytes} {socket socket' : Socket}
    {s : RunState (StdTcpTransport Socket) A} (hstream : socket.pending = logon ++ rest)
    (hread : (Thread.preRead remote socket : Thread Socket A) = .logonRead remote' compId socket')
    (hstart : Thread.setUp config env connId compId socket' = .running connId s) (app : FixApp A)
    : (∀ n, (runFor app n s).engine.Streams (fun t => t.stream.map Socket.pending) rest)
        ↔ socket.EndsRead logon.length ∨ logon.length = 4096 := by
  obtain ⟨socket1, hreads, hlogonRead⟩ := exists_of_preRead hread
  have hne : ([] : Bytes).length < logon.length := by
    have := framer.pos_of_cut (framer.isFrame_iff.mp hlogon)
    exact this
  have hstream1 : [] ++ socket1.pending = logon ++ rest := by
    rw [← hstream]
    exact congrArg Socket.bytesOf hreads
  obtain ⟨pre, hpre, _, hiff⟩ := exists_of_readLogon hlogon hne hstream1 hlogonRead
  have hends : socket.EndsRead logon.length ↔ socket1.EndsRead logon.length := by
    unfold Socket.EndsRead
    rw [hreads]
  have hrest : pre.length = logon.length ↔ socket'.pending = rest := by
    constructor
    . intro hlen
      exact (List.append_inj hpre hlen).2
    . intro heq
      rw [heq] at hpre
      rw [List.append_cancel_right hpre]
  rw [hends]
  rw [List.length_nil, Nat.sub_zero] at hiff
  rw [← hiff, hrest]
  obtain ⟨hparser, hlen, hreceived, hpending⟩ := started_of_setUp hstart app
  constructor
  . intro hall
    have hzero := (hall 0).rest socket'.pending hpending
    change received s.engine.ctx.log ++ _ = _ at hzero
    rw [hreceived] at hzero
    exact hzero
  . intro heq n
    apply Socket.inbound_tcp.runFor app hparser hlen
    constructor
    . rw [hreceived]
      apply List.nil_prefix
    . intro bytes hbytes
      rw [hreceived, ← heq]
      exact Option.some.inj (hbytes.symm.trans hpending)

omit hlogon

-- The first read brings the Logon, and all that is read is in the buffer.
theorem preRead_of_logon {chunk : Bytes} {n : Nat} (remote : Bytes)
    (reads : List (Except ErrorKind Bytes)) (outcomes : List (Except ErrorKind Unit))
    (hcut : FixParser.findMessageBoundary chunk = some n) (hlen : chunk.length ≤ 4096)
    (hcompId : FixParser.logonCompId .new (chunk.take n) = .ok compId)
    : (Thread.preRead remote (Socket.mk (.ok chunk :: reads) (.ok () :: .ok () :: outcomes))
          : Thread Socket A)
        = .logonRead remote compId ⟨reads, outcomes⟩ := by
  have hread : TcpStream.read (Socket.mk (.ok chunk :: reads) outcomes)
      (4096 - ([] : Bytes).length) = (.ok chunk, ⟨reads, outcomes⟩) := by
    change Socket.read _ _ = _
    unfold Socket.read
    dsimp only
    rw [List.length_nil, Nat.sub_zero, if_pos hlen]
  have hne : chunk.length ≠ 0 := by
    have hpos := framer.pos_of_cut hcut
    have hle := framer.le_of_cut hcut
    omega
  have hlogonRead : readLogon .new (Socket.mk (.ok chunk :: reads) outcomes) []
      = (.ok compId, ⟨reads, outcomes⟩) := by
    rw [readLogon_eq, hread]
    dsimp only
    rw [if_neg hne, List.nil_append, hcut]
    dsimp only
    rw [hcompId]
  have hnodelay : TcpStream.setNodelay (Socket.mk (.ok chunk :: reads) (.ok () :: .ok () :: outcomes))
      true = (.ok (), ⟨.ok chunk :: reads, .ok () :: outcomes⟩) := rfl
  have htimeout : TcpStream.setReadTimeout (Socket.mk (.ok chunk :: reads) (.ok () :: outcomes))
      (some (.fromSecs 10)) = (.ok (), ⟨.ok chunk :: reads, outcomes⟩) := rfl
  unfold Thread.preRead
  rw [hnodelay]
  dsimp only
  rw [htimeout]
  dsimp only
  rw [hlogonRead]

theorem exists_setUp (config : FixServerConfig) (env : Env A) (connId : Nat) (compId : Bytes)
    (reads : List (Except ErrorKind Bytes)) (hfits : (config.sessionConfig connId compId).Fits)
    : ∃ s, Thread.setUp config env connId compId (Socket.mk reads []) = .running connId s := by
  let transport : StdTcpTransport Socket := ⟨some ⟨reads, []⟩, true, .kernelTcp⟩
  let e : FixEngine (StdTcpTransport Socket) :=
    ((FixEngine.new transport (.new (config.sessionConfig connId compId) env.now)
      env.clock).connect.atInstant .onLogon).record .handledLogon
  have hle : (e.nextMessage FixEngine.logonMessage).bytes.length ≤ 4096 :=
    hfits _ (by simp [Preserved.allKinds]) _ _
  have hlen : e.sendBuf.length = 4096 := List.length_replicate
  rw [← hlen] at hle
  obtain ⟨e', hout, -⟩ := FixEngine.exists_sendBuilt_of_ok hle rfl
  have hfrom : StdTcpTransport.fromStream (Socket.mk reads []) .kernelTcp = .ok transport := rfl
  have hlogon : (FixEngine.new transport (.new (config.sessionConfig connId compId) env.now)
      env.clock).handleInboundLogon = .next (e'.atInstant .onMessageSent) := by
    change (e.sendBuilt FixEngine.logonMessage).bind _ id = _
    rw [hout]
    rfl
  unfold Thread.setUp
  rw [hfrom]
  dsimp only
  rw [hlogon]
  exact ⟨_, rfl⟩

section Samples

def sampleEnv : Env Unit := ⟨0, 0, stoppedClock, ()⟩

theorem logonCompId_logonFrame : FixParser.logonCompId .new (logonFrame 1) = .ok (ascii "PEER") := by
  decide +kernel

theorem preRead_logonFrame (remote more : Bytes) (reads : List (Except ErrorKind Bytes))
    (outcomes : List (Except ErrorKind Unit)) (hlen : (logonFrame 1 ++ more).length ≤ 4096)
    : (Thread.preRead remote
          (Socket.mk (.ok (logonFrame 1 ++ more) :: reads) (.ok () :: .ok () :: outcomes))
            : Thread Socket A)
        = .logonRead remote (ascii "PEER") ⟨reads, outcomes⟩ := by
  apply preRead_of_logon remote reads outcomes ((peerFrame_logon 1).isFrame more) hlen
  rw [List.take_left]
  exact logonCompId_logonFrame

theorem exists_setUp_default (reads : List (Except ErrorKind Bytes))
    : ∃ s, Thread.setUp .default sampleEnv 64 (ascii "PEER") (Socket.mk reads [])
        = .running 64 s :=
  exists_setUp .default sampleEnv 64 (ascii "PEER") reads
    (SessionConfig.fits_of_length_le (by decide))

theorem engine_sees_rest_separate
    : ∃ s, Thread.setUp .default sampleEnv 64 (ascii "PEER") (Socket.mk [.ok (orderFrame 2)] [])
          = .running 64 s
        ∧ ∀ n, (runFor silentApp n s).engine.Streams (fun t => t.stream.map Socket.pending)
          (orderFrame 2) := by
  obtain ⟨s, hstart⟩ := exists_setUp_default [.ok (orderFrame 2)]
  have hread := preRead_logonFrame (A := Unit) [] [] [.ok (orderFrame 2)] [] (by decide +kernel)
  rw [List.append_nil] at hread
  refine ⟨s, hstart, ?_⟩
  apply (engine_sees_rest_iff (peerFrame_logon 1).isFrame _ hread hstart silentApp).mpr
  . exact .inl ⟨1, congrArg List.length (List.append_nil _)⟩
  . change logonFrame 1 ++ (orderFrame 2 ++ []) = _
    rw [List.append_nil]

-- The client sends its first order together with the Logon.
theorem not_engine_sees_rest
    : ∃ s, Thread.preRead [] (Socket.mk [.ok (logonFrame 1 ++ orderFrame 2)] [.ok (), .ok ()])
          = (.logonRead [] (ascii "PEER") (Socket.mk [] []) : Thread Socket Unit)
        ∧ Thread.setUp .default sampleEnv 64 (ascii "PEER") (Socket.mk [] []) = .running 64 s
        ∧ ¬ ∀ n, (runFor silentApp n s).engine.Streams (fun t => t.stream.map Socket.pending)
          (orderFrame 2) := by
  obtain ⟨s, hstart⟩ := exists_setUp_default []
  have hread := preRead_logonFrame (A := Unit) [] (orderFrame 2) [] [] (by decide +kernel)
  refine ⟨s, hread, hstart, ?_⟩
  intro hall
  obtain ⟨_, _, hreceived, hpending⟩ := started_of_setUp hstart silentApp
  have hrest := (hall 0).rest [] hpending
  change received s.engine.ctx.log ++ [] = _ at hrest
  rw [hreceived] at hrest
  have hlen := congrArg List.length hrest
  exact absurd hlen (by decide +kernel)

end Samples

end Velocitas
