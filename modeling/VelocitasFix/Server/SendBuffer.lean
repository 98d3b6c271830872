import VelocitasFix.Data.Utf8
import VelocitasFix.Engine.SendBuffer
import VelocitasFix.Server.Release

/-!
This module contains the room that the SenderCompID of an accepted Logon leaves in the send buffer of
the session that is started for it: the CompID is written back into every message of the session.
-/

namespace Velocitas

open Ascii

theorem FixSerializer.isSome_serialize_iff (buffer : Bytes) (m : OutMessage)
    : (serialize buffer m).isSome ↔ m.bytes.length ≤ buffer.length := by
  constructor
  . intro h
    by_contra hlong
    rw [serialize_of_lt (Nat.lt_of_not_le hlong)] at h
    contradiction
  . intro h
    obtain ⟨s, hs, _⟩ := serialize_of_le h
    rw [hs]
    rfl

namespace FixServerConfig

theorem room_default (connId : Nat) (compId : Bytes)
    : (FixServerConfig.default.sessionConfig connId compId).room = compId.length + 18 := by
  have hversion : (ascii "FIX.4.4").length = 7 := by decide
  have hsender : (ascii "VELOCITAS").length = 9 := by decide
  have hheartbeat : (signed (Int64.ofNat (Duration.fromSecs 30).asSecs).toInt).length = 2 := by
    decide +kernel
  change (ascii "FIX.4.4").length + (ascii "VELOCITAS").length + compId.length
    + (signed (Int64.ofNat (Duration.fromSecs 30).asSecs).toInt).length = _
  omega

theorem fits_default_iff (connId : Nat) (compId : Bytes)
    : (FixServerConfig.default.sessionConfig connId compId).Fits ↔ compId.length ≤ 3987 := by
  rw [SessionConfig.fits_iff, room_default]
  omega

end FixServerConfig

variable {S A : Type} [TcpStream S]

namespace Thread

-- A thread whose session builds no message that is too long.
def Roomy (compId : Bytes) : Thread S A → Prop
  | .registered _ logonCompId _ => logonCompId = compId
  | .running _ s => s.Unpanicked
  | .returned _ _ => True
  | _ => False

variable {config : FixServerConfig} {env : Env A} {connId : Nat} {compId : Bytes}

theorem roomy_setUp (hfits : (config.sessionConfig connId compId).Fits) (stream : S)
    : (setUp config env connId compId stream).Roomy compId := by
  unfold setUp
  split
  . trivial
  . next transport _ =>
    let e : FixEngine (StdTcpTransport S) :=
      .new transport (.new (config.sessionConfig connId compId) env.now) env.clock
    have hroom : e.HasRoom := ⟨List.length_replicate, hfits⟩
    have hlogon := hroom.handleInboundLogon
    have hsends := ((e.connect.atInstant .onLogon).record .handledLogon).sendLogon_sends
    change e.handleInboundLogon.NoPanic at hlogon
    dsimp only
    cases hout : e.handleInboundLogon with
    | next engine =>
      have hengine := congrArg Outcome.state hout
      change ((e.connect.atInstant .onLogon).record .handledLogon).sendLogon.state = engine at hengine
      rw [hengine] at hsends
      have hparser : engine.parser = .new := hsends.parser
      have hkeeps := (e.sends_connect.trans (FixEngine.sends_onLogon _)).toKeeps
      have hbefore := hroom.keeps hkeeps
      refine ⟨hparser, ⟨hsends.sendBuf.trans hbefore.sendBuf, ?_⟩, nofun⟩
      change engine.ctx.session.config.Fits
      rw [hsends.config]
      exact hbefore.config
    | halt reason engine =>
      rw [hout] at hlogon
      cases reason with
      | error err => trivial
      | panic => exact absurd hlogon id

theorem roomy_step {app : FixApp A} {acc : Acceptor} {thread : Thread S A}
    (hfits : ∀ connId, (config.sessionConfig connId compId).Fits) (h : thread.Roomy compId)
    : (thread.step config app env acc).2.Roomy compId := by
  cases thread with
  | connected remote stream => exact absurd h id
  | logonRead remote logonCompId stream => exact absurd h id
  | registered connId logonCompId stream =>
    have heq : logonCompId = compId := h
    change (setUp config env connId logonCompId stream).Roomy compId
    rw [heq]
    exact roomy_setUp (hfits connId) stream
  | running connId s =>
    have hs : s.Unpanicked := h
    change (run app acc connId s).2.Roomy compId
    unfold run
    split
    . trivial
    . next hphase => exact absurd hphase hs.phase
    . exact hs.step app
  | returned connId res => trivial
  | panicked connId => exact absurd h id

end Thread

namespace FixServer

def HasRoomy (compId : Bytes) (i : Nat) (server : FixServer S A) : Prop :=
  ∃ thread connId, server.threads[i]? = some thread ∧ thread.connId = some connId
    ∧ thread.Roomy compId

theorem HasRoomy.step {config : FixServerConfig} {app : FixApp A} {compId : Bytes} {i : Nat}
    {server : FixServer S A} {move : Move S A}
    (hfits : ∀ connId, (config.sessionConfig connId compId).Fits) (hserver : server.Consistent)
    (h : server.HasRoomy compId i)
    : (server.step config app move).HasRoomy compId i := by
  obtain ⟨thread, connId, hthread, hid, hroomy⟩ := h
  by_cases hmove : ∃ env, move = .advance i env
  . obtain ⟨env, hmove⟩ := hmove
    have hself := (step_self config app hthread env).1
    rw [hmove]
    have hstepped := @Thread.roomy_step _ _ _ config env compId app server.acceptor _ hfits hroomy
    cases (thread.step_stepped config env app server.acceptor).connId_cases with
    | inl hsame => exact ⟨_, connId, hself, hsame.trans hid, hstepped⟩
    | inr hgranted => exact ⟨_, _, hself, hgranted.1, hstepped⟩
  . exact ⟨thread, connId, (hserver.step_other config app hthread hid (not_exists.mp hmove)).1,
      hid, hroomy⟩

omit [TcpStream S] in
theorem HasRoomy.ne_panicked {compId : Bytes} {i : Nat} {server : FixServer S A}
    (h : server.HasRoomy compId i) (connId : Nat)
    : server.threads[i]? ≠ some (.panicked connId) := by
  obtain ⟨thread, _, hthread, _, hroomy⟩ := h
  intro hpanicked
  rw [hthread, Option.some.injEq] at hpanicked
  rw [hpanicked] at hroomy
  exact hroomy

section Samples

end Samples

-- A Logon with nothing but what the server looks at.
def bareLogon (compId : Bytes) : OutMessage where
  beginString := ascii "F"
  msgType := MsgType.logon
  args := [.str Tags.senderCompId compId]

theorem length_bareLogon (compId : Bytes) : (bareLogon compId).bytes.length = compId.length + 29 := by
  have htag : (decimal Tags.senderCompId.toNat).length = 2 := by decide +kernel
  have hbegin : (ascii "F").length = 1 := by decide
  have htype : MsgType.logon.length = 1 := by decide
  rw [OutMessage.length_bytes_eq]
  simp only [bareLogon, List.map_cons, List.map_nil, List.sum_cons, List.sum_nil, FieldArg.tag,
    FieldArg.text, length_fieldBytes, htag, hbegin, htype]
  omega

-- The client sends the Logon in one piece.
def bareMoves (compId : Bytes) : List (Move Socket Unit) :=
  [.accept [] ⟨[.ok (bareLogon compId).bytes], [.ok (), .ok ()]⟩, .advance 0 sampleEnv,
    .advance 0 sampleEnv, .advance 0 sampleEnv]

section BareLogon

variable {compId : Bytes} (hascii : ∀ b ∈ compId, b < 128 ∧ b ≠ Tags.soh)
  (hlen : compId.length ≤ 4067)

include hascii

theorem valid_bareLogon : ∀ arg ∈ (bareLogon compId).args, arg.Valid := by
  intro arg harg
  rw [List.mem_singleton.mp harg]
  refine ⟨(by decide : Tags.senderCompId ≠ Tags.checksum), ?_⟩
  intro hmem
  exact (hascii _ hmem).2 rfl

include hlen

theorem logonCompId_bareLogon
    : FixParser.logonCompId .new (bareLogon compId).bytes = .ok compId := by
  have hvalid : (ByteArray.mk compId.toArray).validateUTF8 = true :=
    Utf8.validate_of_ascii fun b hb => (hascii b hb).1
  have hbegin : Tags.soh ∉ ascii "F" := by decide
  have htype : Tags.soh ∉ MsgType.logon := by decide
  have hbytes : (bareLogon compId).bytes.length ≤ 65536 := by
    rw [length_bareLogon]
    omega
  obtain ⟨view, hparse, _, hentries⟩ := FixParser.parse_bytes hbegin htype (valid_bareLogon hascii)
    (Nat.le_of_ble_eq_true rfl) hbytes
  have hmem (tag : UInt32) (value : Bytes) (h8 : tag ≠ Tags.beginString) (h9 : tag ≠ Tags.bodyLength)
      (h10 : tag ≠ Tags.checksum)
      : (tag, value) ∈ view.entries
          ↔ (tag = Tags.msgType ∧ value = MsgType.logon)
            ∨ (tag = Tags.senderCompId ∧ value = compId) := by
    rw [hentries, OutMessage.mem_entries_iff _ h8 h9 h10]
    apply or_congr_right
    simp only [bareLogon, List.mem_singleton, exists_eq_left, FieldArg.tag, FieldArg.text]
    apply and_congr
    . exact eq_comm
    . exact eq_comm
  have hmsgType : view.msgType = some MsgType.logon := by
    apply MessageView.msgType_of_mem
    . exact (hmem _ _ (by decide) (by decide) (by decide)).mpr (.inl ⟨rfl, rfl⟩)
    . intro other hother
      rcases (hmem _ _ (by decide) (by decide) (by decide)).mp hother with ⟨_, heq⟩ | ⟨htag, _⟩
      . exact heq
      . exact absurd htag (by decide)
  have hfield : view.getField Tags.senderCompId = some compId := by
    apply MessageView.getField_of_mem
    . exact (hmem _ _ (by decide) (by decide) (by decide)).mpr (.inr ⟨rfl, rfl⟩)
    . intro other hother
      rcases (hmem _ _ (by decide) (by decide) (by decide)).mp hother with ⟨htag, _⟩ | ⟨_, heq⟩
      . exact absurd htag (by decide)
      . exact heq
  have hcompId : view.senderCompId = some compId := by
    rw [MessageView.senderCompId, MessageView.getFieldStr, hfield]
    exact Option.filter_some_pos hvalid
  unfold FixParser.logonCompId
  rw [hparse]
  dsimp only
  rw [hmsgType]
  dsimp only
  rw [if_neg (not_not.mpr rfl), hcompId]

theorem run_bareLogon
    : (run .default silentApp ((bareMoves compId).take 3)).threads[0]?
        = some (.registered 64 compId ⟨[], []⟩) := by
  have hcut : FixParser.findMessageBoundary (bareLogon compId).bytes
      = some (bareLogon compId).bytes.length := by
    have hbytes : (bareLogon compId).bytes.length ≤ 65536 := by
      rw [length_bareLogon]
      omega
    have hfound := OutMessage.boundary (m := bareLogon compId) (by decide : Tags.soh ∉ ascii "F")
      (by decide : Tags.soh ∉ MsgType.logon) (valid_bareLogon hascii) hbytes []
    rw [List.append_nil] at hfound
    exact hfound
  have hfits : (bareLogon compId).bytes.length ≤ 4096 := by
    rw [length_bareLogon]
    omega
  have hread : (Thread.preRead [] (Socket.mk [.ok (bareLogon compId).bytes] [.ok (), .ok ()])
      : Thread Socket Unit) = .logonRead [] compId ⟨[], []⟩ := by
    apply preRead_of_logon [] [] [] hcut hfits
    rw [List.take_length]
    exact logonCompId_bareLogon hascii hlen
  have htwo : run .default silentApp ((bareMoves compId).take 2)
      = ⟨.new FixServerConfig.default.acceptorConfig, [.logonRead [] compId ⟨[], []⟩]⟩ := by
    rw [← hread]
    rfl
  have hmove : (bareMoves compId)[2]? = some (.advance 0 sampleEnv) := rfl
  rw [run_take_succ .default silentApp (bareMoves compId) hmove, htwo]
  rfl

end BareLogon

theorem setUp_of_long {env : Env A} {connId : Nat} {compId : Bytes}
    (reads : List (Except ErrorKind Bytes)) (h : 4006 < compId.length)
    : (Thread.setUp .default env connId compId (Socket.mk reads []) : Thread Socket A)
        = .panicked connId := by
  let transport : StdTcpTransport Socket := ⟨some ⟨reads, []⟩, true, .kernelTcp⟩
  let e : FixEngine (StdTcpTransport Socket) :=
    ((FixEngine.new transport (.new (FixServerConfig.default.sessionConfig connId compId) env.now)
      env.clock).connect.atInstant .onLogon).record .handledLogon
  have hfrom : StdTcpTransport.fromStream (Socket.mk reads []) .kernelTcp = .ok transport := rfl
  have hlong : e.sendBuf.length < (e.nextMessage FixEngine.logonMessage).bytes.length := by
    have hlen : e.sendBuf.length = 4096 := List.length_replicate
    have hdigits : (decimal (1 : UInt64).toNat).length = 1 := by decide +kernel
    have hbytes := SessionConfig.length_logonMessage
      (FixServerConfig.default.sessionConfig connId compId) 1 e.ctx.clock
    rw [FixServerConfig.room_default, hdigits] at hbytes
    rw [hlen]
    change 4096 < (FixEngine.logonMessage (FixServerConfig.default.sessionConfig connId compId) 1
      e.ctx.clock.timestamp).bytes.length
    omega
  have hcases := e.sendBuilt_cases FixEngine.logonMessage
  have hlogon : ∃ e', (FixEngine.new transport
      (.new (FixServerConfig.default.sessionConfig connId compId) env.now)
      env.clock).handleInboundLogon = .halt .panic e' := by
    change ∃ e', (e.sendBuilt FixEngine.logonMessage).bind _ id = _
    generalize e.sendBuilt FixEngine.logonMessage = o at hcases
    cases hcases with
    | panicked e' => exact ⟨e', rfl⟩
    | failed e' err hfits => exact absurd hlong (Nat.not_lt_of_le hfits)
    | sent e' k hfits => exact absurd hlong (Nat.not_lt_of_le hfits)
  obtain ⟨e', hlogon⟩ := hlogon
  unfold Thread.setUp
  rw [hfrom]
  dsimp only
  rw [hlogon]

end FixServer

end Velocitas
