import VelocitasFix.Engine.Numbering

/-!
This module contains the room in the send buffer: the exact length of the strings of a configuration up
to which every session message fits, and that an engine of such a configuration never panics.
-/

namespace Velocitas

open Ascii

theorem length_fieldBytes (tag : UInt32) (value : Bytes)
    : (fieldBytes tag value).length = (decimal tag.toNat).length + value.length + 2 := by
  simp only [fieldBytes, List.length_append, List.length_cons, List.length_nil]
  omega

theorem OutMessage.length_bytes_eq (m : OutMessage)
    : m.bytes.length = m.beginString.length + m.msgType.length
        + (m.args.map fun arg => (fieldBytes arg.tag arg.text).length).sum + 23 := by
  have htags : (decimal Tags.beginString.toNat).length = 1
      ∧ (decimal Tags.msgType.toNat).length = 2 := by decide +kernel
  rw [m.length_bytes, FixSerializer.length_preamble, body, List.length_append, List.length_flatMap,
    length_fieldBytes, length_fieldBytes, htags.1, htags.2]
  change _ + (_ + (m.args.map fun arg => (fieldBytes arg.tag arg.text).length).sum) + 7 = _
  omega

namespace SessionConfig

-- The value of HeartBtInt in a Logon.
def heartbeatText (config : SessionConfig) : Bytes :=
  signed (Int64.ofNat config.heartbeatInterval.asSecs).toInt

def room (config : SessionConfig) : Nat :=
  config.fixVersion.length + config.senderCompId.length + config.targetCompId.length
    + config.heartbeatText.length

variable (config : SessionConfig) (seq : UInt64) (clock : Clock)

theorem length_tags
    : (decimal Tags.senderCompId.toNat).length = 2 ∧ (decimal Tags.targetCompId.toNat).length = 2
        ∧ (decimal Tags.msgSeqNum.toNat).length = 2 ∧ (decimal Tags.sendingTime.toNat).length = 2
        ∧ (decimal Tags.encryptMethod.toNat).length = 2
        ∧ (decimal Tags.heartbtInt.toNat).length = 3 := by
  decide +kernel

theorem length_logonMessage
    : (FixEngine.logonMessage config seq clock.timestamp).bytes.length
        = config.room + (decimal seq.toNat).length + 71 := by
  have htime : clock.timestamp.length = 21 := HrTimestamp.length_toFixTimestamp _
  have htype : (ascii "A").length = 1 := by decide
  have hencrypt : (signed (0 : Int64).toInt).length = 1 := by decide +kernel
  obtain ⟨hsender, htarget, hseq, hsending, hmethod, hheartbt⟩ := length_tags
  rw [OutMessage.length_bytes_eq]
  simp only [FixEngine.logonMessage, OutMessage.logon, FieldArg.tag, FieldArg.text, List.map_cons,
    List.map_nil, List.sum_cons, List.sum_nil, length_fieldBytes, room, heartbeatText]
  omega

theorem length_shortMessage {message : Builder}
    (h : message = FixEngine.heartbeatMessage ∨ message = FixEngine.logoutMessage)
    : (message config seq clock.timestamp).bytes.length + config.heartbeatText.length + 10
        = (FixEngine.logonMessage config seq clock.timestamp).bytes.length := by
  have htime : clock.timestamp.length = 21 := HrTimestamp.length_toFixTimestamp _
  have hheartbeat : (ascii "0").length = 1 := by decide
  have hlogout : (ascii "5").length = 1 := by decide
  obtain ⟨hsender, htarget, hseq, hsending, -, -⟩ := length_tags
  rw [length_logonMessage, OutMessage.length_bytes_eq]
  rcases h with rfl | rfl
  . simp only [FixEngine.heartbeatMessage, OutMessage.heartbeat, FieldArg.tag, FieldArg.text,
      List.map_cons, List.map_nil, List.sum_cons, List.sum_nil, length_fieldBytes, room]
    omega
  . simp only [FixEngine.logoutMessage, OutMessage.logout, FieldArg.tag, FieldArg.text,
      List.map_cons, List.map_nil, List.sum_cons, List.sum_nil, length_fieldBytes, room]
    omega

-- The longest message is a Logon with a number of twenty digits.
theorem fits_iff : config.Fits ↔ config.room ≤ 4005 := by
  constructor
  . intro h
    have hlongest := h FixEngine.logonMessage (by simp [Preserved.allKinds]) (UInt64.ofNat (2 ^ 64 - 1))
      ⟨fun _ => 0, fun _ => 0, 0⟩
    have hdigits : (decimal (UInt64.ofNat (2 ^ 64 - 1)).toNat).length = 20 := by decide +kernel
    rw [length_logonMessage, hdigits] at hlongest
    omega
  . intro h message hkind seq clock
    have hdigits : (decimal seq.toNat).length ≤ 20 := by
      apply length_decimal_le (by decide)
      have := seq.toNat_lt
      omega
    have hlogon := config.length_logonMessage seq clock
    simp only [Preserved.allKinds, List.mem_cons, List.not_mem_nil, or_false] at hkind
    rcases hkind with rfl | hshort
    . omega
    . have := config.length_shortMessage seq clock hshort
      omega

end SessionConfig

variable {T A S R : Type}

def Outcome.NoPanic : Outcome S → Prop
  | .halt .panic _ => False
  | _ => True

theorem Outcome.NoPanic.bind {o : Outcome S} (h : o.NoPanic) {f : S → Outcome R} {g : S → R}
    (hf : ∀ s, o = .next s → (f s).NoPanic)
    : (o.bind f g).NoPanic := by
  cases o with
  | next s => exact hf s rfl
  | halt reason s =>
    cases reason with
    | error err => trivial
    | panic => exact h

-- The engine has its whole send buffer, and no message of the session is longer.
structure FixEngine.HasRoom (e : FixEngine T) : Prop where
  sendBuf : e.sendBuf.length = 4096
  config : e.ctx.session.config.Fits

namespace FixEngine

theorem HasRoom.keeps {e e' : FixEngine T} (h : e.HasRoom) (hkeeps : e.Keeps e') : e'.HasRoom where
  sendBuf := hkeeps.sendBuf.trans h.sendBuf
  config := by
    rw [hkeeps.config]
    exact h.config

variable [Transport T]

namespace HasRoom

variable {e : FixEngine T} (h : e.HasRoom)

include h

theorem sendBuilt {message : Builder} (hkind : message ∈ Preserved.allKinds)
    : (e.sendBuilt message).NoPanic := by
  have hfits := h.config message hkind e.ctx.session.outboundSeqNum e.ctx.clock
  have hcases := e.sendBuilt_cases message
  generalize e.sendBuilt message = o at hcases
  cases hcases with
  | panicked e' hlong =>
    rw [h.sendBuf] at hlong
    exact absurd hlong (Nat.not_lt_of_le hfits)
  | failed => trivial
  | sent => trivial

theorem sendLogon : e.sendLogon.NoPanic :=
  (h.sendBuilt (by simp [Preserved.allKinds])).bind fun _ _ => trivial

theorem sendHeartbeat : e.sendHeartbeat.NoPanic :=
  (h.sendBuilt (by simp [Preserved.allKinds])).bind fun _ _ => trivial

theorem sendLogout : e.sendLogout.NoPanic :=
  (h.sendBuilt (by simp [Preserved.allKinds])).bind fun _ _ => trivial

theorem handleInboundLogon : e.handleInboundLogon.NoPanic := by
  have hlogon := h.keeps (e.sends_connect.trans (sends_onLogon _)).toKeeps
  apply sendLogon
  exact ⟨hlogon.sendBuf, hlogon.config⟩

omit h in
theorem callback (e : FixEngine T) (prog : AppProg (Except ErrorKind Unit × A))
    : (e.callback prog).NoPanic := by
  unfold FixEngine.callback
  split
  all_goals trivial

theorem handleLogon (app : FixApp A) (a : A) : (handleLogon app e a).NoPanic := by
  unfold FixEngine.handleLogon
  dsimp only
  split
  . apply Outcome.NoPanic.bind
    . apply sendLogon
      split
      . exact h.keeps (e.sends_connect.trans (sends_onLogon _)).toKeeps
      . exact h.keeps (sends_onLogon _).toKeeps
    . intro e' _
      apply callback
  . split
    . apply callback
    . trivial

theorem handleLogout (app : FixApp A) (a : A) : (handleLogout app e a).NoPanic := by
  unfold FixEngine.handleLogout
  dsimp only
  split
  . trivial
  . apply Outcome.NoPanic.bind
    . split
      . apply sendLogout
        exact ⟨h.sendBuf, h.config⟩
      . trivial
    . intro e' _
      trivial

theorem dispatch (app : FixApp A) (a : A) (view : MessageView) (expected : UInt64)
    : (dispatch app e a view expected).NoPanic := by
  unfold FixEngine.dispatch
  split
  . trivial
  . split
    . exact h.handleLogon app a
    . split
      . trivial
      . split
        . exact h.sendHeartbeat.bind fun _ _ => trivial
        . split
          . exact h.handleLogout app a
          . apply callback

theorem processMessage (app : FixApp A) (a : A) (frame : Bytes)
    : (processMessage app e a frame).NoPanic := by
  unfold FixEngine.processMessage
  split
  . trivial
  . next view _ _ =>
    have hfields := e.validated_fields view
    apply dispatch
    exact ⟨hfields.2.2.1 ▸ h.sendBuf, hfields.2.2.2.2.1 ▸ h.config⟩

theorem endBatch : e.endBatch.NoPanic := by
  have hkind : logoutMessage ∈ Preserved.allKinds := by simp [Preserved.allKinds]
  have hsent := h.sendBuilt hkind
  unfold FixEngine.endBatch
  split
  . trivial
  . split
    . next heq =>
      rw [heq] at hsent
      exact hsent
    . trivial
    . trivial
  . trivial

end HasRoom

end FixEngine

namespace RunState

theorem settle_ne_panicked {phase : Phase} (hphase : phase ≠ .panicked)
    {o : Outcome (FixEngine T × A)} (h : o.NoPanic)
    : (settle phase o).phase ≠ .panicked := by
  cases o with
  | next s => exact hphase
  | halt reason s =>
    cases reason with
    | error err => exact nofun
    | panic => exact absurd h id

theorem settleEngine_ne_panicked {phase : Phase} (hphase : phase ≠ .panicked) (a : A)
    {o : Outcome (FixEngine T)} (h : o.NoPanic)
    : (settleEngine phase a o).phase ≠ .panicked := by
  cases o with
  | next e => exact hphase
  | halt reason e =>
    cases reason with
    | error err => exact nofun
    | panic => exact absurd h id

structure Unpanicked (s : RunState T A) : Prop where
  parser : s.engine.parser = .new
  hasRoom : s.engine.HasRoom
  phase : s.phase ≠ .panicked

variable [Transport T]

theorem receive_ne_panicked (e : FixEngine T) (a : A) : (receive e a).phase ≠ .panicked := by
  unfold receive
  split
  . split
    all_goals exact nofun
  . split
    all_goals exact nofun

theorem poll_ne_panicked {e : FixEngine T} (h : e.HasRoom) (a : A)
    : (poll e a).phase ≠ .panicked := by
  have hroom := h.keeps (timer_sends e).1.toKeeps
  unfold poll
  split
  . exact nofun
  . split
    . next e1 htimer =>
      rw [htimer] at hroom
      split
      . have hsent := hroom.sendHeartbeat
        split
        . apply receive_ne_panicked
        . next reason e2 heq =>
          rw [heq] at hsent
          cases reason with
          | error err => exact nofun
          | panic => exact absurd hsent id
      . apply receive_ne_panicked
    . exact nofun
    . apply receive_ne_panicked

theorem process_ne_panicked (app : FixApp A) {e : FixEngine T} (h : e.HasRoom) (a : A)
    : (process app e a).phase ≠ .panicked := by
  unfold process
  split
  . apply settleEngine_ne_panicked _ a h.endBatch
    exact nofun
  . apply settle_ne_panicked
    . exact nofun
    . apply FixEngine.HasRoom.processMessage
      exact ⟨h.sendBuf, h.config⟩

theorem Unpanicked.step (app : FixApp A) {s : RunState T A} (h : s.Unpanicked)
    : (s.step app).Unpanicked := by
  obtain ⟨hparser, hroom, hphase⟩ := h
  have hfields := step_fields app hparser
  have hconfig : (s.step app).engine.ctx.session.config = s.engine.ctx.session.config := by
    cases step_cases app hparser with
    | inl hidle =>
      obtain ⟨_, hidle⟩ := hidle
      exact hidle.config
    | inr htook =>
      obtain ⟨_, _, htook⟩ := htook
      exact htook.config
  refine ⟨hfields.1.trans hparser, ⟨hfields.2.trans hroom.sendBuf, ?_⟩, ?_⟩
  . rw [hconfig]
    exact hroom.config
  . rcases s with ⟨e, a, phase⟩
    cases phase with
    | poll => exact poll_ne_panicked hroom a
    | process => exact process_ne_panicked app hroom a
    | returned res => exact nofun
    | panicked => exact absurd rfl hphase

end RunState

end Velocitas
