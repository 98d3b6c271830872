import VelocitasFix.Fixt.Validation
import VelocitasFix.Serializer.Reading

/-!
This module contains the negotiation between two parties: the Logon of a session arrives over the wire
as it was written, and from then on its application messages are taken at its own default version,
until the next Logon or the end of the connection.
-/

namespace Velocitas

open Ascii

def LogonField.arg (f : LogonField) : FieldArg := .str f.tag f.value

namespace FixtSession

-- A message that carries the fields which the session builds for its Logon.
structure IsLogon (s : FixtSession) (m : OutMessage) (seqNum : UInt64) : Prop where
  readable : m.Readable seqNum
  exists_args : ∃ args : List FieldArg, m.args = args ++ s.buildLogonFields.map LogonField.arg
    ∧ ∀ arg ∈ args, arg.tag ≠ Tags.defaultApplVerId

-- A message of the application, of a type that no session handles.
structure IsApplication (m : OutMessage) (seqNum : UInt64) : Prop where
  readable : m.Readable seqNum
  not_sessionLevel : (MsgTypeEnum.fromBytes m.msgType).any MsgTypeEnum.isSessionLevel = false

-- The calls between two negotiations.
def Call.Keeps : Call → Prop
  | .onLogonReceived _ _ | .onDisconnected => False
  | _ => True

theorem Call.Keeps.negotiatedVersion {s : FixtSession} {call : Call} (h : call.Keeps)
    : (call.apply s).negotiatedVersion = s.negotiatedVersion := by
  cases call with
  | onLogonReceived msg now => exact h.elim
  | onDisconnected => exact h.elim
  | _ => rfl

theorem keeps_run {s : FixtSession} {calls : List Call} (h : ∀ call ∈ calls, call.Keeps)
    : (calls.foldl Call.apply s).negotiatedVersion = s.negotiatedVersion
        ∧ (calls.foldl Call.apply s).config = s.config := by
  induction calls generalizing s with
  | nil => exact ⟨rfl, rfl⟩
  | cons call calls ih =>
    rw [List.forall_mem_cons] at h
    obtain ⟨hversion, hconfig⟩ := @ih (call.apply s) h.2
    rw [List.foldl_cons]
    exact ⟨hversion.trans h.1.negotiatedVersion, hconfig.trans (call.config_apply s)⟩

-- The version of another party is taken if it is one of our own, and refused by its name if not.
theorem onLogonReceived_eq {s : FixtSession} {msg : MessageView} {v : ApplVerID} (now : Instant)
    (h : msg.getField Tags.defaultApplVerId = some v.asBytes)
    : s.onLogonReceived msg now = if v ∈ s.config.supportedVersions then
          (.ok (), { s with negotiatedVersion := some v, base := s.base.onLogon now })
        else
          (.error (.unsupportedApplVerID v.asBytes), s) := by
  unfold onLogonReceived
  rw [h]
  dsimp only
  rw [ApplVerID.fromBytes_asBytes]
  dsimp only
  rw [ite_not]

section Application

variable {s : FixtSession} {m : OutMessage} {seqNum : UInt64} {view : MessageView}

theorem IsLogon.getField {sender : FixtSession} (h : sender.IsLogon m seqNum)
    (hentries : view.entries = m.entries)
    : view.getField Tags.defaultApplVerId = some sender.config.defaultApplVerId.asBytes := by
  obtain ⟨args, hargs, hnot⟩ := h.exists_args
  apply h.readable.getField_eq_some hentries (by decide) (by decide) (by decide)
  . rw [hargs]
    exact ⟨_, List.mem_append_right _ (List.mem_singleton_self _), rfl⟩
  . rw [hargs]
    intro arg harg htag
    rw [List.mem_append] at harg
    cases harg with
    | inl harg => exact absurd htag (hnot arg harg)
    | inr harg =>
      rw [List.mem_singleton.mp harg]
      rfl

variable (h : IsApplication m seqNum) (hentries : view.entries = m.entries)
  (htype : view.msgType = some m.msgType)

include h hentries htype

theorem IsApplication.validate_of_absent (hnot : ∀ arg ∈ m.args, arg.tag ≠ Tags.applVerId)
    {v : ApplVerID} (hversion : s.negotiatedVersion = some v)
    : s.validateApplVer view = .ok v := by
  have hsession : view.msgTypeEnum.any MsgTypeEnum.isSessionLevel = false := by
    rw [MessageView.msgTypeEnum, htype]
    exact h.not_sessionLevel
  have hget := OutMessage.Readable.getField_eq_none (m := m) (by decide) (by decide) (by decide)
    (by decide) hentries hnot
  unfold validateApplVer
  rw [hsession, hget, hversion]
  rfl

theorem IsApplication.validate_of_present {v : ApplVerID}
    (hmem : ∃ arg ∈ m.args, arg.tag = Tags.applVerId)
    (hunique : ∀ arg ∈ m.args, arg.tag = Tags.applVerId → arg.text = v.asBytes)
    : s.validateApplVer view = if v ∈ s.config.supportedVersions then .ok v
        else .error (.unsupportedApplVerID v.asBytes) := by
  have hsession : view.msgTypeEnum.any MsgTypeEnum.isSessionLevel = false := by
    rw [MessageView.msgTypeEnum, htype]
    exact h.not_sessionLevel
  have hget := h.readable.getField_eq_some hentries (by decide) (by decide) (by decide) hmem hunique
  unfold validateApplVer
  rw [hsession, hget]
  dsimp only
  rw [ApplVerID.fromBytes_asBytes]
  dsimp only
  rw [ite_not]
  rfl

end Application

-- The versions that a session takes: those of its configuration and its own default.
def Supports (config : FixtSessionConfig) (v : ApplVerID) : Prop :=
  v ∈ config.supportedVersions ∨ v = config.defaultApplVerId

instance (config : FixtSessionConfig) (v : ApplVerID) : Decidable (Supports config v) :=
  inferInstanceAs (Decidable (_ ∨ _))

-- What a message says about its version decides; one that says nothing has the version `v`.
structure Takes (s : FixtSession) (config : FixtSessionConfig) (v : ApplVerID) (m : OutMessage)
    (view : MessageView) : Prop where
  absent : (∀ arg ∈ m.args, arg.tag ≠ Tags.applVerId) → s.validateApplVer view = .ok v
  present : ∀ v', (∃ arg ∈ m.args, arg.tag = Tags.applVerId) →
    (∀ arg ∈ m.args, arg.tag = Tags.applVerId → arg.text = v'.asBytes) →
      s.validateApplVer view = if Supports config v' then .ok v'
        else .error (.unsupportedApplVerID v'.asBytes)

theorem mem_supportedVersions_run {config : FixtSessionConfig} {created : Instant}
    {calls : List Call} {v : ApplVerID}
    : v ∈ (run config created calls).config.supportedVersions ↔ Supports config v := by
  rw [config_run, mem_supportedVersions_new]
  rfl

def logonSample : OutMessage where
  beginString := fixtBeginString
  msgType := ascii "A"
  args := [.str Tags.senderCompId (ascii "BANK"), .str Tags.targetCompId (ascii "NYSE"),
    .u64 Tags.msgSeqNum 1, .str Tags.sendingTime (ascii "20240102-03:04:05.678")]
    ++ [.str Tags.defaultApplVerId (ascii "9")]

theorem isLogon_sample : (new sampleConfig 0).IsLogon logonSample 1 where
  readable := by
    apply OutMessage.Readable.of_args _ _ _ _ _ _ rfl
    . decide
    . decide
    . decide +kernel
    . decide
    . decide
    . decide
    . decide
    . decide +kernel
  exists_args := ⟨_, rfl, by decide⟩

end FixtSession

end Velocitas
