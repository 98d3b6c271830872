import VelocitasFix.Data.Machine
import VelocitasFix.Fixt.Impl
import VelocitasFix.Session.Lemmas

/-!
This module contains the proof of when a FIXT session is only active with a negotiated version: the two
operations that activate the base session without a negotiation have to come after one.
-/

namespace Velocitas

namespace FixtSession

inductive Call where
  | onConnected (receivedNow sentNow : Instant)
  | onLogon (now : Instant)
  | onLogonReceived (msg : MessageView) (now : Instant)
  | validateInboundSeq (receivedSeq : UInt64) (now : Instant)
  | onGapFilled (newSeq : UInt64)
  | onLogoutSent
  | onDisconnected
  | checkHeartbeat (now : Instant)
  | onMessageSent (now : Instant)
  | onMessageReceived (now : Instant)
  | onReconnectAttempt
  | resetSequences
  | nextOutboundSeqNum
  | checkRateLimit (now : Instant)
  deriving DecidableEq, Repr

namespace Call

def apply (s : FixtSession) : Call → FixtSession
  | .onConnected receivedNow sentNow => s.onConnected receivedNow sentNow
  | .onLogon now => s.onLogon now
  | .onLogonReceived msg now => (s.onLogonReceived msg now).2
  | .validateInboundSeq receivedSeq now => (s.validateInboundSeq receivedSeq now).2
  | .onGapFilled newSeq => s.onGapFilled newSeq
  | .onLogoutSent => s.onLogoutSent
  | .onDisconnected => s.onDisconnected
  | .checkHeartbeat now => (s.checkHeartbeat now).2
  | .onMessageSent now => s.onMessageSent now
  | .onMessageReceived now => s.onMessageReceived now
  | .onReconnectAttempt => s.onReconnectAttempt
  | .resetSequences => s.resetSequences
  | .nextOutboundSeqNum => s.nextOutboundSeqNum.2
  | .checkRateLimit now => (s.checkRateLimit now).2

-- The operations that make the base session active and leave the version as it is.
def Activates : Call → Prop
  | .onLogon _ | .onGapFilled _ => True
  | _ => False

end Call

def run (config : FixtSessionConfig) (now : Instant) (calls : List Call) : FixtSession :=
  calls.foldl Call.apply (new config now)

def Supported (s : FixtSession) : Prop :=
  ∀ v, s.negotiatedVersion = some v → v ∈ s.config.supportedVersions

def ActiveNegotiated (s : FixtSession) : Prop :=
  s.state = .active → ∃ v, s.negotiatedVersion = some v ∧ v ∈ s.config.supportedVersions

structure Gated (s : FixtSession) : Prop where
  supported : s.Supported
  active : s.state = .active → s.negotiatedVersion.isSome

theorem default_new (config : FixtSessionConfig) (now : Instant)
    : (new config now).config.defaultApplVerId = config.defaultApplVerId := by
  unfold new
  dsimp only
  split
  . rfl
  . rfl

theorem mem_supportedVersions_new {config : FixtSessionConfig} {now : Instant} {v : ApplVerID}
    : v ∈ (new config now).config.supportedVersions
        ↔ v ∈ config.supportedVersions ∨ v = config.defaultApplVerId := by
  unfold new
  dsimp only
  split
  . rw [List.mem_append, List.mem_singleton]
  . next h =>
    rw [not_not] at h
    constructor
    . exact .inl
    . rintro (hmem | rfl)
      . exact hmem
      . exact h

theorem new_config_supported (config : FixtSessionConfig) (now : Instant)
    : (new config now).config.defaultApplVerId ∈ (new config now).config.supportedVersions := by
  rw [default_new, mem_supportedVersions_new]
  exact .inr rfl

-- A Logon that is refused leaves the session as it is.
theorem onLogonReceived_cases (s : FixtSession) (msg : MessageView) (now : Instant)
    : (∃ e, s.onLogonReceived msg now = (.error e, s))
        ∨ ∃ v, v ∈ s.config.supportedVersions
          ∧ s.onLogonReceived msg now
            = (.ok (), { s with negotiatedVersion := some v, base := s.base.onLogon now }) := by
  unfold onLogonReceived
  split
  . exact .inl ⟨_, rfl⟩
  . split
    . exact .inl ⟨_, rfl⟩
    . next v _ =>
      split
      . exact .inl ⟨_, rfl⟩
      . next h =>
        rw [not_not] at h
        exact .inr ⟨v, h, rfl⟩

-- A Logon with the field that a session of the same default builds is accepted.
theorem onLogonReceived_default (config : FixtSessionConfig) (created now : Instant)
    {msg : MessageView}
    (h : msg.getField Tags.defaultApplVerId = some config.defaultApplVerId.asBytes)
    : ((new config created).onLogonReceived msg now).1 = .ok ()
        ∧ ((new config created).onLogonReceived msg now).2.negotiatedVersion
          = some config.defaultApplVerId := by
  have hsupported := new_config_supported config created
  rw [default_new] at hsupported
  unfold onLogonReceived
  rw [h]
  dsimp only
  rw [ApplVerID.fromBytes_asBytes]
  dsimp only
  rw [if_neg (not_not.mpr hsupported)]
  exact ⟨rfl, rfl⟩

-- What a call can do to the version and to the activity.
inductive Effect (s : FixtSession) (call : Call) (s' : FixtSession) : Prop where
  | keeps (hversion : s'.negotiatedVersion = s.negotiatedVersion)
      (hstate : s'.state = .active → s.state = .active) (hcall : ¬ call.Activates)
  | activates (hversion : s'.negotiatedVersion = s.negotiatedVersion) (hstate : s'.state = .active)
      (hcall : call.Activates)
  | negotiates (v : ApplVerID) (hv : v ∈ s.config.supportedVersions)
      (hversion : s'.negotiatedVersion = some v) (hcall : ¬ call.Activates)
  | disconnects (hversion : s'.negotiatedVersion = none) (hstate : s'.state = .disconnected)
      (hcall : ¬ call.Activates)

theorem Call.effect (s : FixtSession) (call : Call) : Effect s call (call.apply s) := by
  cases call with
  | onConnected receivedNow sentNow => exact .keeps rfl s.base.active_of_onConnected id
  | onLogon now => exact .activates rfl rfl trivial
  | onLogonReceived msg now =>
    simp only [Call.apply]
    rcases s.onLogonReceived_cases msg now with ⟨_, h⟩ | ⟨v, hv, h⟩
    . rw [h]
      exact .keeps rfl id id
    . rw [h]
      exact .negotiates v hv rfl id
  | validateInboundSeq receivedSeq now => exact .keeps rfl s.base.active_of_validateInboundSeq id
  | onGapFilled newSeq => exact .activates rfl rfl trivial
  | onLogoutSent => exact .keeps rfl nofun id
  | onDisconnected => exact .disconnects rfl rfl id
  | checkHeartbeat now => exact .keeps rfl (s.base.checkHeartbeat_fields now).2.1.symm.trans id
  | onMessageSent now => exact .keeps rfl id id
  | onMessageReceived now => exact .keeps rfl id id
  | onReconnectAttempt => exact .keeps rfl nofun id
  | resetSequences => exact .keeps rfl id id
  | nextOutboundSeqNum => exact .keeps rfl id id
  | checkRateLimit now => exact .keeps rfl (s.base.state_checkRateLimit now).symm.trans id

theorem Call.config_apply (s : FixtSession) (call : Call) : (call.apply s).config = s.config := by
  cases call with
  | onLogonReceived msg now =>
    simp only [Call.apply]
    rcases s.onLogonReceived_cases msg now with ⟨_, h⟩ | ⟨v, _, h⟩
    all_goals rw [h]
  | _ => rfl

-- The version is beside every call that activates.
def Call.Negotiated (s : FixtSession) (call : Call) : Prop :=
  call.Activates → s.negotiatedVersion.isSome

theorem Supported.apply {s : FixtSession} (h : s.Supported) (call : Call)
    : (call.apply s).Supported := by
  intro v hv
  rw [Call.config_apply]
  cases call.effect s with
  | keeps hversion _ _ =>
    rw [hversion] at hv
    exact h v hv
  | activates hversion _ _ =>
    rw [hversion] at hv
    exact h v hv
  | negotiates w hw hversion _ =>
    rw [hversion, Option.some.injEq] at hv
    rw [← hv]
    exact hw
  | disconnects hversion _ _ =>
    rw [hversion] at hv
    contradiction

theorem Gated.apply {s : FixtSession} (h : s.Gated) {call : Call} (hcall : call.Negotiated s)
    : (call.apply s).Gated := by
  refine ⟨h.supported.apply call, ?_⟩
  intro hactive
  cases call.effect s with
  | keeps hversion hstate _ =>
    rw [hversion]
    exact h.active (hstate hactive)
  | activates hversion _ hactivates =>
    rw [hversion]
    exact hcall hactivates
  | negotiates v _ hversion _ =>
    rw [hversion]
    rfl
  | disconnects _ hstate _ =>
    rw [hstate] at hactive
    contradiction

theorem Gated.activeNegotiated {s : FixtSession} (h : s.Gated) : s.ActiveNegotiated := by
  intro hactive
  obtain ⟨v, hv⟩ := Option.isSome_iff_exists.mp (h.active hactive)
  exact ⟨v, hv, h.supported v hv⟩

-- A call that activates without a version breaks the property at once.
theorem not_activeNegotiated {s : FixtSession} {call : Call} (h : ¬ call.Negotiated s)
    : ¬ (call.apply s).ActiveNegotiated := by
  intro hactive
  rw [Call.Negotiated, Classical.not_imp] at h
  cases call.effect s with
  | activates hversion hstate _ =>
    obtain ⟨v, hv, _⟩ := hactive hstate
    rw [hversion] at hv
    rw [hv] at h
    exact h.2 rfl
  | keeps _ _ hcall => exact hcall h.1
  | negotiates _ _ _ hcall => exact hcall h.1
  | disconnects _ _ hcall => exact hcall h.1

theorem gated_new (config : FixtSessionConfig) (now : Instant) : (new config now).Gated :=
  ⟨nofun, nofun⟩

theorem version_negotiated_iff (config : FixtSessionConfig) (now : Instant) (calls : List Call)
    : (∀ pre, pre <+: calls → (run config now pre).Supported)
        ∧ ((∀ pre, pre <+: calls → (run config now pre).ActiveNegotiated)
            ↔
          ∀ pre call, pre ++ [call] <+: calls → call.Negotiated (run config now pre)) := by
  constructor
  . apply Machine.forall_prefix_of_step (gated_new config now).supported
    intro pre call _ hs
    exact hs.apply call
  . apply Machine.forall_prefix_iff (gated_new config now)
    . intro s hs
      exact hs.activeNegotiated
    . intro s call hs hcall
      exact hs.apply hcall
    . intro s call _ hcall
      exact not_activeNegotiated hcall

def sampleConfig : FixtSessionConfig where
  base := .default
  defaultApplVerId := .fix50SP2
  supportedVersions := [.fix50]

theorem active_not_negotiated
    : ¬ ∀ (config : FixtSessionConfig) (now : Instant) (calls : List Call),
        (run config now calls).ActiveNegotiated := by
  intro hclaim
  obtain ⟨v, hv, _⟩ := hclaim sampleConfig 0 [.onConnected 0 0, .onLogon 0] rfl
  contradiction

end FixtSession

end Velocitas
