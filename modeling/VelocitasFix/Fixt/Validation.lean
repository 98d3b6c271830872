import VelocitasFix.Fixt.Negotiation

/-!
This module contains the proof that the version a session finds for a message is one of those it was
configured with, wherever it comes from: the message, the negotiation or the default.
-/

namespace Velocitas

namespace FixtSession

theorem config_run (config : FixtSessionConfig) (now : Instant) (calls : List Call)
    : (run config now calls).config = (new config now).config := by
  apply @Machine.run_of_step _ _ Call.apply (new config now) calls
    (fun s => s.config = (new config now).config) rfl
  intro s call hs
  rw [Call.config_apply, hs]

theorem supported_run (config : FixtSessionConfig) (now : Instant) (calls : List Call)
    : (run config now calls).Supported :=
  Machine.run_of_step (gated_new config now).supported fun _ call hs => hs.apply call

theorem mem_of_validateApplVer {s : FixtSession} {msg : MessageView} {v : ApplVerID}
    (hs : s.Supported) (hdefault : s.config.defaultApplVerId ∈ s.config.supportedVersions)
    (h : s.validateApplVer msg = .ok v) : v ∈ s.config.supportedVersions := by
  unfold validateApplVer at h
  split at h
  . cases h
    cases hversion : s.negotiatedVersion with
    | none => exact hdefault
    | some ver => exact hs ver hversion
  . split at h
    . split at h
      . contradiction
      . split at h
        . contradiction
        . next hmem =>
          rw [not_not] at hmem
          cases h
          exact hmem
    . split at h
      . next hversion =>
        cases h
        exact hs v hversion
      . contradiction

theorem onLogonReceived_of_error {s : FixtSession} {msg : MessageView} {now : Instant}
    {e : FixtError} (h : (s.onLogonReceived msg now).1 = .error e)
    : (s.onLogonReceived msg now).2 = s := by
  rcases s.onLogonReceived_cases msg now with ⟨_, herror⟩ | ⟨v, _, hok⟩
  . rw [herror]
  . rw [hok] at h
    contradiction

theorem validated_supported (config : FixtSessionConfig) (created : Instant) (calls : List Call)
    (msg : MessageView)
    : (∀ v, (run config created calls).validateApplVer msg = .ok v →
          v ∈ config.supportedVersions ∨ v = config.defaultApplVerId)
        ∧ ∀ now e, ((run config created calls).onLogonReceived msg now).1 = .error e →
          ((run config created calls).onLogonReceived msg now).2 = run config created calls := by
  constructor
  . intro v hv
    have hdefault := new_config_supported config created
    rw [← config_run config created calls] at hdefault
    have hmem := mem_of_validateApplVer (supported_run config created calls) hdefault hv
    rw [config_run, mem_supportedVersions_new] at hmem
    exact hmem
  . intro now e h
    exact onLogonReceived_of_error h

end FixtSession

end Velocitas
