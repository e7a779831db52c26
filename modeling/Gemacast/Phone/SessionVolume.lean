import Gemacast.Phone.StreamFlags

/-!
# The volume of a session

The mix outlives the sessions, and a session starts at no gain whatever the mix says. The volume
of the session is that of the mix after every command exactly in the runs in which the mix calls
for no gain whenever a session is started.
-/

namespace Gemacast.Phone.AudioService

open Gemacast.Core Gemacast.Jitter

/-- The session plays at the gain of the mix. -/
def FollowsMix {F : Type} [Binary32 F] (s : AudioService F) : Prop :=
  ∀ session, s.session = some session → session.volume = s.volumeMix.effective

/-- The mix once the PC has answered. -/
def handshakeMix {F : Type} (mix : VolumeMix F) (response : ConnectResponse F) : VolumeMix F :=
  match response.pcOutputVolume with
  | some level => { mix with pcLevel := some level }
  | none => mix

variable {F : Type} [Binary32 F]

/-- If the command starts a session, the mix calls for no gain then. -/
def StartsAtMix (s : AudioService F) : AudioCall F → Prop
  | .connect params (.ok response) (.ok _) =>
    params.ip.isOk = true → (handshakeMix s.volumeMix response).effective = 1.0
  | .restart _ (.ok _) => s.session.isSome = true → s.volumeMix.effective = 1.0
  | _ => True

variable {s s' : AudioService F}

/-- The volume stored last is the one of the session. -/
theorem followsMix_storeVolume (s : AudioService F) :
    (s.storeVolume s.volumeMix.effective).FollowsMix := by
  intro session hsession
  obtain ⟨old, -, rfl⟩ := Option.map_eq_some_iff.mp hsession
  rfl

/-- A change of the session that leaves its volume. -/
theorem followsMix_onSession (hs : s.FollowsMix) {change : ActiveSession F → ActiveSession F}
    (hchange : ∀ session, (change session).volume = session.volume) :
    (s.onSession change).FollowsMix := by
  intro session hsession
  obtain ⟨old, hold, rfl⟩ := Option.map_eq_some_iff.mp hsession
  exact (hchange old).trans (hs old hold)

/-- Without a session there is nothing to follow. -/
theorem followsMix_of_none (h : s.session = none) : s.FollowsMix := by
  intro session hsession
  rw [h] at hsession
  exact absurd hsession nofun

/-- What the foreground service shows does not matter. -/
theorem followsMix_of_service (hs : s.FollowsMix) (h : ∃ service, s' = { s with service } ∧
    (service = s.service ∨ s.session.isSome = true)) : s'.FollowsMix := by
  obtain ⟨service, rfl, -⟩ := h
  exact hs

/-- A new volume of the PC is followed at once, or does not matter. -/
theorem followsMix_applyPcLevel (hs : s.FollowsMix) (level : F) :
    (s.applyPcLevel level).FollowsMix := by
  unfold applyPcLevel
  dsimp only
  by_cases hmatch : s.volumeMix.matchPc = true
  · rw [if_pos hmatch]
    exact followsMix_storeVolume { s with volumeMix := { s.volumeMix with pcLevel := some level } }
  · rw [if_neg hmatch]
    intro session hsession
    have hunmatched := VolumeMix.effective_of_unmatched (Bool.eq_false_iff.mpr hmatch) (some level)
    exact (hs session hsession).trans hunmatched.symm

/-- A session just started follows the mix exactly if that calls for no gain. -/
theorem followsMix_started {session : ActiveSession F} (h : s.session = some session)
    (hvolume : session.volume = 1.0) : s.FollowsMix ↔ s.volumeMix.effective = 1.0 := by
  constructor
  · intro hfollows
    rw [← hfollows session h, hvolume]
  · intro hmix session' hsession'
    rw [h] at hsession'
    obtain rfl := Option.some.inj hsession'
    rw [hvolume, hmix]

/-- The mix after the answer of the PC. -/
theorem volumeMix_acceptResponse (s : AudioService F) (pair : LinkPair)
    (response : ConnectResponse F) :
    (s.acceptResponse pair response).volumeMix = handshakeMix s.volumeMix response := by
  unfold acceptResponse handshakeMix applyPcLevel
  cases response.pcOutputVolume with
  | none => rfl
  | some level =>
    dsimp only
    split
    · rfl
    · rfl

/-- After a command the session follows the mix exactly if the command has not started one while
the mix calls for some gain. -/
theorem followsMix_step_iff (s : AudioService F) (call : AudioCall F) (hs : s.FollowsMix) :
    (s.step call).1.FollowsMix ↔ s.StartsAtMix call := by
  cases call with
  | connect params response spawned =>
    simp only [step, connectToStreamer]
    cases response with
    | error error =>
      refine ⟨fun _ => trivial, fun _ => ?_⟩
      cases params.ip with
      | error error => exact hs
      | ok ip => exact hs
    | ok response =>
      cases spawned with
      | error error =>
        refine ⟨fun _ => trivial, fun _ => ?_⟩
        cases params.ip with
        | error error => exact hs
        | ok ip => exact followsMix_of_none rfl
      | ok granted =>
        cases hip : params.ip with
        | error error =>
          refine ⟨fun _ hok => ?_, fun _ => hs⟩
          rw [hip] at hok
          exact absurd hok Bool.false_ne_true
        | ok ip =>
          refine (followsMix_started rfl rfl).trans ?_
          have hmix := volumeMix_acceptResponse s.stopLinkRecovery
            ⟨params.phoneNetworkLink.getD .unknown, response.pcNetworkLink.getD .unknown⟩ response
          exact ⟨fun h _ => hmix ▸ h, fun h => hmix.symm ▸ h (by rw [hip]; rfl)⟩
  | restart exclusiveMode spawned =>
    change (s.restartSession exclusiveMode spawned).1.FollowsMix ↔ _
    cases spawned with
    | error error =>
      refine ⟨fun _ => trivial, fun _ => ?_⟩
      cases hsession : s.session with
      | none =>
        rw [restartSession_of_none hsession]
        exact hs
      | some info =>
        rw [restartSession_of_error hsession]
        exact followsMix_of_none rfl
    | ok granted =>
      unfold StartsAtMix
      cases hsession : s.session with
      | none =>
        rw [restartSession_of_none hsession]
        exact ⟨fun _ hsome => absurd hsome Bool.false_ne_true, fun _ => hs⟩
      | some info =>
        rw [restartSession, hsession]
        exact (followsMix_started rfl rfl).trans ⟨fun h _ => h, fun h => h rfl⟩
  | startPlayback ok =>
    exact ⟨fun _ => trivial, fun _ => followsMix_of_service hs (s.startAudioPlayback_cases ok)⟩
  | stopPlayback ok =>
    exact ⟨fun _ => trivial, fun _ => followsMix_of_service hs (s.stopAudioPlayback_cases ok)⟩
  | changeBitrate ip deviceId bitrate ok =>
    refine ⟨fun _ => trivial, fun _ => ?_⟩
    cases ok with
    | error error => exact hs
    | ok => exact followsMix_onSession hs fun _ => rfl
  | disconnect ip deviceId => exact ⟨fun _ => trivial, fun _ => followsMix_of_none rfl⟩
  | kill => exact ⟨fun _ => trivial, fun _ => followsMix_of_none rfl⟩
  | notifyStreamingStopped => exact ⟨fun _ => trivial, fun _ => hs⟩
  | startLinkRecovery => exact ⟨fun _ => trivial, fun _ => hs⟩
  | updateJitterConfig config =>
    exact ⟨fun _ => trivial, fun _ => followsMix_onSession hs fun _ => rfl⟩
  | setVolume linear => exact ⟨fun _ => trivial, fun _ => followsMix_storeVolume _⟩
  | setMatchPcVolume enabled => exact ⟨fun _ => trivial, fun _ => followsMix_storeVolume _⟩
  | pcVolumeChanged level =>
    exact ⟨fun _ => trivial, fun _ => followsMix_applyPcLevel hs level⟩

/-- The session plays at the gain of the mix after every command of a run exactly if the mix calls
for no gain whenever a session is started. -/
theorem followsMix_of_run (calls : List (AudioCall F)) :
    (∀ e ∈ machine.events calls, e.after.FollowsMix) ↔
      ∀ e ∈ machine.events calls, e.before.StartsAtMix e.input := by
  have hinit :
      (machine : Machine (AudioService F) (AudioCall F) (AudioAnswer F)).init.FollowsMix :=
    followsMix_of_none rfl
  exact machine.invariant_iff followsMix_step_iff hinit calls

/-- The phone is to follow the PC and connects while its output is muted. -/
def mutedConnect : List (AudioCall SoftFloat) :=
  [.setMatchPcVolume true, .connect wifiParams (.ok mutedResponse) (.ok false)]

/-- After the handshake of a muted PC the session plays at no gain, where the mix is silence. -/
theorem not_followsMix_mutedConnect : ¬∀ calls : List (AudioCall SoftFloat),
    ∀ e ∈ machine.events calls, e.after.FollowsMix := by
  intro h
  have hlast := h mutedConnect _ (List.mem_cons_of_mem _ List.mem_cons_self)
  exact absurd (hlast _ rfl) (by decide)

end Gemacast.Phone.AudioService
