import Gemacast.Phone.AudioService

/-!
# What the phone shows of a stream

A start tears the old session down before it can fail, and what was shown of that session stays
as it was. All that is shown of a stream has a session behind it exactly in the runs in which
no start fails while a stream is shown.
-/

namespace Gemacast.Phone.AudioService

open Gemacast.Core Gemacast.Jitter
open Gemacast.Streamer (DeviceId IpAddr)

variable {F : Type}

/-- The phone shows that it is streaming: by its own flag, by the flag of the platform or by the
state of the foreground service. -/
def ShowsStream (s : AudioService F) : Prop :=
  s.isStreaming = true ∨ s.streamingFlag = true ∨ s.service.1 = .playing

/-- A stream is shown only while there is a session. -/
def NoPhantom (s : AudioService F) : Prop := s.ShowsStream → s.session.isSome = true

/-- The command gets as far as the start of a session, and that fails. -/
def StartFails (s : AudioService F) : AudioCall F → Prop
  | .connect params response spawned =>
    params.ip.isOk = true ∧ response.isOk = true ∧ spawned.isOk = false
  | .restart _ spawned => s.session.isSome = true ∧ spawned.isOk = false
  | _ => False

/-- If the start of a session fails, no stream is shown. -/
def FailsUnshown (s : AudioService F) (call : AudioCall F) : Prop :=
  s.StartFails call → ¬s.ShowsStream

variable {s s' : AudioService F}

/-- What is shown depends on the flags alone. -/
theorem showsStream_congr (hstreaming : s'.isStreaming = s.isStreaming)
    (hflag : s'.streamingFlag = s.streamingFlag) (hservice : s'.service.1 = s.service.1) :
    s'.ShowsStream ↔ s.ShowsStream := by
  unfold ShowsStream
  rw [hstreaming, hflag, hservice]

/-- Nothing shown needs no session. -/
theorem noPhantom_syncStopped (s : AudioService F) : s.syncStopped.NoPhantom := by
  rintro (h | h | h)
  · exact absurd h Bool.false_ne_true
  · exact absurd h Bool.false_ne_true
  · exact absurd h nofun

/-- A failed start leaves no session behind what is shown. -/
theorem noPhantom_of_failed (h : s.session = none) : s.NoPhantom ↔ ¬s.ShowsStream := by
  unfold NoPhantom
  rw [h]
  exact ⟨fun hshown hs => absurd (hshown hs) Bool.false_ne_true, fun hnot hs => absurd hs hnot⟩

/-- A change of the session is none to what is shown. -/
theorem noPhantom_onSession (hs : s.NoPhantom) (change : ActiveSession F → ActiveSession F) :
    (s.onSession change).NoPhantom := by
  intro hshown
  have hsome := hs hshown
  unfold onSession
  rw [Option.isSome_map]
  exact hsome

/-- A change of what the foreground service shows, made while there is a session. -/
theorem noPhantom_of_service (hs : s.NoPhantom) (h : ∃ service, s' = { s with service } ∧
    (service = s.service ∨ s.session.isSome = true)) : s'.NoPhantom := by
  obtain ⟨service, rfl, rfl | hsome⟩ := h
  · exact hs
  · exact fun _ => hsome

variable [Binary32 F]

/-- The answer of the PC changes nothing that is shown. -/
theorem showsStream_acceptResponse (pair : LinkPair) (response : ConnectResponse F) :
    (s.acceptResponse pair response).ShowsStream ↔ s.ShowsStream := by
  unfold acceptResponse applyPcLevel
  cases response.pcOutputVolume with
  | none => exact Iff.rfl
  | some level =>
    dsimp only
    split
    · exact Iff.rfl
    · exact Iff.rfl

/-- A connection either is refused, and changes nothing of this, or fails in the end, with nothing
left of the old session, or succeeds. -/
theorem connectToStreamer_cases (s : AudioService F) (params : ConnectParams F)
    (response : Except String (ConnectResponse F)) (spawned : Except String Bool) :
    ((s.connectToStreamer params response spawned).1 = s.stopLinkRecovery ∧
        ¬s.StartFails (.connect params response spawned)) ∨
      ((s.connectToStreamer params response spawned).1.session = none ∧
        ((s.connectToStreamer params response spawned).1.ShowsStream ↔ s.ShowsStream) ∧
        s.StartFails (.connect params response spawned)) ∨
      ((s.connectToStreamer params response spawned).1.session.isSome = true ∧
        ¬s.StartFails (.connect params response spawned)) := by
  unfold connectToStreamer
  cases hip : params.ip with
  | error error => exact Or.inl ⟨rfl, fun h => absurd h.1 (by rw [hip]; exact nofun)⟩
  | ok ip =>
    cases response with
    | error error => exact Or.inl ⟨rfl, fun h => absurd h.2.1 nofun⟩
    | ok response =>
      cases spawned with
      | error error =>
        exact Or.inr (Or.inl ⟨rfl, showsStream_acceptResponse _ response,
          by rw [hip]; rfl, rfl, rfl⟩)
      | ok granted => exact Or.inr (Or.inr ⟨rfl, fun h => absurd h.2.2 nofun⟩)

/-- Where no start fails the flags have to stay right. -/
theorem noPhantom_iff_of_fine {call : AudioCall F} (hfine : ¬s.StartFails call)
    (hkept : (s.step call).1.NoPhantom) : (s.step call).1.NoPhantom ↔ s.FailsUnshown call :=
  ⟨fun _ hfails => absurd hfails hfine, fun _ => hkept⟩

/-- A command leaves no phantom stream exactly if it is none whose start fails while a stream is
shown. -/
theorem noPhantom_step_iff (s : AudioService F) (call : AudioCall F) (hs : s.NoPhantom) :
    (s.step call).1.NoPhantom ↔ s.FailsUnshown call := by
  cases call with
  | connect params response spawned =>
    obtain ⟨hrefused, hfine⟩ | ⟨hnone, hshown, hfails⟩ | ⟨hsome, hfine⟩ :=
      s.connectToStreamer_cases params response spawned
    · exact noPhantom_iff_of_fine hfine (hrefused ▸ hs)
    · refine (noPhantom_of_failed hnone).trans ?_
      rw [hshown]
      exact ⟨fun h _ => h, fun h => h hfails⟩
    · exact noPhantom_iff_of_fine hfine fun _ => hsome
  | restart exclusiveMode spawned =>
    change (s.restartSession exclusiveMode spawned).1.NoPhantom ↔ _
    cases hsession : s.session with
    | none =>
      rw [restartSession_of_none hsession]
      refine ⟨fun _ hfails => absurd hfails.1 ?_, fun _ => hs⟩
      rw [hsession]
      exact Bool.false_ne_true
    | some info =>
      cases spawned with
      | error error =>
        rw [restartSession_of_error hsession]
        refine (noPhantom_of_failed rfl).trans ⟨fun h _ => h, fun h => h ⟨?_, rfl⟩⟩
        rw [hsession]
        rfl
      | ok granted =>
        have hsome : (s.restartSession exclusiveMode (.ok granted)).1.session.isSome = true := by
          rw [restartSession, hsession]
          rfl
        exact ⟨fun _ hfails => absurd hfails.2.symm Bool.false_ne_true, fun _ _ => hsome⟩
  | startPlayback ok =>
    exact noPhantom_iff_of_fine not_false (noPhantom_of_service hs (s.startAudioPlayback_cases ok))
  | stopPlayback ok =>
    exact noPhantom_iff_of_fine not_false (noPhantom_of_service hs (s.stopAudioPlayback_cases ok))
  | changeBitrate ip deviceId bitrate ok =>
    refine noPhantom_iff_of_fine not_false ?_
    cases ok with
    | error error => exact hs
    | ok => exact noPhantom_onSession hs _
  | disconnect ip deviceId => exact noPhantom_iff_of_fine not_false (noPhantom_syncStopped _)
  | kill => exact noPhantom_iff_of_fine not_false (noPhantom_syncStopped _)
  | notifyStreamingStopped => exact noPhantom_iff_of_fine not_false (noPhantom_syncStopped _)
  | startLinkRecovery => exact noPhantom_iff_of_fine not_false hs
  | updateJitterConfig config => exact noPhantom_iff_of_fine not_false (noPhantom_onSession hs _)
  | setVolume linear => exact noPhantom_iff_of_fine not_false (noPhantom_onSession hs _)
  | setMatchPcVolume enabled => exact noPhantom_iff_of_fine not_false (noPhantom_onSession hs _)
  | pcVolumeChanged level =>
    refine noPhantom_iff_of_fine not_false ?_
    simp only [step, applyPcLevel]
    split
    · exact noPhantom_onSession hs _
    · exact hs

/-- What is shown of a stream has a session behind it after every command of a run exactly if no
start of the run fails while a stream is shown. -/
theorem noPhantom_of_run (calls : List (AudioCall F)) :
    (∀ e ∈ machine.events calls, e.after.NoPhantom) ↔
      ∀ e ∈ machine.events calls, e.before.FailsUnshown e.input := by
  have hinit : (machine : Machine (AudioService F) (AudioCall F) (AudioAnswer F)).init.NoPhantom :=
    noPhantom_syncStopped new
  exact machine.invariant_iff noPhantom_step_iff hinit calls

/-- A connection over Wi-Fi. -/
def wifiParams : ConnectParams SoftFloat where
  ip := .ok (.v4 3232235781)
  deviceId := "phone-1"
  deviceName := "My Phone"
  mode := .wifi
  exclusiveMode := false
  jitterConfig := ⟨30, 1000, 0, 0.25, none⟩
  bitrate := none
  phoneNetworkLink := none

/-- An answer of a PC whose output is muted. -/
def mutedResponse : ConnectResponse SoftFloat where
  pcNetworkLink := some .ethernet
  pcOutputVolume := some 0.0
  sessionToken := some "token"
  sessionGeneration := some 1

/-- The phone streams, and the output is not there when it is asked for exclusively. -/
def failedRestart : List (AudioCall SoftFloat) :=
  [.connect wifiParams (.ok mutedResponse) (.ok false), .restart true (.error "No output device")]

/-- After a restart that fails the phone goes on showing a stream. -/
theorem not_noPhantom_failedRestart : ¬∀ calls : List (AudioCall SoftFloat),
    ∀ e ∈ machine.events calls, e.after.NoPhantom := by
  intro h
  have hlast := h failedRestart _ (List.mem_cons_of_mem _ List.mem_cons_self)
  have hshown : (machine.run failedRestart).ShowsStream := Or.inl rfl
  exact absurd (hlast hshown) (by decide)

end Gemacast.Phone.AudioService
