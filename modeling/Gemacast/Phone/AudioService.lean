import Gemacast.Core.Machine
import Gemacast.Control.Auth
import Gemacast.Jitter.Config

/-!
# The audio service of the phone

The commands of the phone's screen act on one playback session, on the mix its volume follows,
and on what the platform is told: a flag that the phone is streaming and the state of the
foreground service. What the PC answers and whether a player can be spawned comes from outside.
-/

namespace Gemacast.Jitter

open Gemacast.Core

/-- The links of both sides of a connection. -/
structure LinkPair where
  /-- The link of the phone. -/
  phone : NetworkLink
  /-- The link of the PC. -/
  pc : NetworkLink
  deriving DecidableEq, Repr

/-- One side is on a link. -/
def LinkPair.has (pair : LinkPair) (link : NetworkLink) : Bool :=
  decide (pair.phone = link ∨ pair.pc = link)

/-- The link that limits the connection. -/
def LinkPair.effectiveLink (pair : LinkPair) : NetworkLink :=
  if pair.has .adb then .adb
  else if pair.has .usbTether then .usbTether
  else if pair.has .wifi2_4Ghz then .wifi2_4Ghz
  else if pair.has .wifi5Ghz then .wifi5Ghz
  else if pair.has .ethernet then
    if pair.has .wifiUnknown || pair.has .unknown then .wifiUnknown else .ethernet
  else if pair.has .wifiUnknown then .wifiUnknown
  else .unknown

/-- The depth policy for the links of a connection. -/
def JitterConfig.forLinkPair {F : Type} [Binary32 F] (pair : LinkPair) : JitterConfig F :=
  match pair.effectiveLink with
  | .adb | .usbTether => ⟨30, 100, 500, 0.2, none⟩
  | .ethernet => ⟨5, 200, 800, 0.25, none⟩
  | .wifi5Ghz => ⟨30, 400, 800, 0.25, none⟩
  | .wifi2_4Ghz => ⟨30, 800, 0, 0.5, none⟩
  | .wifiUnknown | .unknown => ⟨30, 1000, 0, 0.25, none⟩

/-- The policy is left to the links. -/
def JitterConfig.isAutoSentinel {F : Type} (config : JitterConfig F) : Bool :=
  decide (config.peakDecayHalflifeMs = 0) && config.staticTargetMs.isNone

end Gemacast.Jitter

namespace Gemacast.Phone

open Gemacast.Core Gemacast.Jitter
open Gemacast.Streamer (DeviceId IpAddr)
open Gemacast.Control (SessionGeneration)

/-- How the phone reaches the PC. -/
inductive ConnectionMode
  | wifi
  | usb
  | adb
  deriving DecidableEq, Repr

/-- What the foreground service shows. -/
inductive PlaybackState
  | playing
  | paused
  | stopped
  deriving DecidableEq, Repr

section Volume

variable {F : Type} [Binary32 F]

/-- What the volume of the phone is mixed from. -/
structure VolumeMix (F : Type) where
  /-- The gain set on the phone. -/
  userGain : F
  /-- The phone follows the volume of the PC. -/
  matchPc : Bool
  /-- The volume of the PC, as last heard. -/
  pcLevel : Option F

/-- No gain, and no PC to follow. -/
def VolumeMix.default : VolumeMix F := ⟨1.0, false, none⟩

/-- The gain to be played at. -/
def VolumeMix.effective (mix : VolumeMix F) : F :=
  if mix.matchPc then
    match mix.pcLevel with
    | some level => mix.userGain * Binary32.clamp level 0.0 1.0
    | none => mix.userGain
  else mix.userGain

/-- While the PC is not followed its volume does not matter. -/
theorem VolumeMix.effective_of_unmatched {mix : VolumeMix F} (h : mix.matchPc = false)
    (level : Option F) : { mix with pcLevel := level }.effective = mix.effective := by
  unfold VolumeMix.effective
  rw [h]
  rfl

end Volume

/-- What a session is started with. -/
structure SessionParams (F : Type) where
  /-- The depth policy. -/
  jitterConfig : JitterConfig F
  /-- The audio comes over TCP. -/
  isTcp : Bool
  /-- The output is asked for exclusively. -/
  exclusiveMode : Bool
  /-- The PC. -/
  targetIp : Option IpAddr
  /-- How it is reached. -/
  mode : ConnectionMode
  /-- The phone. -/
  deviceId : DeviceId
  /-- The bitrate asked for. -/
  bitrate : Option ℤ
  /-- The link that limits the connection. -/
  networkLink : NetworkLink
  /-- The token of the session. -/
  sessionToken : Option String
  /-- The number of the session. -/
  sessionGeneration : Option SessionGeneration

/-- The session the session manager holds. -/
structure ActiveSession (F : Type) extends SessionParams F where
  /-- The output was granted exclusively. -/
  exclusiveGranted : Bool
  /-- The volume the output callback reads. -/
  volume : F

/-- What a connection is asked for with. -/
structure ConnectParams (F : Type) where
  /-- The address, or why the text is none. -/
  ip : Except String IpAddr
  /-- The phone. -/
  deviceId : DeviceId
  /-- Its name. -/
  deviceName : String
  /-- How the PC is reached. -/
  mode : ConnectionMode
  /-- The output is asked for exclusively. -/
  exclusiveMode : Bool
  /-- The depth policy. -/
  jitterConfig : JitterConfig F
  /-- The bitrate asked for. -/
  bitrate : Option ℤ
  /-- The link of the phone, where it could be told. -/
  phoneNetworkLink : Option NetworkLink

/-- What of the PC's answer to a Connect is read here. -/
structure ConnectResponse (F : Type) where
  /-- The link of the PC. -/
  pcNetworkLink : Option NetworkLink
  /-- The output volume of the PC. -/
  pcOutputVolume : Option F
  /-- The token of the session. -/
  sessionToken : Option String
  /-- The number of the session. -/
  sessionGeneration : Option SessionGeneration

/-- The audio service and what it acts on. -/
structure AudioService (F : Type) where
  /-- The session of the session manager. -/
  session : Option (ActiveSession F)
  /-- The phone is streaming. -/
  isStreaming : Bool
  /-- The links of the last connection. -/
  cachedLinkPair : Option LinkPair
  /-- A task looks for the PC of a lost link. -/
  recovering : Bool
  /-- What the volume is mixed from. -/
  volumeMix : VolumeMix F
  /-- The platform's flag that the phone is streaming. -/
  streamingFlag : Bool
  /-- What the foreground service shows, and whether exclusively. -/
  service : PlaybackState × Bool

/-- A command to the service, with what comes from outside while it runs. -/
inductive AudioCall (F : Type)
  /-- Connect: what the PC answers, and whether a player is spawned and granted the output. -/
  | connect (params : ConnectParams F) (response : Except String (ConnectResponse F))
      (spawned : Except String Bool)
  | disconnect (ip : IpAddr) (deviceId : DeviceId)
  /-- Resume; `ok` is the answer of the player. -/
  | startPlayback (ok : Except String Unit)
  /-- Pause; `ok` is the answer of the player. -/
  | stopPlayback (ok : Except String Unit)
  | kill
  | notifyStreamingStopped
  | startLinkRecovery
  /-- Start the session anew: whether a player is spawned and granted the output. -/
  | restart (exclusiveMode : Bool) (spawned : Except String Bool)
  | updateJitterConfig (config : JitterConfig F)
  /-- Change the bitrate; `ok` is the answer of the PC. -/
  | changeBitrate (ip : IpAddr) (deviceId : DeviceId) (bitrate : Option ℤ)
      (ok : Except String Unit)
  | setVolume (linear : F)
  | setMatchPcVolume (enabled : Bool)
  /-- The WebSocket tells the volume of the PC. -/
  | pcVolumeChanged (level : F)

/-- What a command asks of the PC and tells the screen. -/
inductive AudioEffect (F : Type)
  | requestConnect (ip : IpAddr) (deviceId : DeviceId)
  | requestDisconnect (ip : IpAddr) (deviceId : DeviceId)
  | requestChangeBitrate (ip : IpAddr) (deviceId : DeviceId) (bitrate : Option ℤ)
  | emitPcVolumeChanged (level : F)

/-- What a command returns and what it has done outside. -/
structure AudioAnswer (F : Type) where
  /-- The result of the command. -/
  result : Except String Unit
  /-- What it has done outside, in order. -/
  effects : List (AudioEffect F) := []

namespace AudioService

variable {F : Type} [Binary32 F]

/-- The service of an app that was just opened. -/
def new : AudioService F where
  session := none
  isStreaming := false
  cachedLinkPair := none
  recovering := false
  volumeMix := VolumeMix.default
  streamingFlag := false
  service := (.stopped, false)

/-- Change the session, if there is one. -/
def onSession (s : AudioService F) (change : ActiveSession F → ActiveSession F) : AudioService F :=
  { s with session := s.session.map change }

/-- Set the volume of the session, if there is one. -/
def storeVolume (s : AudioService F) (linear : F) : AudioService F :=
  s.onSession fun session => { session with volume := linear }

/-- Tear the session down. -/
def stopSession (s : AudioService F) : AudioService F := { s with session := none }

/-- Tear the session down and start another one, at no gain. -/
def startSession (s : AudioService F) (params : SessionParams F) (spawned : Except String Bool) :
    AudioService F × Except String Unit :=
  let s := s.stopSession
  match spawned with
  | .error error => (s, .error error)
  | .ok granted =>
    ({ s with session := some { params with exclusiveGranted := granted, volume := 1.0 } }, .ok ())

/-- End the task that looks for the PC. -/
def stopLinkRecovery (s : AudioService F) : AudioService F := { s with recovering := false }

/-- The PC plays at another volume. -/
def applyPcLevel (s : AudioService F) (level : F) : AudioService F :=
  let mix := { s.volumeMix with pcLevel := some level }
  let s := { s with volumeMix := mix }
  if mix.matchPc then s.storeVolume mix.effective else s

/-- Tell the platform that nothing streams. -/
def syncStopped (s : AudioService F) : AudioService F :=
  { s with isStreaming := false, streamingFlag := false, service := (.stopped, false) }

/-- The policy a session runs with, the links standing in where it is left to them. -/
def effectiveConfig (config : JitterConfig F) (pair : Option LinkPair) : JitterConfig F :=
  if config.isAutoSentinel then
    match pair with
    | some pair => JitterConfig.forLinkPair pair
    | none => config
  else config

/-- What a connected session is started with. -/
def connectSession (params : ConnectParams F) (ip : IpAddr) (pair : LinkPair)
    (response : ConnectResponse F) : SessionParams F where
  jitterConfig := effectiveConfig params.jitterConfig (some pair)
  isTcp := decide (params.mode = .adb)
  exclusiveMode := params.exclusiveMode
  targetIp := some ip
  mode := params.mode
  deviceId := params.deviceId
  bitrate := params.bitrate
  networkLink := pair.effectiveLink
  sessionToken := response.sessionToken
  sessionGeneration := response.sessionGeneration

/-- The PC has answered: note the links and its volume. -/
def acceptResponse (s : AudioService F) (pair : LinkPair) (response : ConnectResponse F) :
    AudioService F :=
  let s := { s with cachedLinkPair := some pair }
  match response.pcOutputVolume with
  | some level => s.applyPcLevel level
  | none => s

/-- Connect to a PC and play what it sends. -/
def connectToStreamer (s : AudioService F) (params : ConnectParams F)
    (response : Except String (ConnectResponse F)) (spawned : Except String Bool) :
    AudioService F × AudioAnswer F :=
  let s := s.stopLinkRecovery
  match params.ip with
  | .error error => (s, { result := .error error })
  | .ok ip =>
    let requested := AudioEffect.requestConnect ip params.deviceId
    match response with
    | .error error => (s, { result := .error error, effects := [requested] })
    | .ok response =>
      let pair : LinkPair :=
        ⟨params.phoneNetworkLink.getD .unknown, response.pcNetworkLink.getD .unknown⟩
      let s := s.acceptResponse pair response
      let announced := response.pcOutputVolume.toList.map AudioEffect.emitPcVolumeChanged
      match s.startSession (connectSession params ip pair response) spawned with
      | (s, .error error) =>
        ({ s with cachedLinkPair := none },
          { result := .error error
            effects := requested :: announced ++ [.requestDisconnect ip params.deviceId] })
      | (s, .ok ()) =>
        ({ s with
          isStreaming := true
          streamingFlag := true
          service := (.playing, params.exclusiveMode) },
          { result := .ok (), effects := requested :: announced })

/-- Leave the PC, whatever it answers. -/
def disconnectFromStreamer (s : AudioService F) (ip : IpAddr) (deviceId : DeviceId) :
    AudioService F × AudioAnswer F :=
  ({ s.stopLinkRecovery.stopSession with cachedLinkPair := none }.syncStopped,
    { result := .ok (), effects := [.requestDisconnect ip deviceId] })

/-- Play on. -/
def startAudioPlayback (s : AudioService F) (ok : Except String Unit) :
    AudioService F × Except String Unit :=
  match s.session with
  | none => (s, .error "No active session")
  | some session =>
    match ok with
    | .error error => (s, .error error)
    | .ok () => ({ s with service := (.playing, session.exclusiveMode) }, .ok ())

/-- Pause, and keep the session. -/
def stopAudioPlayback (s : AudioService F) (ok : Except String Unit) :
    AudioService F × Except String Unit :=
  match s.session with
  | none => (s, .error "No active session")
  | some _ =>
    match ok with
    | .error error => (s, .error error)
    | .ok () => ({ s with service := (.paused, false) }, .ok ())

/-- Tear the session down, whatever the PC thinks of it. -/
def killPlayback (s : AudioService F) : AudioService F :=
  { s.stopLinkRecovery.stopSession with cachedLinkPair := none }.syncStopped

/-- The screen has stopped streaming. -/
def notifyStreamingStopped (s : AudioService F) : AudioService F :=
  s.stopLinkRecovery.syncStopped

/-- Start the session anew, exclusively or not. -/
def restartSession (s : AudioService F) (exclusiveMode : Bool) (spawned : Except String Bool) :
    AudioService F × Except String Unit :=
  match s.session with
  | none => (s, .error "No active session to restart")
  | some info =>
    let params : SessionParams F :=
      { info.toSessionParams with
        jitterConfig := effectiveConfig info.jitterConfig s.cachedLinkPair
        isTcp := decide (info.mode = .adb)
        exclusiveMode }
    match s.startSession params spawned with
    | (s, .error error) => (s, .error error)
    | (s, .ok ()) => ({ s with service := (.playing, exclusiveMode) }, .ok ())

/-- Set the gain of the phone. -/
def setVolume (s : AudioService F) (linear : F) : AudioService F :=
  let mix := { s.volumeMix with userGain := linear }
  { s with volumeMix := mix }.storeVolume mix.effective

/-- Follow the volume of the PC, or no longer. -/
def setMatchPcVolume (s : AudioService F) (enabled : Bool) : AudioService F :=
  let mix := { s.volumeMix with matchPc := enabled }
  { s with volumeMix := mix }.storeVolume mix.effective

/-- Change the depth policy of the session. -/
def updateJitterConfig (s : AudioService F) (config : JitterConfig F) : AudioService F :=
  s.onSession fun session =>
    { session with jitterConfig := effectiveConfig config s.cachedLinkPair }

/-- Change the bitrate, if the PC does. -/
def changeAudioBitrate (s : AudioService F) (ip : IpAddr) (deviceId : DeviceId)
    (bitrate : Option ℤ) (ok : Except String Unit) : AudioService F × AudioAnswer F :=
  let requested := AudioEffect.requestChangeBitrate ip deviceId bitrate
  match ok with
  | .error error => (s, { result := .error error, effects := [requested] })
  | .ok () =>
    (s.onSession fun session => { session with bitrate },
      { result := .ok (), effects := [requested] })

/-- One command, from its call to its return. -/
def step (s : AudioService F) : AudioCall F → AudioService F × AudioAnswer F
  | .connect params response spawned => s.connectToStreamer params response spawned
  | .disconnect ip deviceId => s.disconnectFromStreamer ip deviceId
  | .startPlayback ok =>
    let (s, result) := s.startAudioPlayback ok
    (s, { result })
  | .stopPlayback ok =>
    let (s, result) := s.stopAudioPlayback ok
    (s, { result })
  | .kill => (s.killPlayback, { result := .ok () })
  | .notifyStreamingStopped => (s.notifyStreamingStopped, { result := .ok () })
  | .startLinkRecovery => ({ s with recovering := true }, { result := .ok () })
  | .restart exclusiveMode spawned =>
    let (s, result) := s.restartSession exclusiveMode spawned
    (s, { result })
  | .updateJitterConfig config => (s.updateJitterConfig config, { result := .ok () })
  | .changeBitrate ip deviceId bitrate ok => s.changeAudioBitrate ip deviceId bitrate ok
  | .setVolume linear => (s.setVolume linear, { result := .ok () })
  | .setMatchPcVolume enabled => (s.setMatchPcVolume enabled, { result := .ok () })
  | .pcVolumeChanged level =>
    (s.applyPcLevel level, { result := .ok (), effects := [.emitPcVolumeChanged level] })

/-- The service as a machine. -/
def machine : Machine (AudioService F) (AudioCall F) (AudioAnswer F) where
  init := new
  step := step

omit [Binary32 F] in
/-- A resume changes what the foreground service shows, and that only while there is a
session. -/
theorem startAudioPlayback_cases (s : AudioService F) (ok : Except String Unit) :
    ∃ service, (s.startAudioPlayback ok).1 = { s with service } ∧
      (service = s.service ∨ s.session.isSome = true) := by
  obtain ⟨session, _, _, _, _, _, service⟩ := s
  cases session with
  | none => exact ⟨service, rfl, Or.inl rfl⟩
  | some session =>
    cases ok with
    | error error => exact ⟨service, rfl, Or.inl rfl⟩
    | ok => exact ⟨(.playing, session.exclusiveMode), rfl, Or.inr rfl⟩

omit [Binary32 F] in
/-- So does a pause. -/
theorem stopAudioPlayback_cases (s : AudioService F) (ok : Except String Unit) :
    ∃ service, (s.stopAudioPlayback ok).1 = { s with service } ∧
      (service = s.service ∨ s.session.isSome = true) := by
  obtain ⟨session, _, _, _, _, _, service⟩ := s
  cases session with
  | none => exact ⟨service, rfl, Or.inl rfl⟩
  | some session =>
    cases ok with
    | error error => exact ⟨service, rfl, Or.inl rfl⟩
    | ok => exact ⟨(.paused, false), rfl, Or.inr rfl⟩

/-- Without a session there is nothing to restart. -/
theorem restartSession_of_none {s : AudioService F} (h : s.session = none) (exclusiveMode : Bool)
    (spawned : Except String Bool) : (s.restartSession exclusiveMode spawned).1 = s := by
  rw [restartSession, h]

/-- A restart that fails leaves no session. -/
theorem restartSession_of_error {s : AudioService F} {info : ActiveSession F}
    (h : s.session = some info) (exclusiveMode : Bool) (error : String) :
    (s.restartSession exclusiveMode (.error error)).1 = s.stopSession := by
  rw [restartSession, h]
  rfl

end AudioService

end Gemacast.Phone
