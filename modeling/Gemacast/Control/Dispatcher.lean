import Gemacast.Control.Operations

/-!
# The control dispatcher

The one task that handles the commands of the phones, one at a time and in the order of its
queue. A Connect is admitted with the token of a session, with a proved key that is trusted,
or with an approved request; a stream is started before the session becomes valid.
-/

namespace Gemacast.Control

open Gemacast.Core Gemacast.Streamer Program

/-- The UDP port of the audio stream. -/
def audioUdpPort : ℕ := 23556

/-- The address is one of this machine. -/
def isLoopback : IpAddr → Bool
  | .v4 bits => bits / 2 ^ 24 == 127
  | .v6 bits => bits == 1

/-- Start the stream of a device and register it. -/
def registerDevice (deviceId : DeviceId) (generation : UInt64) (deviceName : String)
    (audioAddr remoteAddr : SocketAddr) (transport : Option TransportType)
    (source : Option AudioSource) (bitrate : Option ℤ) : ControlM (Except String Unit) := do
  let effectiveAddr := if isLoopback remoteAddr.ip then none else some audioAddr
  let subscribed : Except String Unit ← ask
    (.audio (.subscribe deviceId generation effectiveAddr source bitrate))
  match subscribed with
  | .error error => pure (.error error)
  | .ok () =>
    let outcome : RegistrationOutcome ← ask
      (.register deviceId deviceName false audioAddr transport)
    match outcome with
    | .addressChanged oldAddr =>
      let _ ← ask (.notify (.deviceLost deviceId oldAddr))
      let _ ← ask (.notify (.deviceDiscovered deviceId deviceName audioAddr transport))
      pure (.ok ())
    | .newDevice =>
      let _ ← ask (.notify (.deviceDiscovered deviceId deviceName audioAddr transport))
      pure (.ok ())
    | .alreadyRegistered => pure (.ok ())

/-- Unregister a device and stop its stream. -/
def unregisterDevice (deviceId : DeviceId) : ControlM (Except String Unit) := do
  let removed : Option DiscoveredDevice ← ask (.unregister deviceId)
  match removed with
  | some removed =>
    let _ ← ask (.notify (.deviceLost deviceId removed.addr))
    let _ ← ask (.notify (.disconnect deviceId (some removed.addr)))
    ask (.audio (.unsubscribe deviceId))
  | none => ask (.audio (.unsubscribe deviceId))

/-- What the dispatcher knows about its PC. -/
structure ControlDispatcher where
  /-- The identity of the PC. -/
  streamerId : DeviceId
  /-- Its name. -/
  streamerName : String
  /-- Its certificate. -/
  pcCertificateFingerprint : String

/-- What a Connect was admitted with: the approved request and the key to be trusted. -/
structure Admission where
  /-- The approved request. -/
  approvedRequestId : Option String
  /-- The key to be trusted. -/
  identityToTrust : Option VerifiedDeviceIdentity
  deriving DecidableEq, Repr

namespace ControlDispatcher

variable (self : ControlDispatcher)

/-- What a phone is told about the PC. -/
def presence (deviceRegistered : Option Bool) (volume : Option UInt32) : PresenceResponse where
  deviceId := self.streamerId
  streamerName := self.streamerName
  isOffline := false
  deviceRegistered
  sessionToken := none
  sessionGeneration := none
  pendingRequestId := none
  deviceAuthChallenge := none
  pcCertificateFingerprint := some self.pcCertificateFingerprint
  pcOutputVolume := volume

/-- Answer a Connect with a refusal. -/
def refuse (connect : ConnectCommand) (message : String) : ControlM (Option Admission) := do
  let _ ← ask (.respond connect.responseTx (.connect (.error message)))
  pure none

/-- Tell a Connect that its request waits for approval. -/
def reportPending (connect : ConnectCommand) (requestId : String) :
    ControlM (Option Admission) := do
  let volume : Option UInt32 ← ask .readPcOutputVolume
  let presence := { self.presence (some false) volume with pendingRequestId := some requestId }
  let _ ← ask (.respond connect.responseTx (.connect (.ok presence)))
  pure none

/-- Admit a Connect that comes back for the outcome of its request. -/
def admitApproved (connect : ConnectCommand) (requestId : String) :
    ControlM (Option Admission) :=
  match connect.deviceAuth with
  | none => refuse connect "LAN device authentication proof is missing"
  | some auth => do
    let identity : Option VerifiedDeviceIdentity ←
      ask (.pendingPairing requestId connect.deviceId auth.publicKey)
    match identity with
    | none =>
      refuse connect s!"connection request {requestId} does not match this device key"
    | some identity =>
      let status : Option PendingApprovalStatus ←
        ask (.pendingStatus requestId connect.deviceId)
      match status with
      | some .pending => self.reportPending connect requestId
      | some .approved => pure (some ⟨some requestId, some identity⟩)
      | some .rejected =>
        let _ ← ask (.removePending requestId)
        let _ ← ask (.removePendingPairing requestId)
        refuse connect s!"connection request {requestId} was rejected on the PC"
      | none => refuse connect s!"connection request {requestId} is invalid or expired"

/-- Answer a Connect with a challenge. -/
def issueChallenge (connect : ConnectCommand) (auth : DeviceAuthRequest) :
    ControlM (Option Admission) := do
  let trusted : Bool ← ask (.isTrusted connect.deviceId auth.publicKey)
  let challenge : Except String DeviceAuthChallenge ← ask (.begin connect.deviceId
    self.streamerId self.pcCertificateFingerprint (!trusted) auth.publicKey auth.phoneNonce)
  match challenge with
  | .error error => refuse connect error
  | .ok challenge =>
    let volume : Option UInt32 ← ask .readPcOutputVolume
    let presence := { self.presence (some false) volume with
      deviceAuthChallenge := some challenge }
    let _ ← ask (.respond connect.responseTx (.connect (.ok presence)))
    pure none

/-- Ask the user of the PC to approve a proved key. -/
def requestPairing (connect : ConnectCommand) (identity : VerifiedDeviceIdentity) :
    ControlM (Option Admission) := do
  let trustedKey : Option String ← ask (.publicKey connect.deviceId)
  let replacesExistingIdentity := trustedKey.any fun trustedKey =>
    trustedKey ≠ identity.publicKey
  let requestId : Except String String ← ask (.createPending connect.deviceId)
  match requestId with
  | .error error => refuse connect error
  | .ok requestId =>
    let _ ← ask (.holdPendingPairing requestId connect.deviceId identity)
    let _ ← ask (.requestApproval {
      requestId
      deviceId := connect.deviceId
      name := connect.deviceName
      addr := connect.remoteAddr
      keyFingerprint := identity.fingerprint
      pairingCode := identity.pairingCode
      replacesExistingIdentity })
    self.reportPending connect requestId

/-- Admit a Connect whose key is trusted, or ask for approval. -/
def admitVerified (connect : ConnectCommand) (auth : DeviceAuthRequest)
    (identity : VerifiedDeviceIdentity) : ControlM (Option Admission) := do
  let alreadyTrusted : Bool ← ask (.isTrusted connect.deviceId identity.publicKey)
  if alreadyTrusted ∧ auth.phoneConfirmation = none then pure (some ⟨none, none⟩)
  else
    match auth.phoneConfirmation with
    | some true => self.requestPairing connect identity
    | some false => refuse connect "pairing was cancelled on the phone"
    | none => refuse connect "phone confirmation is required for pairing"

/-- Admit a Connect that has no request yet. -/
def admitProved (connect : ConnectCommand) : ControlM (Option Admission) :=
  match connect.deviceAuth with
  | none => refuse connect "LAN device authentication identity is missing"
  | some auth =>
    if auth.challengeId = none ∧ auth.signature = none then self.issueChallenge connect auth
    else do
      let identity : Except String VerifiedDeviceIdentity ← ask (.verify connect.deviceId
        self.streamerId self.pcCertificateFingerprint auth)
      match identity with
      | .error error => refuse connect error
      | .ok identity => self.admitVerified connect auth identity

/-- Admit a Connect, or answer it. -/
def admitDevice (connect : ConnectCommand) : ControlM (Option Admission) :=
  if connect.authorized then pure (some ⟨none, none⟩)
  else
    match connect.pendingRequestId with
    | some requestId => self.admitApproved connect requestId
    | none => self.admitProved connect

/-- Make the session of a started stream valid. -/
def commitSession (admission : Admission) (pendingSession : PendingSession) :
    ControlM (Except String PresenceResponse) := do
  let committed : Except String (String × SessionGeneration) ← ask (.commit pendingSession)
  match committed with
  | .error error => pure (.error error)
  | .ok (sessionToken, sessionGeneration) =>
    let volume : Option UInt32 ← ask .readPcOutputVolume
    pure (.ok { self.presence (some true) volume with
      sessionToken := some sessionToken
      sessionGeneration := some sessionGeneration
      pendingRequestId := admission.approvedRequestId })

/-- Remember an approved key, then make the session of its started stream valid. -/
def establish (connect : ConnectCommand) (admission : Admission)
    (pendingSession : PendingSession) : ControlM (Except String PresenceResponse) :=
  match admission.identityToTrust with
  | none => self.commitSession admission pendingSession
  | some identity => do
    let trusted : Except String Unit ←
      ask (.trust connect.deviceId connect.deviceName identity.publicKey)
    match trusted with
    | .ok () => self.commitSession admission pendingSession
    | .error error =>
      let _ ← unregisterDevice connect.deviceId
      pure (.error s!"failed to remember the approved device: {error}")

/-- Start the stream of an admitted Connect, then make its session valid. -/
def startSession (connect : ConnectCommand) (admission : Admission)
    (pendingSession : PendingSession) : ControlM (Except String PresenceResponse) := do
  let audioAddr := { connect.remoteAddr with port := audioUdpPort }
  let registered ← registerDevice connect.deviceId pendingSession.generation connect.deviceName
    audioAddr connect.remoteAddr none connect.source connect.bitrate
  match registered with
  | .error error => pure (.error error)
  | .ok () => self.establish connect admission pendingSession

/-- Forget the request a Connect was admitted with. -/
def closeRequest (admission : Admission) : ControlM Unit :=
  match admission.approvedRequestId with
  | none => pure ()
  | some requestId => do
    let _ ← ask (.removePending requestId)
    let _ ← ask (.removePendingPairing requestId)
    pure ()

/-- Give an admitted Connect its session. -/
def openSession (connect : ConnectCommand) (admission : Admission) : ControlM Unit := do
  let pendingSession : Except String PendingSession ← ask (.prepare connect.deviceId)
  match pendingSession with
  | .error error => ask (.respond connect.responseTx (.connect (.error error)))
  | .ok pendingSession =>
    let result ← self.startSession connect admission pendingSession
    let _ ← closeRequest admission
    ask (.respond connect.responseTx (.connect result))

/-- Handle a Connect. -/
def handleConnect (connect : ConnectCommand) : ControlM Unit := do
  let admission ← self.admitDevice connect
  match admission with
  | none => pure ()
  | some admission => self.openSession connect admission

/-- End the stream and the session of a device. -/
def endSession (deviceId : DeviceId) (generation : Option SessionGeneration) (responseTx : ℕ) :
    ControlM Unit := do
  let result ← unregisterDevice deviceId
  match result with
  | .ok () =>
    let _ ← ask (.revoke deviceId generation)
    ask (.respond responseTx (.mutation result))
  | .error _ => ask (.respond responseTx (.mutation result))

/-- Handle a Disconnect; one of a session that is not current changes nothing. -/
def handleDisconnect (deviceId : DeviceId) (generation : Option SessionGeneration)
    (responseTx : ℕ) : ControlM Unit :=
  match generation with
  | none => endSession deviceId none responseTx
  | some generation => do
    let current : Bool ← ask (.isCurrent deviceId generation)
    if current then endSession deviceId (some generation) responseTx
    else ask (.respond responseTx (.mutation (.ok ())))

/-- Handle a probe. -/
def handleProbe (deviceId : Option DeviceId) (responseTx : ℕ) : ControlM Unit := do
  let deviceRegistered : Option Bool ←
    match deviceId with
    | none => pure none
    | some deviceId => some <$> ask (.updateLastSeen deviceId)
  let broadcasting : Bool ← ask .isBroadcasting
  let volume : Option UInt32 ← ask .readPcOutputVolume
  let presence := { self.presence deviceRegistered volume with isOffline := !broadcasting }
  ask (.respond responseTx (.presence presence))

/-- Handle a command. -/
def handleCommand : ControlCommand → ControlM Unit
  | .connect connect => self.handleConnect connect
  | .disconnect deviceId _ generation responseTx =>
    handleDisconnect deviceId generation responseTx
  | .getSources responseTx => do
    let capabilities : StreamerCapabilities ← ask .platformCapabilities
    ask (.respond responseTx (.sources ⟨[.desktop], capabilities⟩))
  | .changeSource deviceId source responseTx => do
    let result : Except String Unit ← ask (.audio (.changeSource deviceId source))
    ask (.respond responseTx (.mutation result))
  | .changeBitrate deviceId bitrate responseTx => do
    let result : Except String Unit ← ask (.audio (.changeBitrate deviceId bitrate))
    ask (.respond responseTx (.mutation result))
  | .sessionHeartbeat deviceId generation => do
    let current : Bool ← ask (.isCurrent deviceId generation)
    if current then
      let _ ← ask (.updateLastSeen deviceId)
    else pure ()
  | .probe deviceId responseTx => self.handleProbe deviceId responseTx

end ControlDispatcher

end Gemacast.Control
