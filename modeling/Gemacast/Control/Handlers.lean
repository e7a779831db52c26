import Gemacast.Control.Dispatcher

/-!
# The other tasks

The handlers of the HTTP surface and of the WebSocket, the commands of the tray, the
watchdog, the task that follows failed sessions, and the tasks that ask for approval. They
share the stores with the dispatcher and run between its operations.
-/

namespace Gemacast.Control

open Gemacast.Core Gemacast.Streamer Program

/-- A command of a phone over its WebSocket. -/
inductive WsCommand
  | heartbeat
  | disconnect
  deriving DecidableEq, Repr

/-- A Connect as it arrives. -/
structure ConnectReq where
  /-- The device. -/
  deviceId : DeviceId
  /-- Its name. -/
  deviceName : String
  /-- The bitrate it asks for. -/
  bitrate : Option ℤ := some 128000
  /-- What it wants to hear. -/
  source : Option AudioSource := none
  /-- The approval it waits for. -/
  pendingRequestId : Option String := none
  /-- The proof of the device. -/
  deviceAuth : Option DeviceAuthRequest := none
  deriving DecidableEq, Repr

/-- What a phone asks. -/
inductive HttpRequest
  | probe (deviceId : Option DeviceId)
  | connect (req : ConnectReq)
  | disconnect (deviceId : DeviceId)
  | getSources
  | changeSource (deviceId : DeviceId) (source : AudioSource)
  | changeBitrate (deviceId : DeviceId) (bitrate : Option ℤ)
  | wsUpgrade (deviceId : Option DeviceId) (commands : List WsCommand)
  deriving DecidableEq, Repr

/-- The token of an Authorization header. -/
def bearerToken (authorization : Option String) : Option String :=
  match authorization with
  | none => none
  | some value =>
    if "Bearer ".toList.isPrefixOf value.toList then some (String.ofList (value.toList.drop 7))
    else none

/-- The session of a device whose token the header carries. -/
def authenticateDevice (authorization : Option String) (deviceId : DeviceId) :
    ControlM (Option AuthorizedSession) :=
  match bearerToken authorization with
  | none => pure none
  | some token => ask (.authenticate deviceId token)

def unauthorized : HttpResponse :=
  .error .unauthorized "unauthorized" "a valid device session token is required"

def dispatcherUnavailable : HttpResponse :=
  .error .serviceUnavailable "dispatcher_unavailable" "control dispatcher is unavailable"

def acknowledgementDropped : HttpResponse :=
  .error .serviceUnavailable "dispatcher_unavailable"
    "control dispatcher dropped the acknowledgement"

/-- The text occurs in the other. -/
def contains (message part : String) : Bool :=
  message.toList.tails.any fun tail => part.toList.isPrefixOf tail

/-- The code of a refused Connect. -/
def connectErrorCode (message : String) : String :=
  let message := String.ofList (message.toList.map Char.toLower)
  if contains message "cancelled on the phone" then "pairing_cancelled"
  else if contains message "rejected on the pc" then "pairing_rejected"
  else if contains message "invalid or expired" || contains message "challenge expired" then
    "pairing_expired"
  else if contains message "too many pending" then "pairing_capacity_exhausted"
  else if contains message "challenge" || contains message "authentication" ||
      contains message "signature" || contains message "device key" then
    "authentication_failed"
  else if contains message "remember the approved" then "pairing_persistence_failed"
  else "stream_start_failed"

/-- How long a handler waits for the outcome of a change. -/
def commandTimeout : ℕ := seconds 10

/-- How long a handler waits for the outcome of a Connect. -/
def connectTimeout : ℕ := seconds 65

/-- Wait for the outcome of a change. -/
def awaitMutation (responseRx : ℕ) : ControlM Unit := do
  let awaited : Awaited ← ask (.awaitResponse responseRx (some commandTimeout))
  match awaited with
  | .answered (.mutation (.ok ())) => ask (.answer (.status .ok))
  | .answered (.mutation (.error message)) =>
    ask (.answer (.error .conflict "operation_failed" message))
  | .answered _ | .dropped => ask (.answer acknowledgementDropped)
  | .timedOut =>
    ask (.answer (.error .gatewayTimeout "operation_timeout" "control operation timed out"))

/-- What the HTTP surface knows about its PC. -/
abbrev ControlServer := ControlDispatcher

namespace ControlServer

variable (self : ControlServer)

def handleProbe (n : ℕ) (deviceId : Option DeviceId) : ControlM Unit := do
  let _ ← ask (.send (.probe deviceId n))
  let awaited : Awaited ← ask (.awaitResponse n none)
  match awaited with
  | .answered (.presence presence) =>
    ask (.answer (.presence .ok
      { presence with pcCertificateFingerprint := some self.pcCertificateFingerprint }))
  | _ =>
    let broadcasting : Bool ← ask .isBroadcasting
    ask (.answer (.presence .ok { self.presence none none with isOffline := !broadcasting }))

/-- Tell a phone what became of its Connect. -/
def answerConnect (n : ℕ) : ControlM Unit := do
  let awaited : Awaited ← ask (.awaitResponse n (some connectTimeout))
  match awaited with
  | .answered (.connect (.ok presence)) =>
    let status : StatusCode :=
      if presence.sessionToken = none ∧ presence.pendingRequestId ≠ none then .accepted else .ok
    ask (.answer (.presence status
      { presence with pcCertificateFingerprint := some self.pcCertificateFingerprint }))
  | .answered (.connect (.error message)) =>
    ask (.answer (.error .conflict (connectErrorCode message) message))
  | .answered _ | .dropped => ask (.answer acknowledgementDropped)
  | .timedOut =>
    ask (.answer (.error .gatewayTimeout "operation_timeout" "stream start timed out"))

/-- Pass a Connect on; whether it carries the token of a session is decided here. -/
def handleConnect (n : ℕ) (addr : SocketAddr) (authorization : Option String) (req : ConnectReq) :
    ControlM Unit := do
  let broadcasting : Bool ← ask .isBroadcasting
  if broadcasting then
    let session ← authenticateDevice authorization req.deviceId
    let sent : Bool ← ask (.send (.connect {
      deviceId := req.deviceId
      deviceName := req.deviceName
      source := req.source
      remoteAddr := addr
      bitrate := req.bitrate
      responseTx := n
      authorized := session.isSome
      pendingRequestId := req.pendingRequestId
      deviceAuth := req.deviceAuth }))
    if sent then self.answerConnect n else ask (.answer dispatcherUnavailable)
  else
    ask (.answer (.error .forbidden "streamer_offline" s!"streamer {self.streamerName} is offline"))

/-- Pass on a change of a session, for its token. -/
def handleMutation (n : ℕ) (authorization : Option String) (deviceId : DeviceId)
    (command : AuthorizedSession → ControlCommand) : ControlM Unit := do
  let session ← authenticateDevice authorization deviceId
  match session with
  | none => ask (.answer unauthorized)
  | some session =>
    let sent : Bool ← ask (.send (command session))
    if sent then awaitMutation n else ask (.answer dispatcherUnavailable)

def handleDisconnect (n : ℕ) (addr : SocketAddr) (authorization : Option String)
    (deviceId : DeviceId) : ControlM Unit :=
  handleMutation n authorization deviceId fun session =>
    .disconnect deviceId addr (some session.generation) n

def handleChangeSource (n : ℕ) (authorization : Option String) (deviceId : DeviceId)
    (source : AudioSource) : ControlM Unit :=
  handleMutation n authorization deviceId fun _ => .changeSource deviceId source n

def handleChangeBitrate (n : ℕ) (authorization : Option String) (deviceId : DeviceId)
    (bitrate : Option ℤ) : ControlM Unit :=
  handleMutation n authorization deviceId fun _ => .changeBitrate deviceId bitrate n

def handleGetSources (n : ℕ) (authorization : Option String) : ControlM Unit :=
  match bearerToken authorization with
  | none => ask (.answer unauthorized)
  | some token => do
    let session : Option AuthorizedSession ← ask (.authenticateToken token)
    match session with
    | none => ask (.answer unauthorized)
    | some _ =>
      let _ ← ask (.send (.getSources n))
      let awaited : Awaited ← ask (.awaitResponse n none)
      match awaited with
      | .answered (.sources sources) => ask (.answer (.sources sources))
      | _ => ask (.answer (.sources ⟨[.desktop], ⟨false, false⟩⟩))

/-- The address a Disconnect over the WebSocket names. -/
def dummyAddr : SocketAddr := ⟨.v4 0, 0⟩

/-- Pass on what a phone says over its WebSocket, under the session of the upgrade. -/
def handleWs (n : ℕ) (deviceId : DeviceId) (generation : SessionGeneration) :
    List WsCommand → ControlM Unit
  | [] => pure ()
  | .heartbeat :: commands => do
    let sent : Bool ← ask (.send (.sessionHeartbeat deviceId generation))
    if sent then
      let _ ← ask (.notify (.heartbeatAcknowledged deviceId))
      handleWs n deviceId generation commands
    else handleWs n deviceId generation commands
  | .disconnect :: commands => do
    let _ ← ask (.send (.disconnect deviceId dummyAddr (some generation) n))
    handleWs n deviceId generation commands

def handleWsUpgrade (n : ℕ) (authorization : Option String) (deviceId : Option DeviceId)
    (commands : List WsCommand) : ControlM Unit :=
  match deviceId with
  | none => ask (.answer (.text .badRequest "Missing device_id query parameter"))
  | some deviceId => do
    let session ← authenticateDevice authorization deviceId
    match session with
    | none => ask (.answer unauthorized)
    | some session =>
      let _ ← ask (.answer (.status .switchingProtocols))
      handleWs n deviceId session.generation commands

/-- Handle a request. -/
def handle (n : ℕ) (addr : SocketAddr) (authorization : Option String) :
    HttpRequest → ControlM Unit
  | .probe deviceId => self.handleProbe n deviceId
  | .connect req => self.handleConnect n addr authorization req
  | .disconnect deviceId => handleDisconnect n addr authorization deviceId
  | .getSources => handleGetSources n authorization
  | .changeSource deviceId source => handleChangeSource n authorization deviceId source
  | .changeBitrate deviceId bitrate => handleChangeBitrate n authorization deviceId bitrate
  | .wsUpgrade deviceId commands => handleWsUpgrade n authorization deviceId commands

end ControlServer

/-- Ask the user of the PC, and write the answer down. -/
def resolveApproval (request : ConnectionApprovalRequest) : ControlM Unit := do
  let approved : Bool ← ask (.awaitApproval request)
  let _ ← ask (.resolvePending request.requestId approved)

/-- A command of the tray. -/
inductive AppCommand
  | kickDevice (deviceId : DeviceId)
  | stopAllStreams
  | startBroadcasting
  | stopBroadcasting
  | exitApp
  deriving DecidableEq, Repr

def handleStartBroadcasting : ControlM Unit := do
  let opened : Bool ← ask .openBroadcaster
  if opened then ask (.setBroadcasting true) else pure ()

/-- Tell every device of a list that it is disconnected, and stop its stream. -/
def disconnectAll : List (DeviceId × DiscoveredDevice) → ControlM Unit
  | [] => pure ()
  | (deviceId, device) :: rest => do
    let _ ← ask (.notify (.disconnect deviceId (some device.addr)))
    let _ ← ask (.audio (.unsubscribe deviceId))
    let _ ← ask (.notify (.deviceLost deviceId device.addr))
    disconnectAll rest

def handleStopBroadcasting : ControlM Unit := do
  let _ ← ask (.setBroadcasting false)
  let _ ← ask .closeBroadcaster
  let all : List (DeviceId × DiscoveredDevice) ← ask .drainAll
  let _ ← ask .revokeAll
  let _ ← ask .clearPairings
  disconnectAll all

/-- Stop the stream of a kicked device and tell it. -/
def dropKicked (deviceId : DeviceId) (addr : Option SocketAddr) : ControlM Unit := do
  let _ ← ask (.audio (.unsubscribe deviceId))
  ask (.notify (.disconnect deviceId addr))

def handleKickDevice (deviceId : DeviceId) : ControlM Unit := do
  let addr : Option SocketAddr ← ask (.getAddr deviceId)
  let _ ← ask (.unregister deviceId)
  let _ ← ask (.revoke deviceId none)
  let _ ← ask (.cancelPendingForDevice deviceId)
  let _ ← ask (.cancelPairingsForDevice deviceId)
  let forgotten : Except String Bool ← ask (.forget deviceId)
  match forgotten with
  | .ok _ => dropKicked deviceId addr
  | .error error =>
    let _ ← ask (.notify (.fatalError s!"Could not persist the removal of {deviceId}. It remains revoked until restart; retry the kick before restarting: {error}"))
    dropKicked deviceId addr

/-- Tell every device of a list that it is lost. -/
def loseAll : List (DeviceId × DiscoveredDevice) → ControlM Unit
  | [] => pure ()
  | (deviceId, device) :: rest => do
    let _ ← ask (.notify (.deviceLost deviceId device.addr))
    let _ ← ask (.notify (.disconnect deviceId (some device.addr)))
    loseAll rest

def handleStopAllStreams : ControlM Unit := do
  let _ ← ask (.notify .adbShutdown)
  let _ ← ask .closeBroadcaster
  let all : List (DeviceId × DiscoveredDevice) ← ask .drainAll
  let _ ← ask .revokeAll
  let _ ← ask .clearPairings
  let _ ← loseAll all
  let _ ← ask (.audio .shutdown)

/-- Handle a command of the tray. -/
def handleAppCommand : AppCommand → ControlM Unit
  | .kickDevice deviceId => handleKickDevice deviceId
  | .stopAllStreams => handleStopAllStreams
  | .startBroadcasting => handleStartBroadcasting
  | .stopBroadcasting => handleStopBroadcasting
  | .exitApp => do
    let _ ← handleStopAllStreams
    ask .exit

/-- How long a device may be silent. -/
def staleTimeout : ℕ := seconds 15

/-- End the sessions of evicted devices. -/
def evictAll : List (DeviceId × SocketAddr) → ControlM Unit
  | [] => pure ()
  | (deviceId, addr) :: rest => do
    let _ ← ask (.notify (.deviceLost deviceId addr))
    let _ ← ask (.audio (.unsubscribe deviceId))
    let _ ← ask (.revoke deviceId none)
    evictAll rest

/-- Evict the devices that are silent. -/
def evictStaleDevices : ControlM Unit := do
  let stale : List (DeviceId × SocketAddr) ← ask (.evictStale staleTimeout)
  evictAll stale

/-- Follow a failed stream, unless its session has been replaced. -/
def followFailure (failure : StreamSessionFailure) : ControlM Unit := do
  let current : Bool ← ask (.isCurrent failure.deviceId failure.generation)
  if current then
    let removed : Option DiscoveredDevice ← ask (.unregister failure.deviceId)
    match removed with
    | some device =>
      let _ ← ask (.notify (.deviceLost failure.deviceId device.addr))
      let _ ← ask (.notify (.disconnect failure.deviceId (some device.addr)))
      let _ ← ask (.revoke failure.deviceId (some failure.generation))
    | none =>
      let _ ← ask (.revoke failure.deviceId (some failure.generation))
  else pure ()

/-- Follow a probe over UDP. -/
def followProbe (deviceId : DeviceId) : ControlM Unit := do
  let _ ← ask (.updateLastSeen deviceId)

end Gemacast.Control
