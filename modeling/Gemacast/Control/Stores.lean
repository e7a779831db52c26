import Gemacast.Control.DeviceAuth
import Gemacast.Control.TrustStore
import Gemacast.Streamer.Engine

/-!
# The shared state of the PC

The stores every task of the PC works on, the registry of connected devices among them, and
the channels between the tasks. What an HTTP handler is answered through is named by the
number of the handler.
-/

namespace Gemacast.Control

open Gemacast.Core Gemacast.Streamer

/-- How a device is attached. -/
inductive TransportType
  | wifi
  | usb
  | adb
  deriving DecidableEq, Repr

/-- A connected device. -/
structure DiscoveredDevice where
  /-- The device. -/
  deviceId : DeviceId
  /-- Its name. -/
  deviceName : String
  /-- Where its audio goes. -/
  addr : SocketAddr
  /-- When it was last heard of. -/
  lastSeen : ℕ
  /-- It has said that it is offline. -/
  isOffline : Bool
  /-- How it is attached. -/
  transport : Option TransportType
  deriving DecidableEq, Repr

/-- What a registration has changed. -/
inductive RegistrationOutcome
  | newDevice
  | addressChanged (oldAddr : SocketAddr)
  | alreadyRegistered
  deriving DecidableEq, Repr

/-- The connected devices. -/
abbrev DeviceRegistry := Table DeviceId DiscoveredDevice

namespace DeviceRegistry

/-- Insert or replace a device. -/
def register (registry : DeviceRegistry) (device : DiscoveredDevice) :
    DeviceRegistry × RegistrationOutcome :=
  let outcome :=
    match registry.lookup device.deviceId with
    | some existing =>
      if existing.addr ≠ device.addr then .addressChanged existing.addr else .alreadyRegistered
    | none => .newDevice
  (registry.insert device.deviceId device, outcome)

/-- Remove a device. -/
def unregister (registry : DeviceRegistry) (deviceId : DeviceId) :
    DeviceRegistry × Option DiscoveredDevice :=
  (registry.erase deviceId, registry.lookup deviceId)

/-- A device has been heard of; whether it is registered. -/
def updateLastSeen (registry : DeviceRegistry) (now : ℕ) (deviceId : DeviceId) :
    DeviceRegistry × Bool :=
  match registry.lookup deviceId with
  | some device => (registry.insert deviceId { device with lastSeen := now }, true)
  | none => (registry, false)

/-- The devices that a test accepts, in the order of the map. -/
def select (registry : DeviceRegistry) (order : List DeviceId) (test : DiscoveredDevice → Bool) :
    List (DeviceId × DiscoveredDevice) :=
  (registry.keysInOrder order).filterMap fun deviceId =>
    ((registry.lookup deviceId).filter test).map fun device => (deviceId, device)

/-- Remove all devices. -/
def drainAll (registry : DeviceRegistry) (order : List DeviceId) :
    DeviceRegistry × List (DeviceId × DiscoveredDevice) :=
  (∅, select registry order fun _ => true)

/-- Remove the devices that have been silent for longer than a time. -/
def evictStale (registry : DeviceRegistry) (order : List DeviceId) (now timeout : ℕ) :
    DeviceRegistry × List (DeviceId × SocketAddr) :=
  let stale (device : DiscoveredDevice) : Bool := decide (now - device.lastSeen > timeout)
  (Table.retain (fun _ device => !stale device) registry,
    (select registry order stale).map fun entry => (entry.1, entry.2.addr))

end DeviceRegistry

/-- What the platform can do. -/
structure StreamerCapabilities where
  /-- Single programs can be captured. -/
  supportsProcessCapture : Bool
  /-- The output volume can be read. -/
  supportsVolumeSync : Bool
  deriving DecidableEq, Repr

/-- What can be captured, and how. -/
structure SourcesResponse where
  /-- The sources. -/
  sources : List AudioSource
  /-- What the platform can do. -/
  capabilities : StreamerCapabilities
  deriving DecidableEq, Repr

/-- What a phone is told about the PC and its own connection. -/
structure PresenceResponse where
  /-- The PC. -/
  deviceId : DeviceId
  /-- Its name. -/
  streamerName : String
  /-- It accepts no connections. -/
  isOffline : Bool
  /-- The phone is registered, where the answer says so. -/
  deviceRegistered : Option Bool
  /-- The token of a new session. -/
  sessionToken : Option String
  /-- The number of a new session. -/
  sessionGeneration : Option SessionGeneration
  /-- The request that waits for approval. -/
  pendingRequestId : Option String
  /-- The challenge to be answered. -/
  deviceAuthChallenge : Option DeviceAuthChallenge
  /-- The certificate of the PC. -/
  pcCertificateFingerprint : Option String
  /-- The bits of the output volume, where it can be read. -/
  pcOutputVolume : Option UInt32
  deriving DecidableEq, Repr

/-- A Connect on its way to the dispatcher. -/
structure ConnectCommand where
  /-- The device. -/
  deviceId : DeviceId
  /-- Its name. -/
  deviceName : String
  /-- What it wants to hear. -/
  source : Option AudioSource
  /-- Where the request came from. -/
  remoteAddr : SocketAddr
  /-- The bitrate it asks for. -/
  bitrate : Option ℤ
  /-- The handler that waits for the answer. -/
  responseTx : ℕ
  /-- The request carried the token of a session of the device. -/
  authorized : Bool
  /-- The approval the device waits for. -/
  pendingRequestId : Option String
  /-- The proof of the device. -/
  deviceAuth : Option DeviceAuthRequest
  deriving DecidableEq, Repr

/-- A command to the dispatcher. -/
inductive ControlCommand
  | connect (connect : ConnectCommand)
  | disconnect (deviceId : DeviceId) (remoteAddr : SocketAddr)
      (generation : Option SessionGeneration) (responseTx : ℕ)
  | getSources (responseTx : ℕ)
  | changeSource (deviceId : DeviceId) (source : AudioSource) (responseTx : ℕ)
  | changeBitrate (deviceId : DeviceId) (bitrate : Option ℤ) (responseTx : ℕ)
  | sessionHeartbeat (deviceId : DeviceId) (generation : SessionGeneration)
  | probe (deviceId : Option DeviceId) (responseTx : ℕ)
  deriving DecidableEq, Repr

/-- What the dispatcher answers to a handler. -/
inductive Response
  | connect (result : Except String PresenceResponse)
  | mutation (result : Except String Unit)
  | sources (sources : SourcesResponse)
  | presence (presence : PresenceResponse)

/-- What the user of the PC is shown before a device may connect. -/
structure ConnectionApprovalRequest where
  /-- The request. -/
  requestId : String
  /-- The device. -/
  deviceId : DeviceId
  /-- Its name. -/
  name : String
  /-- Where it is. -/
  addr : SocketAddr
  /-- The digest of its key. -/
  keyFingerprint : String
  /-- The code both users compare. -/
  pairingCode : String
  /-- Another key is trusted for the device. -/
  replacesExistingIdentity : Bool
  deriving DecidableEq, Repr

/-- Largest number of commands that wait for the dispatcher. -/
def controlCommandCapacity : ℕ := 32

/-- The shared state. -/
structure Stores where
  /-- The monotonic clock. -/
  now : ℕ
  /-- Connections are accepted. -/
  isBroadcasting : Bool
  /-- The presence broadcaster runs. -/
  broadcaster : Bool
  /-- The tray has asked to exit. -/
  exiting : Bool
  /-- Sessions and requests. -/
  authorizer : SessionAuthorizer
  /-- Challenges and waiting keys. -/
  deviceAuth : DeviceAuthManager
  /-- Approved keys. -/
  trustedDevices : TrustedDeviceStore
  /-- Connected devices. -/
  registry : DeviceRegistry
  /-- The stream engine. -/
  audio : AudioStreamEngine
  /-- Commands that wait for the dispatcher. -/
  queue : List ControlCommand
  /-- Answers of the dispatcher, by handler. -/
  responses : Table ℕ Response
  /-- Approvals that are asked for and not yet shown. -/
  approvals : List ConnectionApprovalRequest
  /-- Reports of failed sessions that wait for their task. -/
  sessionFailures : List StreamSessionFailure

end Gemacast.Control
