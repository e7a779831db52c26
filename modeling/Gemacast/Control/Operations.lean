import Gemacast.Core.Program
import Gemacast.Control.Stores

/-!
# Operations of the tasks

What one task can do between two moments at which others may come in: one call on a store,
one message on a channel. The answers of the world come with the operation.
-/

namespace Gemacast.Control

open Gemacast.Core Gemacast.Streamer

/-- The answers of the world to one operation. -/
structure World where
  /-- Nanoseconds between two readings of the clock. -/
  delay : ℕ := 0
  /-- The random bytes drawn, by draw. -/
  random : ℕ → Except String (List UInt8)
  /-- The outcome of writing a file. -/
  write : Except String Unit := .ok ()
  /-- The platform under the stream engine. -/
  platform : Platform := ⟨.ok (), true, 0⟩
  /-- The other end of a channel is gone. -/
  closed : Bool := false
  /-- The stream engine had taken the command when it ended. -/
  taken : Bool := false
  /-- The order of a hash map. -/
  order : List DeviceId := []
  /-- The user's answer. -/
  approved : Bool := false
  /-- The output volume. -/
  volume : Option UInt32 := none
  /-- What the platform can do. -/
  capabilities : StreamerCapabilities := ⟨false, false⟩
  /-- The time to wait is over. -/
  timedOut : Bool := false

/-- What is shown to a user or told to a device. -/
inductive Notice
  | deviceDiscovered (deviceId : DeviceId) (name : String) (addr : SocketAddr)
      (transport : Option TransportType)
  | deviceLost (deviceId : DeviceId) (addr : SocketAddr)
  | disconnect (deviceId : DeviceId) (addr : Option SocketAddr)
  | heartbeatAcknowledged (deviceId : DeviceId)
  | fatalError (message : String)
  | adbShutdown
  deriving DecidableEq, Repr

/-- What waiting for the dispatcher came to. -/
inductive Awaited
  | answered (response : Response)
  | dropped
  | timedOut

/-- An HTTP status. -/
inductive StatusCode
  | ok
  | accepted
  | switchingProtocols
  | badRequest
  | unauthorized
  | forbidden
  | conflict
  | serviceUnavailable
  | gatewayTimeout
  deriving DecidableEq, Repr

/-- What a phone is answered. -/
inductive HttpResponse
  | status (status : StatusCode)
  | text (status : StatusCode) (body : String)
  | error (status : StatusCode) (code message : String)
  | presence (status : StatusCode) (presence : PresenceResponse)
  | sources (sources : SourcesResponse)
  deriving DecidableEq, Repr

/-- One operation. -/
inductive ControlOp
  | isBroadcasting
  | setBroadcasting (value : Bool)
  | openBroadcaster
  | closeBroadcaster
  | exit
  | authenticate (deviceId : DeviceId) (token : String)
  | authenticateToken (token : String)
  | createPending (deviceId : DeviceId)
  | pendingStatus (requestId : String) (deviceId : DeviceId)
  | resolvePending (requestId : String) (approved : Bool)
  | removePending (requestId : String)
  | cancelPendingForDevice (deviceId : DeviceId)
  | prepare (deviceId : DeviceId)
  | commit (pending : PendingSession)
  | isCurrent (deviceId : DeviceId) (generation : SessionGeneration)
  | revoke (deviceId : DeviceId) (generation : Option SessionGeneration)
  | revokeAll
  | begin (deviceId pcId : DeviceId) (pcCertificateFingerprint : String) (requiresApproval : Bool)
      (publicKey phoneNonce : String)
  | verify (deviceId pcId : DeviceId) (pcCertificateFingerprint : String)
      (auth : DeviceAuthRequest)
  | holdPendingPairing (requestId : String) (deviceId : DeviceId)
      (identity : VerifiedDeviceIdentity)
  | pendingPairing (requestId : String) (deviceId : DeviceId) (publicKey : String)
  | removePendingPairing (requestId : String)
  | cancelPairingsForDevice (deviceId : DeviceId)
  | clearPairings
  | isTrusted (deviceId : DeviceId) (publicKey : String)
  | publicKey (deviceId : DeviceId)
  | trust (deviceId : DeviceId) (deviceName publicKey : String)
  | forget (deviceId : DeviceId)
  | register (deviceId : DeviceId) (deviceName : String) (isOffline : Bool) (addr : SocketAddr)
      (transport : Option TransportType)
  | unregister (deviceId : DeviceId)
  | updateLastSeen (deviceId : DeviceId)
  | getAddr (deviceId : DeviceId)
  | drainAll
  | evictStale (timeout : ℕ)
  | audio (command : AudioStreamCommand)
  | send (command : ControlCommand)
  | respond (responseTx : ℕ) (response : Response)
  | awaitResponse (responseRx : ℕ) (timeout : Option ℕ)
  | requestApproval (request : ConnectionApprovalRequest)
  | awaitApproval (request : ConnectionApprovalRequest)
  | readPcOutputVolume
  | platformCapabilities
  | notify (notice : Notice)
  | answer (response : HttpResponse)

/-- What an operation is answered. -/
@[reducible] def Answer : ControlOp → Type
  | .isBroadcasting | .openBroadcaster => Bool
  | .authenticate .. | .authenticateToken _ => Option AuthorizedSession
  | .createPending _ => Except String String
  | .pendingStatus .. => Option PendingApprovalStatus
  | .resolvePending .. => Bool
  | .prepare _ => Except String PendingSession
  | .commit _ => Except String (String × SessionGeneration)
  | .isCurrent .. | .revoke .. => Bool
  | .begin .. => Except String DeviceAuthChallenge
  | .verify .. => Except String VerifiedDeviceIdentity
  | .pendingPairing .. => Option VerifiedDeviceIdentity
  | .isTrusted .. => Bool
  | .publicKey _ => Option String
  | .trust .. => Except String Unit
  | .forget _ => Except String Bool
  | .register .. => RegistrationOutcome
  | .unregister _ => Option DiscoveredDevice
  | .updateLastSeen _ => Bool
  | .getAddr _ => Option SocketAddr
  | .drainAll => List (DeviceId × DiscoveredDevice)
  | .evictStale _ => List (DeviceId × SocketAddr)
  | .audio _ => Except String Unit
  | .send _ => Bool
  | .awaitResponse .. => Awaited
  | .awaitApproval _ => Bool
  | .readPcOutputVolume => Option UInt32
  | .platformCapabilities => StreamerCapabilities
  | .cancelPendingForDevice _ | .cancelPairingsForDevice _ => ℕ
  | .setBroadcasting _ | .closeBroadcaster | .exit | .removePending _ | .revokeAll
  | .holdPendingPairing .. | .removePendingPairing _ | .clearPairings | .respond ..
  | .requestApproval _ | .notify _ | .answer _ => Unit

/-- A task of the PC. -/
abbrev ControlM := Program ControlOp Answer

/-- Make an operation and wait for its answer. -/
abbrev ask (op : ControlOp) : ControlM (Answer op) := .perform op

/-- A call of a task. -/
abbrev ControlCall := Called ControlOp Answer

/-- What the engine acknowledges a command with. -/
def acknowledgement : AudioStreamCommand → String
  | .subscribe .. => "subscribe"
  | .unsubscribe _ => "unsubscribe"
  | .changeSource .. => "source"
  | .changeBitrate .. => "bitrate"
  | .shutdown => "shutdown"
  | .getTcpBroadcaster _ => "broadcaster"
  | .transportClosed .. => "transport"

namespace Stores

/-- One round of the stream engine; its reports wait for their task. -/
def engineStep (s : Stores) (input : EngineInput) : Stores × EngineOutput :=
  let next := s.audio.step input
  ({ s with audio := next.1, sessionFailures := s.sessionFailures ++ next.2.reported }, next.2)

/-- Send a command to the stream engine and wait for its answer. -/
def audioCommand (s : Stores) (world : World) (command : AudioStreamCommand) :
    Stores × Except String Unit :=
  let next := s.engineStep (.command command world.platform)
  match next.2.reply with
  | some (.result result) => (next.1, result)
  | _ =>
    (next.1, .error
      (if world.taken then s!"audio engine dropped the {acknowledgement command} acknowledgement"
      else "audio engine is unavailable"))

/-- The clock after an operation. -/
def after (s : Stores) (world : World) : ℕ := s.now + world.delay

/-- Make an operation; none has to wait. -/
def execute (crypto : Crypto) (world : World) (s : Stores) : (op : ControlOp) →
    Option (Stores × Answer op)
  | .isBroadcasting => some (s, s.isBroadcasting)
  | .setBroadcasting value => some ({ s with isBroadcasting := value }, ())
  | .openBroadcaster =>
    if s.broadcaster ∨ world.closed then some (s, false)
    else some ({ s with broadcaster := true }, true)
  | .closeBroadcaster => some ({ s with broadcaster := false }, ())
  | .exit => some ({ s with exiting := true }, ())
  | .authenticate deviceId token => some (s, s.authorizer.authenticate deviceId token)
  | .authenticateToken token => some (s, s.authorizer.authenticateToken world.order token)
  | .createPending deviceId =>
    let requestId := SessionAuthorizer.pendingRequestId crypto.hexEncode (world.random 0)
    let next := s.authorizer.createPending s.now (s.after world) requestId deviceId
    some ({ s with authorizer := next.1, now := s.after world }, next.2)
  | .pendingStatus requestId deviceId =>
    let next := s.authorizer.pendingStatus s.now requestId deviceId
    some ({ s with authorizer := next.1 }, next.2)
  | .resolvePending requestId approved =>
    let next := s.authorizer.resolvePending s.now requestId approved
    some ({ s with authorizer := next.1 }, next.2)
  | .removePending requestId =>
    some ({ s with authorizer := s.authorizer.removePending requestId }, ())
  | .cancelPendingForDevice deviceId =>
    let next := s.authorizer.cancelPendingForDevice s.now deviceId
    some ({ s with authorizer := next.1 }, next.2)
  | .prepare deviceId =>
    let next := s.authorizer.prepare crypto.hexEncode (world.random 0) deviceId
    some ({ s with authorizer := next.1 }, next.2)
  | .commit pending =>
    let next := s.authorizer.commit pending
    some ({ s with authorizer := next.1 }, next.2)
  | .isCurrent deviceId generation => some (s, s.authorizer.isCurrent deviceId generation)
  | .revoke deviceId generation =>
    let next := s.authorizer.revoke deviceId generation
    some ({ s with authorizer := next.1 }, next.2)
  | .revokeAll => some ({ s with authorizer := s.authorizer.revokeAll }, ())
  | .begin deviceId pcId pcCertificateFingerprint requiresApproval publicKey phoneNonce =>
    let next := s.deviceAuth.begin crypto s.now (s.after world) world.random deviceId pcId
      pcCertificateFingerprint requiresApproval publicKey phoneNonce
    some ({ s with deviceAuth := next.1, now := s.after world }, next.2)
  | .verify deviceId pcId pcCertificateFingerprint auth =>
    let next := s.deviceAuth.verify crypto s.now (s.after world) deviceId pcId
      pcCertificateFingerprint auth
    some ({ s with deviceAuth := next.1, now := s.after world }, next.2)
  | .holdPendingPairing requestId deviceId identity =>
    let next := s.deviceAuth.holdPendingPairing s.now (s.after world) requestId deviceId identity
    some ({ s with deviceAuth := next, now := s.after world }, ())
  | .pendingPairing requestId deviceId publicKey =>
    let next := s.deviceAuth.pendingPairing s.now requestId deviceId publicKey
    some ({ s with deviceAuth := next.1 }, next.2)
  | .removePendingPairing requestId =>
    some ({ s with deviceAuth := s.deviceAuth.removePendingPairing requestId }, ())
  | .cancelPairingsForDevice deviceId =>
    let next := s.deviceAuth.cancelPendingForDevice s.now deviceId
    some ({ s with deviceAuth := next.1 }, next.2)
  | .clearPairings => some ({ s with deviceAuth := s.deviceAuth.clearPending }, ())
  | .isTrusted deviceId publicKey => some (s, s.trustedDevices.isTrusted deviceId publicKey)
  | .publicKey deviceId => some (s, s.trustedDevices.publicKey deviceId)
  | .trust deviceId deviceName publicKey =>
    let next := s.trustedDevices.trust world.write deviceId deviceName publicKey
    some ({ s with trustedDevices := next.1 }, next.2)
  | .forget deviceId =>
    let next := s.trustedDevices.forget world.write deviceId
    some ({ s with trustedDevices := next.1 }, next.2)
  | .register deviceId deviceName isOffline addr transport =>
    let next := s.registry.register ⟨deviceId, deviceName, addr, s.now, isOffline, transport⟩
    some ({ s with registry := next.1 }, next.2)
  | .unregister deviceId =>
    let next := s.registry.unregister deviceId
    some ({ s with registry := next.1 }, next.2)
  | .updateLastSeen deviceId =>
    let next := s.registry.updateLastSeen s.now deviceId
    some ({ s with registry := next.1 }, next.2)
  | .getAddr deviceId => some (s, (s.registry.lookup deviceId).map (·.addr))
  | .drainAll =>
    let next := s.registry.drainAll world.order
    some ({ s with registry := next.1 }, next.2)
  | .evictStale timeout =>
    let next := s.registry.evictStale world.order s.now timeout
    some ({ s with registry := next.1 }, next.2)
  | .audio command => some (s.audioCommand world command)
  | .send command =>
    if world.closed then some (s, false)
    else if s.queue.length < controlCommandCapacity then
      some ({ s with queue := s.queue ++ [command] }, true)
    else none
  | .respond responseTx response =>
    some ({ s with responses := s.responses.insert responseTx response }, ())
  | .awaitResponse responseRx timeout =>
    if timeout.isSome ∧ world.timedOut then some (s, .timedOut)
    else
      match s.responses.lookup responseRx with
      | some response => some (s, .answered response)
      | none => if world.closed then some (s, .dropped) else none
  | .requestApproval request => some ({ s with approvals := s.approvals ++ [request] }, ())
  | .awaitApproval _ => some (s, world.approved)
  | .readPcOutputVolume => some (s, world.volume)
  | .platformCapabilities => some (s, world.capabilities)
  | .notify _ => some (s, ())
  | .answer _ => some (s, ())

end Stores

end Gemacast.Control
