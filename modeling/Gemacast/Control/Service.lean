import Gemacast.Core.Tasks
import Gemacast.Control.Handlers

/-!
# The PC as a system of tasks

All tasks of the PC on their shared state. Requests and commands of the tray arrive at any
time, a task makes its next operation at any time, and time passes. The dispatcher takes
its commands from the queue, one after the other.
-/

namespace Gemacast.Control

open Gemacast.Core Gemacast.Streamer

/-- A task of the PC. -/
inductive TaskId
  | dispatcher
  | commandHandler
  | watchdog
  | failures
  | probes
  | http (n : ℕ)
  | approval (n : ℕ)
  deriving DecidableEq, Repr

/-- What a task takes up. -/
inductive Job
  | handle (command : ControlCommand)
  | appCommand (command : AppCommand)
  | evictStale
  | sessionFailed (failure : StreamSessionFailure)
  | probed (deviceId : DeviceId)
  | http (n : ℕ) (addr : SocketAddr) (authorization : Option String) (request : HttpRequest)
  | approval (request : ConnectionApprovalRequest)

/-- What changes without a task of the PC. -/
inductive Change
  | elapse (duration : ℕ)
  | streamFailure (failure : StreamTaskFailure) (order : List DeviceId)
  | transportClosed (deviceId : DeviceId) (generation : UInt64)

/-- The program of a job. -/
def Job.program (self : ControlDispatcher) : Job → ControlM Unit
  | .handle command => self.handleCommand command
  | .appCommand command => handleAppCommand command
  | .evictStale => evictStaleDevices
  | .sessionFailed failure => followFailure failure
  | .probed deviceId => followProbe deviceId
  | .http n addr authorization request => ControlServer.handle self n addr authorization request
  | .approval request => resolveApproval request

namespace Stores

/-- The state after the start of the PC. -/
def boot (now : ℕ) (trustedDevices : TrustedDeviceStore) (supportsProcessCapture : Bool) :
    Stores where
  now
  isBroadcasting := true
  broadcaster := false
  exiting := false
  authorizer := .new
  deviceAuth := .new
  trustedDevices
  registry := ∅
  audio := .new supportsProcessCapture true
  queue := []
  responses := ∅
  approvals := []
  sessionFailures := []

/-- What taking up a job takes from the channels. -/
def accept (s : Stores) : TaskId → Job → Option Stores
  | .dispatcher, .handle command =>
    match s.queue with
    | [] => none
    | first :: queue => if first = command then some { s with queue } else none
  | .commandHandler, .appCommand _ => if s.exiting then none else some s
  | .watchdog, .evictStale => some s
  | .failures, .sessionFailed failure =>
    match s.sessionFailures with
    | [] => none
    | first :: sessionFailures => if first = failure then some { s with sessionFailures } else none
  | .probes, .probed _ => some s
  | .http n, .http m _ _ _ => if n = m then some s else none
  | .approval _, .approval request =>
    if request ∈ s.approvals then some { s with approvals := s.approvals.erase request } else none
  | _, _ => none

/-- A change without a task. -/
def outside (s : Stores) : Change → Stores
  | .elapse duration => { s with now := s.now + duration }
  | .streamFailure failure order => (s.engineStep (.failure failure order)).1
  | .transportClosed deviceId generation =>
    (s.engineStep (.command (.transportClosed deviceId generation) ⟨.ok (), true, 0⟩)).1

end Stores

/-- The task takes up one job after the other. -/
def TaskId.again : TaskId → Bool
  | .dispatcher | .commandHandler | .watchdog | .failures | .probes => true
  | .http _ | .approval _ => false

/-- The PC. -/
def service (crypto : Crypto) (self : ControlDispatcher) (init : Stores) :
    TaskSystem Stores World ControlOp Answer TaskId Job Change where
  init
  execute := fun world s op => s.execute crypto world op
  program := Job.program self
  accept := Stores.accept
  again := TaskId.again
  outside := Stores.outside

/-- An event of a run of the PC. -/
abbrev ControlEvent := TaskSystem.TaskEvent Stores World ControlOp Answer TaskId Job Change

/-- What happened in an event. -/
abbrev ControlReport := Report ControlOp Answer TaskId Job Change

end Gemacast.Control
