import Gemacast.Core.Provenance
import Gemacast.Control.Admission
import Gemacast.Control.DelayedRequests

/-!
# Which task makes which call

Requests, approvals, trusted keys and sessions are made in the handling of a Connect only, the
answer of the user is written down by the task that asked, and commands come from the handlers.
-/

namespace Gemacast.Control

open Gemacast.Core Gemacast.Streamer Program TaskSystem

/-- Nothing is asked, proved, approved, removed, trusted or made valid by the operation, and no
command is sent. -/
@[simp] def isHousekeeping : ControlOp → Bool
  | .createPending _ | .verify .. | .holdPendingPairing .. | .trust .. | .commit _
  | .requestApproval _ | .resolvePending .. | .removePending _ | .send _ => false
  | _ => true

def Housekeeping (op : ControlOp) : Prop := isHousekeeping op = true

@[simp] theorem housekeeping_iff {op : ControlOp} : Housekeeping op ↔ isHousekeeping op = true :=
  Iff.rfl

section Programs

variable {self : ControlDispatcher}

theorem disconnectAll_keeps (devices : List (DeviceId × DiscoveredDevice)) :
    Uses Housekeeping (disconnectAll devices) := by
  induction devices with
  | nil => trivial
  | cons device rest ih => simp [disconnectAll, ih]

theorem loseAll_keeps (devices : List (DeviceId × DiscoveredDevice)) :
    Uses Housekeeping (loseAll devices) := by
  induction devices with
  | nil => trivial
  | cons device rest ih => simp [loseAll, ih]

theorem evictAll_keeps (devices : List (DeviceId × SocketAddr)) :
    Uses Housekeeping (evictAll devices) := by
  induction devices with
  | nil => trivial
  | cons device rest ih => simp [evictAll, ih]

theorem handleStopAllStreams_keeps : Uses Housekeeping handleStopAllStreams := by
  simp only [handleStopAllStreams, perform_bind, uses_call, housekeeping_iff,
    isHousekeeping, true_and]
  exact fun _ _ all _ _ => (loseAll_keeps all).bind fun _ => by simp

theorem handleAppCommand_keeps (command : AppCommand) :
    Uses Housekeeping (handleAppCommand command) := by
  cases command with
  | kickDevice deviceId =>
    simp only [handleAppCommand, handleKickDevice, perform_bind, uses_call, housekeeping_iff,
    isHousekeeping, true_and]
    intro _ _ _ _ _ forgotten
    cases forgotten <;> simp [dropKicked]
  | stopAllStreams => exact handleStopAllStreams_keeps
  | startBroadcasting =>
    simp only [handleAppCommand, handleStartBroadcasting, perform_bind, uses_call, housekeeping_iff,
      isHousekeeping, true_and]
    intro opened
    cases opened <;> simp
  | stopBroadcasting =>
    simp only [handleAppCommand, handleStopBroadcasting, perform_bind, uses_call, housekeeping_iff,
      isHousekeeping, true_and]
    exact fun _ _ all _ _ => disconnectAll_keeps all
  | exitApp => exact handleStopAllStreams_keeps.bind fun _ => by simp

theorem followFailure_keeps (failure : StreamSessionFailure) :
    Uses Housekeeping (followFailure failure) := by
  simp only [followFailure, perform_bind, uses_call, housekeeping_iff,
    isHousekeeping, true_and]
  intro current
  cases current with
  | false => simp
  | true =>
    simp only [if_true, uses_call, housekeeping_iff,
    isHousekeeping, true_and]
    intro removed
    cases removed <;> simp

theorem unregisterDevice_keeps (deviceId : DeviceId) :
    Uses Housekeeping (unregisterDevice deviceId) := by
  simp only [unregisterDevice, perform_bind, uses_call, housekeeping_iff,
    isHousekeeping, true_and]
  intro removed
  cases removed <;> simp

theorem endSession_keeps (deviceId : DeviceId) (generation : Option SessionGeneration)
    (responseTx : ℕ) : Uses Housekeeping
      (ControlDispatcher.endSession deviceId generation responseTx) := by
  refine (unregisterDevice_keeps deviceId).bind fun result => ?_
  cases result <;> simp

/-- The dispatcher keeps to it, unless it handles a Connect. -/
theorem handleCommand_keeps {command : ControlCommand}
    (hother : ∀ connect, command ≠ .connect connect) :
    Uses Housekeeping (self.handleCommand command) := by
  cases command with
  | connect connect => exact absurd rfl (hother connect)
  | disconnect deviceId addr generation responseTx =>
    cases generation with
    | none => exact endSession_keeps deviceId none responseTx
    | some generation =>
      simp only [ControlDispatcher.handleCommand, ControlDispatcher.handleDisconnect, perform_bind,
        uses_call, housekeeping_iff,
    isHousekeeping, true_and]
      intro current
      cases current with
      | false => simp
      | true => exact endSession_keeps deviceId (some generation) responseTx
  | getSources | changeSource | changeBitrate => simp [ControlDispatcher.handleCommand]
  | sessionHeartbeat deviceId generation =>
    simp only [ControlDispatcher.handleCommand, perform_bind, uses_call, housekeeping_iff,
    isHousekeeping, true_and]
    intro current
    cases current <;> simp
  | probe deviceId responseTx =>
    cases deviceId with
    | none => simp [ControlDispatcher.handleCommand, ControlDispatcher.handleProbe]
    | some deviceId => exact ⟨rfl, fun _ => ⟨rfl, fun _ => ⟨rfl, fun _ => ⟨rfl, fun _ => trivial⟩⟩⟩⟩

section Connect

variable {connect : ConnectCommand} {calls : List ControlCall} {message requestId : String}
  {auth : DeviceAuthRequest} {identity : VerifiedDeviceIdentity} {admission : Admission}
  {pendingSession : PendingSession}

/-- The operation sends no command and removes no request. -/
@[simp] def isSteady : ControlOp → Bool
  | .send _ | .removePending _ => false
  | _ => true

def Steady (op : ControlOp) : Prop := isSteady op = true

@[simp] theorem steady_iff {op : ControlOp} : Steady op ↔ isSteady op = true := Iff.rfl

theorem refuse_steady : Uses Steady (ControlDispatcher.refuse connect message) := by
  simp [ControlDispatcher.refuse]

theorem reportPending_steady : Uses Steady (self.reportPending connect requestId) := by
  simp [ControlDispatcher.reportPending]

theorem issueChallenge_steady : Uses Steady (self.issueChallenge connect auth) := by
  refine ⟨rfl, fun trusted => ⟨rfl, fun challenge => ?_⟩⟩
  cases challenge with
  | error error => exact refuse_steady
  | ok challenge => exact ⟨rfl, fun _ => ⟨rfl, fun _ => trivial⟩⟩

theorem requestPairing_steady : Uses Steady (self.requestPairing connect identity) := by
  refine ⟨rfl, fun trustedKey => ⟨rfl, fun created => ?_⟩⟩
  cases created with
  | error error => exact refuse_steady
  | ok requestId => exact ⟨rfl, fun _ => ⟨rfl, fun _ => reportPending_steady⟩⟩

theorem admitVerified_steady : Uses Steady (self.admitVerified connect auth identity) := by
  rw [ControlDispatcher.admitVerified, perform_bind, uses_call]
  refine ⟨rfl, fun alreadyTrusted => ?_⟩
  split
  · trivial
  · split
    · exact requestPairing_steady
    · exact refuse_steady
    · exact refuse_steady

theorem admitProved_steady : Uses Steady (self.admitProved connect) := by
  unfold ControlDispatcher.admitProved
  split
  · exact refuse_steady
  · split
    · exact issueChallenge_steady
    · refine ⟨rfl, fun verified => ?_⟩
      cases verified with
      | error error => exact refuse_steady
      | ok identity => exact admitVerified_steady

theorem commitSession_steady : Uses Steady (self.commitSession admission pendingSession) := by
  rw [ControlDispatcher.commitSession, perform_bind, uses_call]
  refine ⟨rfl, fun committed => ?_⟩
  cases committed <;> simp

theorem establish_steady : Uses Steady (self.establish connect admission pendingSession) := by
  unfold ControlDispatcher.establish
  split
  · exact commitSession_steady
  · rw [perform_bind, uses_call]
    refine ⟨rfl, fun trusted => ?_⟩
    cases trusted with
    | ok _ => exact commitSession_steady
    | error error =>
      refine Uses.bind ?_ fun _ => trivial
      simp only [unregisterDevice, perform_bind, uses_call]
      refine ⟨rfl, fun removed => ?_⟩
      cases removed <;> simp

theorem startSession_steady : Uses Steady (self.startSession connect admission pendingSession) := by
  refine Uses.bind ?_ fun registered => ?_
  · simp only [registerDevice, perform_bind, uses_call]
    refine ⟨rfl, fun subscribed => ?_⟩
    cases subscribed with
    | error error => trivial
    | ok _ =>
      refine ⟨rfl, fun outcome => ?_⟩
      cases outcome <;> simp
  · cases registered with
    | error error => trivial
    | ok _ => exact establish_steady

/-- No command is sent, and a request is removed only once it was found. -/
def RemovalContract (connect : ConnectCommand) (calls : List ControlCall) (op : ControlOp) : Prop :=
  (∀ command, op ≠ .send command) ∧ ∀ requestId, op = .removePending requestId →
    ∃ status, ⟨.pendingStatus requestId connect.deviceId, some status⟩ ∈ calls

theorem removalContract_of_steady {op : ControlOp} (h : Steady op) :
    RemovalContract connect calls op := by
  constructor <;> rintro _ rfl <;> cases h

theorem removes_of_steady {α : Type} {p : ControlM α} (h : Uses Steady p) :
    Obeys (RemovalContract connect) (fun calls' _ => ∃ more, calls' = calls ++ more) calls p :=
  (h.obeys (fun _ => False) (fun _ _ _ h => h) (fun _ _ h => h)
    fun _ _ h => removalContract_of_steady h).mono (fun _ _ h => h) fun _ _ h => h.2

theorem admitApproved_removes : Obeys (RemovalContract connect) (fun _ _ => True) []
    (self.admitApproved connect requestId) := by
  have hrefuse : ∀ {calls message}, Obeys (RemovalContract connect) (fun _ _ => True) calls
      (ControlDispatcher.refuse connect message) := fun {_ _} =>
    (removes_of_steady refuse_steady).mono (fun _ _ h => h) fun _ _ _ => trivial
  unfold ControlDispatcher.admitApproved
  split
  · exact hrefuse
  · refine ⟨removalContract_of_steady rfl, fun identity => ?_⟩
    cases identity with
    | none => exact hrefuse
    | some identity =>
      refine ⟨removalContract_of_steady rfl, fun status => ?_⟩
      cases status with
      | none => exact hrefuse
      | some status =>
        cases status with
        | pending =>
          exact (removes_of_steady reportPending_steady).mono (fun _ _ h => h) fun _ _ _ => trivial
        | approved => trivial
        | rejected =>
          refine ⟨⟨by simp, fun requestId heq => ?_⟩, fun _ =>
            ⟨removalContract_of_steady rfl, fun _ => hrefuse⟩⟩
          cases heq
          exact ⟨.rejected, by simp⟩

theorem admitDevice_removes : Obeys (RemovalContract connect) (fun _ _ => True) []
    (self.admitDevice connect) := by
  unfold ControlDispatcher.admitDevice
  split
  · trivial
  · split
    · exact admitApproved_removes
    · exact (removes_of_steady admitProved_steady).mono (fun _ _ h => h) fun _ _ _ => trivial

/-- Handling a Connect sends no command, and removes only a request it found. -/
theorem handleConnect_removes : Obeys (RemovalContract connect) (fun _ _ => True) []
    (self.handleConnect connect) := by
  refine ((ControlDispatcher.admitDevice_obeys.and admitDevice_removes).mono
    (fun _ _ h => h.2) fun _ _ h => h.1).bind fun calls admission hadmitted => ?_
  cases admission with
  | none => trivial
  | some admission =>
    dsimp only
    rw [ControlDispatcher.openSession, perform_bind, obeys_call]
    refine ⟨removalContract_of_steady rfl, fun prepared => ?_⟩
    cases prepared with
    | error error => exact ⟨removalContract_of_steady rfl, fun _ => trivial⟩
    | ok pendingSession =>
      refine (removes_of_steady startSession_steady).bind fun calls' result hmore => ?_
      obtain ⟨more, hcalls⟩ := hmore
      have hroute := hadmitted.2 admission rfl
      unfold ControlDispatcher.closeRequest
      cases hroute with
      | token | trusted => exact ⟨removalContract_of_steady rfl, fun _ => trivial⟩
      | approved _ _ _ _ hstatus =>
        refine ⟨⟨by simp, fun requestId heq => ?_⟩, fun _ => ⟨removalContract_of_steady rfl,
          fun _ => ⟨removalContract_of_steady rfl, fun _ => trivial⟩⟩⟩
        cases heq
        exact ⟨.approved, by simp [hcalls, hstatus]⟩

end Connect

end Programs

section Calls

variable {crypto : Crypto} {self : ControlDispatcher} {init : Stores}
  {turns : List (Turn World TaskId Job Change)} {pre post : List ControlEvent} {e : ControlEvent}
  {id : TaskId} {job : Job} {call : ControlCall}

theorem takes_of_called (he : e ∈ (service crypto self init).machine.events turns)
    (hcalled : e.output = .called id job call) : id.takes job := by
  obtain ⟨next, world, htask, -⟩ := called_of_mem he hcalled
  exact job_of_task (fun _ _ _ _ => takes_of_accept) he _ _ htask

/-- A call that is no housekeeping is one of a Connect, of who asks the user, or of a handler. -/
theorem caller_cases
    (hrun : (service crypto self init).machine.events turns = pre ++ e :: post)
    (hcalled : e.output = .called id job call) (hcall : isHousekeeping call.op = false) :
    (∃ connect, id = .dispatcher ∧ job = .handle (.connect connect)) ∨
      (∃ request, job = .approval request) ∨
      ∃ n addr authorization request, id = .http n ∧ job = .http n addr authorization request := by
  have hkept : ¬Uses Housekeeping (job.program self) := fun huses => by
    cases (allowed_of_called huses hrun hcalled).symm.trans hcall
  have htakes := takes_of_called (hrun ▸ List.mem_append_right _ List.mem_cons_self) hcalled
  cases job with
  | handle command =>
    cases id with
    | dispatcher =>
      by_cases hconnect : ∃ connect, command = .connect connect
      · obtain ⟨connect, rfl⟩ := hconnect
        exact .inl ⟨connect, rfl, rfl⟩
      · exact absurd (handleCommand_keeps fun connect heq => hconnect ⟨connect, heq⟩) hkept
    | _ => exact htakes.elim
  | approval request => exact .inr (.inl ⟨request, rfl⟩)
  | http n addr authorization request =>
    cases id with
    | http m =>
      obtain rfl : m = n := htakes
      exact .inr (.inr ⟨m, addr, authorization, request, rfl, rfl⟩)
    | _ => exact htakes.elim
  | appCommand command => exact absurd (handleAppCommand_keeps command) hkept
  | evictStale => exact absurd ⟨rfl, evictAll_keeps⟩ hkept
  | sessionFailed failure => exact absurd (followFailure_keeps failure) hkept
  | probed deviceId => exact absurd ⟨rfl, fun _ => trivial⟩ hkept

/-- What only the dispatcher does and is no housekeeping, it does for a Connect. -/
theorem connect_of_called
    (hrun : (service crypto self init).machine.events turns = pre ++ e :: post)
    (hcalled : e.output = .called id job call) (hcall : isHousekeeping call.op = false)
    (honly : dispatcherOnly call.op = true) : ∃ connect calls, id = .dispatcher ∧
      job = .handle (.connect connect) ∧
      work .dispatcher pre = some (.handle (.connect connect), calls) ∧
      ConnectContract self connect calls call.op := by
  obtain ⟨connect, rfl, rfl⟩ | ⟨request, rfl⟩ | ⟨n, addr, authorization, request, rfl, rfl⟩ :=
    caller_cases hrun hcalled hcall
  · obtain ⟨calls, hwork, hcontract⟩ :=
      contract_of_called ControlDispatcher.handleConnect_obeys hrun hcalled
    exact ⟨connect, calls, rfl, rfl, hwork, hcontract⟩
  · obtain ⟨calls, -, hother, -⟩ := contract_of_called (resolveApproval_obeys request) hrun hcalled
    cases hother.symm.trans honly
  · obtain ⟨calls, -, ⟨hother, -⟩, -⟩ := contract_of_called
      (ControlServer.handle_obeys self addr authorization request) hrun hcalled
    cases hother.symm.trans honly

/-- The answer of the user is written down by the task that asked for it. -/
theorem approval_of_called {requestId : String} {approved answer : Bool}
    (hrun : (service crypto self init).machine.events turns = pre ++ e :: post)
    (hcalled : e.output = .called id job ⟨.resolvePending requestId approved, answer⟩) :
    ∃ request calls, job = .approval request ∧ request.requestId = requestId ∧
      work id pre = some (.approval request, calls) ∧
      ⟨.awaitApproval request, approved⟩ ∈ calls := by
  obtain ⟨connect, rfl, rfl⟩ | ⟨request, rfl⟩ | ⟨n, addr, authorization, request, rfl, rfl⟩ :=
    caller_cases hrun hcalled rfl
  · obtain ⟨calls, -, hnever⟩ :=
      contract_of_called ControlDispatcher.handleConnect_obeys hrun hcalled
    exact hnever.elim
  · obtain ⟨calls, hwork, -, hanswer⟩ :=
      contract_of_called (resolveApproval_obeys request) hrun hcalled
    obtain ⟨hid, hmem⟩ := hanswer requestId approved rfl
    exact ⟨request, calls, rfl, hid.symm, hwork, hmem⟩
  · obtain ⟨calls, -, ⟨-, hnever⟩, -⟩ := contract_of_called
      (ControlServer.handle_obeys self addr authorization request) hrun hcalled
    exact absurd rfl (hnever requestId approved)

/-- A command was sent by a handler, under the session it was shown. -/
theorem handler_of_called {command : ControlCommand} {answer : Bool}
    (hrun : (service crypto self init).machine.events turns = pre ++ e :: post)
    (hcalled : e.output = .called id job ⟨.send command, answer⟩) : ∃ n calls, id = .http n ∧
      work id pre = some (job, calls) ∧ Passes n calls command := by
  obtain ⟨connect, rfl, rfl⟩ | ⟨request, rfl⟩ | ⟨n, addr, authorization, request, rfl, rfl⟩ :=
    caller_cases hrun hcalled rfl
  · obtain ⟨calls, -, hnever, -⟩ := contract_of_called handleConnect_removes hrun hcalled
    exact absurd rfl (hnever command)
  · have hsteady : Uses Steady (resolveApproval request) := by simp [resolveApproval]
    cases allowed_of_called hsteady hrun hcalled
  · obtain ⟨calls, hwork, -, hpasses⟩ := contract_of_called
      (ControlServer.handle_obeys self addr authorization request) hrun hcalled
    exact ⟨n, calls, rfl, hwork, hpasses command rfl⟩

end Calls

end Gemacast.Control
