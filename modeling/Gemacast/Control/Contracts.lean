import Gemacast.Control.Service

/-!
# Contracts of the tasks

What holds whenever a task makes an operation, given the calls it made on its job so far:
which operations only the dispatcher makes, what the dispatcher has been told before it asks
for approval, trusts a key or makes a session valid, and under which session a handler
passes a command on.
-/

namespace Gemacast.Control

open Gemacast.Core Gemacast.Streamer Program

/-- Only the dispatcher makes the operation. -/
@[simp] def dispatcherOnly : ControlOp → Bool
  | .createPending _ | .removePending _ | .prepare _ | .commit _ | .begin .. | .verify ..
  | .holdPendingPairing .. | .removePendingPairing _ | .trust .. | .register ..
  | .requestApproval _ => true
  | .audio (.subscribe ..) | .audio (.changeSource ..) | .audio (.changeBitrate ..) => true
  | _ => false

/-- The other tasks leave the operation to the dispatcher or to those who ask for approval. -/
def Shared (op : ControlOp) : Prop :=
  dispatcherOnly op = false ∧ ∀ requestId approved, op ≠ .resolvePending requestId approved

@[simp] theorem shared_iff {op : ControlOp} : Shared op ↔
    dispatcherOnly op = false ∧ ∀ requestId approved, op ≠ .resolvePending requestId approved :=
  Iff.rfl

section Handlers

theorem disconnectAll_uses (devices : List (DeviceId × DiscoveredDevice)) :
    Uses Shared (disconnectAll devices) := by
  induction devices with
  | nil => trivial
  | cons device rest ih => simp [disconnectAll, dispatcherOnly, ih]

theorem loseAll_uses (devices : List (DeviceId × DiscoveredDevice)) :
    Uses Shared (loseAll devices) := by
  induction devices with
  | nil => trivial
  | cons device rest ih => simp [loseAll, dispatcherOnly, ih]

theorem evictAll_uses (devices : List (DeviceId × SocketAddr)) :
    Uses Shared (evictAll devices) := by
  induction devices with
  | nil => trivial
  | cons device rest ih => simp [evictAll, dispatcherOnly, ih]

theorem handleStopAllStreams_uses : Uses Shared handleStopAllStreams := by
  simp only [handleStopAllStreams, perform_bind, uses_call, shared_iff, dispatcherOnly]
  refine ⟨by simp, fun _ => ⟨by simp, fun _ => ⟨by simp, fun all => ⟨by simp, fun _ =>
    ⟨by simp, fun _ => ?_⟩⟩⟩⟩⟩
  exact (loseAll_uses all).bind fun _ => by simp [dispatcherOnly]

theorem handleAppCommand_uses (command : AppCommand) : Uses Shared (handleAppCommand command) := by
  cases command with
  | kickDevice deviceId =>
    simp only [handleAppCommand, handleKickDevice, perform_bind, uses_call]
    refine ⟨by simp [dispatcherOnly], fun _ => ⟨by simp [dispatcherOnly], fun _ =>
      ⟨by simp [dispatcherOnly], fun _ => ⟨by simp [dispatcherOnly], fun _ =>
      ⟨by simp [dispatcherOnly], fun _ => ⟨by simp [dispatcherOnly], fun forgotten => ?_⟩⟩⟩⟩⟩⟩
    cases forgotten <;> simp [dropKicked, dispatcherOnly]
  | stopAllStreams => exact handleStopAllStreams_uses
  | startBroadcasting =>
    simp only [handleAppCommand, handleStartBroadcasting, perform_bind, uses_call]
    refine ⟨by simp [dispatcherOnly], fun opened => ?_⟩
    cases opened <;> simp [dispatcherOnly]
  | stopBroadcasting =>
    simp only [handleAppCommand, handleStopBroadcasting, perform_bind, uses_call]
    exact ⟨by simp [dispatcherOnly], fun _ => ⟨by simp [dispatcherOnly], fun _ =>
      ⟨by simp [dispatcherOnly], fun all => ⟨by simp [dispatcherOnly], fun _ =>
      ⟨by simp [dispatcherOnly], fun _ => disconnectAll_uses all⟩⟩⟩⟩⟩
  | exitApp =>
    exact handleStopAllStreams_uses.bind fun _ => by simp [dispatcherOnly]

theorem followFailure_uses (failure : StreamSessionFailure) :
    Uses Shared (followFailure failure) := by
  simp only [followFailure, perform_bind, uses_call]
  refine ⟨by simp [dispatcherOnly], fun current => ?_⟩
  cases current with
  | false => simp
  | true =>
    simp only [if_true, uses_call]
    refine ⟨by simp [dispatcherOnly], fun removed => ?_⟩
    cases removed <;> simp [dispatcherOnly]

/-- What a handler has shown of the session it acts under. -/
def Shown (deviceId : DeviceId) (session : Option AuthorizedSession) (calls : List ControlCall) :
    Prop :=
  (session ≠ none → ∃ token, ⟨.authenticate deviceId token, session⟩ ∈ calls) ∧
    ∀ deviceId' token session', ⟨.authenticate deviceId' token, session'⟩ ∈ calls →
      session' = session

/-- What a handler passes on names itself, and the session it acts under. -/
def Passes (n : ℕ) (calls : List ControlCall) : ControlCommand → Prop
  | .connect connect => connect.responseTx = n ∧ ∃ session, Shown connect.deviceId session calls ∧
      connect.authorized = session.isSome
  | .disconnect deviceId _ generation responseTx => responseTx = n ∧ ∃ session,
      Shown deviceId (some session) calls ∧ generation = some session.generation
  | .changeSource deviceId _ responseTx => responseTx = n ∧ ∃ session,
      Shown deviceId (some session) calls
  | .changeBitrate deviceId _ responseTx => responseTx = n ∧ ∃ session,
      Shown deviceId (some session) calls
  | .sessionHeartbeat deviceId generation => ∃ session,
      Shown deviceId (some session) calls ∧ generation = session.generation
  | _ => True

/-- A handler passes a command on only so, and makes shared operations otherwise. -/
def HandlerContract (n : ℕ) (calls : List ControlCall) (op : ControlOp) : Prop :=
  Shared op ∧ ∀ command, op = .send command → Passes n calls command

variable {n : ℕ} {calls : List ControlCall}

theorem handlerContract_of_shared {op : ControlOp} (h : Shared op)
    (hsend : ∀ command, op ≠ .send command) : HandlerContract n calls op :=
  ⟨h, fun command heq => absurd heq (hsend command)⟩

/-- A call that is no authentication changes nothing of what a handler has shown. -/
theorem Shown.concat {deviceId : DeviceId} {session : Option AuthorizedSession}
    (h : Shown deviceId session calls) {c : ControlCall}
    (hcall : ∀ deviceId' token, c.op ≠ .authenticate deviceId' token) :
    Shown deviceId session (calls ++ [c]) := by
  refine ⟨fun hsome => ?_, fun deviceId' token session' hmem => ?_⟩
  · obtain ⟨token, hmem⟩ := h.1 hsome
    exact ⟨token, List.mem_append_left _ hmem⟩
  · rcases List.mem_append.mp hmem with hold | hnew
    · exact h.2 deviceId' token session' hold
    · exact absurd (congrArg Called.op (List.mem_singleton.mp hnew)).symm (hcall deviceId' token)

theorem authenticateDevice_obeys {authorization : Option String} {deviceId : DeviceId}
    (hnone : ∀ deviceId' token session, ⟨.authenticate deviceId' token, session⟩ ∉ calls) :
    Obeys (HandlerContract n) (fun calls session => Shown deviceId session calls) calls
      (authenticateDevice authorization deviceId) := by
  unfold authenticateDevice
  split
  · exact ⟨fun h => absurd rfl h, fun deviceId' token session hmem =>
      absurd hmem (hnone deviceId' token session)⟩
  · rename_i token _
    refine ⟨handlerContract_of_shared (by simp [dispatcherOnly]) (by simp), fun session => ?_⟩
    refine ⟨fun _ => ⟨token, by simp⟩, fun deviceId' token session' hmem => ?_⟩
    rcases List.mem_append.mp hmem with hold | hnew
    · exact absurd hold (hnone deviceId' token session')
    · cases List.mem_singleton.mp hnew
      rfl

theorem answer_obeys (response : HttpResponse) :
    Obeys (HandlerContract n) (fun _ _ => True) calls (ask (.answer response)) :=
  ⟨handlerContract_of_shared (by simp [dispatcherOnly]) (by simp), fun _ => trivial⟩

theorem awaitMutation_obeys :
    Obeys (HandlerContract n) (fun _ _ => True) calls (awaitMutation n) := by
  simp only [awaitMutation, perform_bind, obeys_call]
  refine ⟨handlerContract_of_shared (by simp [dispatcherOnly]) (by simp), fun awaited => ?_⟩
  split <;> exact answer_obeys _

namespace ControlServer

variable (self : ControlServer)

theorem answerConnect_obeys :
    Obeys (HandlerContract n) (fun _ _ => True) calls (self.answerConnect n) := by
  simp only [answerConnect, perform_bind, obeys_call]
  refine ⟨handlerContract_of_shared (by simp [dispatcherOnly]) (by simp), fun awaited => ?_⟩
  split <;> exact answer_obeys _

/-- A handler sends one command, under the session it has shown. -/
theorem send_obeys {command : ControlCommand} (hcommand : Passes n calls command) :
    HandlerContract n calls (.send command) :=
  ⟨by simp [dispatcherOnly], fun _ heq => by cases heq; exact hcommand⟩

theorem handleConnect_obeys (addr : SocketAddr) (authorization : Option String)
    (req : ConnectReq) : Obeys (HandlerContract n) (fun _ _ => True) []
      (self.handleConnect n addr authorization req) := by
  simp only [handleConnect, perform_bind, obeys_call]
  refine ⟨handlerContract_of_shared (by simp [dispatcherOnly]) (by simp), fun broadcasting => ?_⟩
  cases broadcasting with
  | false => exact answer_obeys _
  | true =>
    simp only [if_true]
    refine (authenticateDevice_obeys (by simp)).bind fun calls session hshown => ?_
    refine ⟨send_obeys ⟨rfl, session, hshown, rfl⟩, fun sent => ?_⟩
    cases sent with
    | false => exact answer_obeys _
    | true => exact self.answerConnect_obeys

theorem handleMutation_obeys {authorization : Option String} {deviceId : DeviceId}
    {command : AuthorizedSession → ControlCommand}
    (hcommand : ∀ calls session, Shown deviceId (some session) calls →
      Passes n calls (command session)) :
    Obeys (HandlerContract n) (fun _ _ => True) []
      (handleMutation n authorization deviceId command) := by
  refine (authenticateDevice_obeys (by simp)).bind fun calls session hshown => ?_
  cases session with
  | none => exact answer_obeys _
  | some session =>
    refine ⟨send_obeys (hcommand calls session hshown), fun sent => ?_⟩
    cases sent with
    | false => exact answer_obeys _
    | true => exact awaitMutation_obeys

theorem handleWs_obeys {deviceId : DeviceId} {session : AuthorizedSession}
    (hshown : Shown deviceId (some session) calls) (commands : List WsCommand) :
    Obeys (HandlerContract n) (fun _ _ => True) calls
      (handleWs n deviceId session.generation commands) := by
  induction commands generalizing calls with
  | nil => trivial
  | cons command commands ih =>
    cases command with
    | heartbeat =>
      refine ⟨send_obeys ⟨session, hshown, rfl⟩, fun sent => ?_⟩
      have hsent := hshown.concat (c := ⟨.send (.sessionHeartbeat deviceId session.generation),
        sent⟩) (by simp)
      cases sent with
      | false => exact ih hsent
      | true =>
        refine ⟨handlerContract_of_shared (by simp [dispatcherOnly]) (by simp), fun _ => ?_⟩
        exact ih (hsent.concat (by simp))
    | disconnect =>
      refine ⟨send_obeys ⟨rfl, session, hshown, rfl⟩, fun sent => ?_⟩
      exact ih (hshown.concat (by simp))

theorem handleGetSources_obeys (authorization : Option String) :
    Obeys (HandlerContract n) (fun _ _ => True) [] (handleGetSources n authorization) := by
  unfold handleGetSources
  split
  · exact answer_obeys _
  · refine ⟨handlerContract_of_shared (by simp [dispatcherOnly]) (by simp), fun session => ?_⟩
    cases session with
    | none => exact answer_obeys _
    | some session =>
      refine ⟨send_obeys trivial, fun _ =>
        ⟨handlerContract_of_shared (by simp [dispatcherOnly]) (by simp), fun awaited => ?_⟩⟩
      cases awaited with
      | answered response => cases response <;> exact answer_obeys _
      | dropped => exact answer_obeys _
      | timedOut => exact answer_obeys _

/-- Every handler keeps the contract. -/
theorem handle_obeys (addr : SocketAddr) (authorization : Option String) (request : HttpRequest) :
    Obeys (HandlerContract n) (fun _ _ => True) [] (self.handle n addr authorization request) := by
  cases request with
  | probe deviceId =>
    refine ⟨send_obeys trivial, fun _ =>
      ⟨handlerContract_of_shared (by simp [dispatcherOnly]) (by simp), fun awaited => ?_⟩⟩
    have hfallback (calls : List ControlCall) : Obeys (HandlerContract n) (fun _ _ => True) calls
        (do
          let broadcasting : Bool ← ask .isBroadcasting
          ask (.answer (.presence .ok
            { self.presence none none with isOffline := !broadcasting }))) :=
      ⟨handlerContract_of_shared (by simp [dispatcherOnly]) (by simp), fun _ => answer_obeys _⟩
    cases awaited with
    | answered response =>
      cases response with
      | presence presence => exact answer_obeys _
      | connect result => exact hfallback _
      | mutation result => exact hfallback _
      | sources sources => exact hfallback _
    | dropped => exact hfallback _
    | timedOut => exact hfallback _
  | connect req => exact self.handleConnect_obeys addr authorization req
  | disconnect deviceId =>
    exact handleMutation_obeys fun calls session hshown => ⟨rfl, session, hshown, rfl⟩
  | getSources => exact handleGetSources_obeys authorization
  | changeSource deviceId source =>
    exact handleMutation_obeys fun calls session hshown => ⟨rfl, session, hshown⟩
  | changeBitrate deviceId bitrate =>
    exact handleMutation_obeys fun calls session hshown => ⟨rfl, session, hshown⟩
  | wsUpgrade deviceId commands =>
    cases deviceId with
    | none => exact answer_obeys _
    | some deviceId =>
      refine (authenticateDevice_obeys (by simp)).bind fun calls session hshown => ?_
      cases session with
      | none => exact answer_obeys _
      | some session =>
        refine ⟨handlerContract_of_shared (by simp [dispatcherOnly]) (by simp), fun _ => ?_⟩
        exact handleWs_obeys (hshown.concat (by simp)) commands

end ControlServer

end Handlers

/-- Who asks for approval writes down the answer to the request it was asked about. -/
theorem resolveApproval_obeys (request : ConnectionApprovalRequest) :
    Obeys (fun calls op => dispatcherOnly op = false ∧ ∀ requestId approved,
      op = .resolvePending requestId approved → requestId = request.requestId ∧
        ⟨.awaitApproval request, approved⟩ ∈ calls) (fun _ _ => True) []
      (resolveApproval request) := by
  refine ⟨⟨rfl, by simp⟩, fun approved => ⟨⟨rfl, fun requestId approved' heq => ?_⟩,
    fun _ => trivial⟩⟩
  cases heq
  exact ⟨rfl, by simp⟩

end Gemacast.Control
