import Gemacast.Core.Machine
import Gemacast.Core.Table
import Gemacast.Phone.AudioService

/-!
# Connecting and disconnecting on the screen

The calls of the connection screen change its store, issue commands to the native side and wait
for some of them. Between its waits a call is one step, and any other call may come in between.
The native side executes the commands in the order in which they are issued; a command that ends
the session does not say which one.
-/

namespace Gemacast.Phone

open Gemacast.Core
open Gemacast.Streamer (DeviceId)

/-- What the screen shows. -/
inductive Status
  | idle
  | listening
  | connecting
  | connected
  | playing
  | paused
  | reconnecting
  deriving DecidableEq, Repr

/-- A PC on the screen. -/
structure DiscoveredStreamer where
  /-- The PC. -/
  deviceId : DeviceId
  /-- Its name. -/
  deviceName : String
  /-- Its address and port. -/
  addr : String
  /-- It is leaving. -/
  isOffline : Bool
  deriving DecidableEq, Repr

/-- The address without the port. -/
def DiscoveredStreamer.ip (streamer : DiscoveredStreamer) : String :=
  (streamer.addr.splitOn ":").headD ""

/-- The PC was entered by hand. -/
def DiscoveredStreamer.isManual (streamer : DiscoveredStreamer) : Bool :=
  streamer.deviceId.startsWith "manual-"

/-- What the calls read of the store. -/
structure AppStore where
  /-- What the screen shows. -/
  status : Status
  /-- The PC connected to. -/
  connectedStreamer : Option DiscoveredStreamer
  /-- The PC connected to last. -/
  lastConnectedStreamer : Option DiscoveredStreamer
  /-- How that was reached. -/
  lastConnectedMode : Option ConnectionMode
  /-- The PCs on the list. -/
  discoveredStreamers : List DiscoveredStreamer
  /-- The session is suspended: a PC that shows up is not connected to. -/
  isSuspended : Bool
  /-- How PCs are to be reached. -/
  mode : ConnectionMode
  /-- A PC that shows up again is connected to. -/
  autoReconnect : Bool

namespace AppStore

/-- Take in a presence: the PC to connect to, if the store asks for that. -/
def updateDiscoveredStreamer (store : AppStore) (streamer : DiscoveredStreamer) :
    AppStore × Option DiscoveredStreamer :=
  let isIt := fun s : DiscoveredStreamer => decide (s.deviceId = streamer.deviceId)
  let list := store.discoveredStreamers
  let found := list.findIdx? isIt
  if streamer.isOffline then
    let list := (found.map fun index => list.eraseIdx index).getD list
    if store.connectedStreamer.any isIt then
      ({ store with
        discoveredStreamers := list, connectedStreamer := none, status := .listening }, none)
    else ({ store with discoveredStreamers := list }, none)
  else
    let list := (found.map fun index => list.set index streamer).getD (list ++ [streamer])
    let connectedStreamer :=
      if store.connectedStreamer.any isIt then some streamer else store.connectedStreamer
    let target :=
      if store.autoReconnect = true ∧ store.status = .listening ∧
          store.lastConnectedStreamer.any isIt = true ∧
          store.lastConnectedMode = some store.mode ∧ store.isSuspended = false then
        some streamer
      else none
    ({ store with discoveredStreamers := list, connectedStreamer }, target)

/-- The screen shows a connection. -/
def Shows (store : AppStore) : Prop :=
  store.connectedStreamer.isSome = true ∧
    (store.status = .connected ∨ store.status = .playing ∨ store.status = .paused)

end AppStore

/-- A command to the native side. -/
inductive NativeCommand
  /-- Connect, and start a session. -/
  | connectToStreamer (ip : String) (mode : ConnectionMode)
  /-- Tell the PC, and end the session. -/
  | disconnectFromStreamer (ip : String)
  /-- End the session. -/
  | killPlayback
  /-- The screen has stopped streaming; the session stays. -/
  | notifyStreamingStopped
  /-- Look for the PC until it answers. -/
  | startLinkRecovery (ip : String)
  deriving DecidableEq, Repr

/-- What comes of a native command. -/
inductive Outcome
  /-- It succeeds. -/
  | ok
  /-- It fails before it touches the session; a terminal error is not retried. -/
  | refused (terminal : Bool)
  /-- It fails after the session was ended. -/
  | lost (terminal : Bool)
  deriving DecidableEq, Repr

/-- The command may end the session and starts none. -/
def NativeCommand.isTeardown : NativeCommand → Bool
  | .disconnectFromStreamer _ | .killPlayback => true
  | _ => false

/-- The command may start a session. -/
def NativeCommand.isConnect : NativeCommand → Bool
  | .connectToStreamer _ _ => true
  | _ => false

/-- The session of the native side after a command; it has the name of the call that started
it. -/
def NativeCommand.run (command : NativeCommand) (caller : ℕ) (outcome : Outcome)
    (session : Option ℕ) : Option ℕ :=
  match outcome with
  | .ok => if command.isConnect then some caller else if command.isTeardown then none else session
  | .refused _ => session
  | .lost _ => if command.isConnect || command.isTeardown then none else session

/-- The call of the audio service behind a command. -/
def NativeCommand.Calls {F : Type} : NativeCommand → AudioCall F → Prop
  | .connectToStreamer _ _, .connect _ _ _ => True
  | .disconnectFromStreamer _, .disconnect _ _ => True
  | .killPlayback, .kill => True
  | .notifyStreamingStopped, .notifyStreamingStopped => True
  | .startLinkRecovery _, .startLinkRecovery => True
  | _, _ => False

/-- Whether the audio service has a session after a call is told by the outcome of the command. -/
theorem NativeCommand.exists_outcome {F : Type} [Binary32 F] {command : NativeCommand}
    {call : AudioCall F} (h : command.Calls call) (s : AudioService F) (caller : ℕ)
    {session : Option ℕ} (hsession : session.isSome = s.session.isSome) :
    ∃ outcome, (command.run caller outcome session).isSome = (s.step call).1.session.isSome ∧
      (outcome = .ok ↔ (s.step call).2.result = .ok ()) := by
  cases command with
  | connectToStreamer ip mode =>
    cases call with
    | connect params response spawned =>
      change ∃ outcome, _ = (s.connectToStreamer params response spawned).1.session.isSome ∧
        (_ ↔ (s.connectToStreamer params response spawned).2.result = .ok ())
      unfold AudioService.connectToStreamer
      cases params.ip with
      | error error => exact ⟨.refused true, hsession, nofun, nofun⟩
      | ok ip =>
        cases response with
        | error error => exact ⟨.refused true, hsession, nofun, nofun⟩
        | ok response =>
          cases spawned with
          | error error => exact ⟨.lost true, rfl, nofun, nofun⟩
          | ok granted => exact ⟨.ok, rfl, fun _ => rfl, fun _ => rfl⟩
    | _ => exact h.elim
  | disconnectFromStreamer ip =>
    cases call with
    | disconnect ip deviceId => exact ⟨.ok, rfl, fun _ => rfl, fun _ => rfl⟩
    | _ => exact h.elim
  | killPlayback =>
    cases call with
    | kill => exact ⟨.ok, rfl, fun _ => rfl, fun _ => rfl⟩
    | _ => exact h.elim
  | notifyStreamingStopped =>
    cases call with
    | notifyStreamingStopped => exact ⟨.ok, hsession, fun _ => rfl, fun _ => rfl⟩
    | _ => exact h.elim
  | startLinkRecovery ip =>
    cases call with
    | startLinkRecovery => exact ⟨.ok, hsession, fun _ => rfl, fun _ => rfl⟩
    | _ => exact h.elim

/-- A command on its way. -/
structure IssuedCommand where
  /-- The call that issued it. -/
  caller : ℕ
  /-- What it asks for. -/
  command : NativeCommand
  /-- The connects that had come through when the call began; read by no code. -/
  meant : ℕ

/-- What a call waits for. -/
inductive Waiting
  /-- The native side connects; so many retries are left. -/
  | connect (streamer : DiscoveredStreamer) (mode : ConnectionMode) (retries : ℕ)
    (answer : Option Outcome)
  /-- The time until the next attempt. -/
  | retry (streamer : DiscoveredStreamer) (mode : ConnectionMode) (retries : ℕ)
  /-- The native side disconnects. -/
  | disconnect (retainedStreamer : Option DiscoveredStreamer) (forgetStreamer answered : Bool)
  /-- The grace period after that. -/
  | grace (retainedStreamer : Option DiscoveredStreamer) (forgetStreamer : Bool)
  /-- After a lost link, the native side takes in that streaming has stopped. -/
  | notify (streamer : Option DiscoveredStreamer) (answered : Bool)
  /-- Then it ends the session. -/
  | kill (streamer : Option DiscoveredStreamer) (answered : Bool)
  /-- Then it starts looking for the PC. -/
  | recovery (answered : Bool)

/-- A call that has not returned. -/
structure ConnectionCall where
  /-- What it waits for. -/
  waiting : Waiting
  /-- The connects that had come through when it began; read by no code. -/
  meant : ℕ

/-- The native side has executed a command, which may be the one the call waits for. -/
def Waiting.answer (command : NativeCommand) (outcome : Outcome) (waiting : Waiting) : Waiting :=
  match command, waiting with
  | .connectToStreamer _ _, .connect streamer mode retries none =>
    .connect streamer mode retries (some outcome)
  | .disconnectFromStreamer _, .disconnect retainedStreamer forgetStreamer _ =>
    .disconnect retainedStreamer forgetStreamer true
  | .notifyStreamingStopped, .notify streamer _ => .notify streamer true
  | .killPlayback, .kill streamer _ => .kill streamer true
  | .startLinkRecovery _, .recovery _ => .recovery true
  | _, waiting => waiting

/-- The store, the calls in progress, the commands on their way and the native side. -/
structure ConnectionScreen where
  /-- The store. -/
  store : AppStore
  /-- A disconnect is in progress. -/
  disconnecting : Bool
  /-- The calls in progress. -/
  calls : Table ℕ ConnectionCall
  /-- The name of the next call. -/
  nextCall : ℕ
  /-- The commands issued and not executed. -/
  queue : List IssuedCommand
  /-- The session of the native side. -/
  session : Option ℕ
  /-- The connects that have come through; read by no code. -/
  connects : ℕ

/-- One step of a call or of the native side. -/
inductive ConnectionInput
  /-- The user connects. -/
  | connect (streamer : DiscoveredStreamer)
  /-- The user disconnects. -/
  | disconnect (forgetStreamer : Bool)
  /-- The PC has ended the session. -/
  | forceDisconnect (forgetStreamer : Bool)
  /-- The link is lost. -/
  | linkLost
  /-- The PC answers again. -/
  | linkRecovered
  /-- The PC is no longer heard. -/
  | streamerTimedOut (deviceId : DeviceId)
  /-- A presence of a PC is heard. -/
  | streamerDiscovered (streamer : DiscoveredStreamer)
  /-- A live session is found playing or not, is paused or goes on. -/
  | playback (status : Status)
  /-- What a call waits for is there. -/
  | resume (id : ℕ)
  /-- The native side executes a command. -/
  | execute (outcome : Outcome)

namespace ConnectionScreen

section Calls

variable (s : ConnectionScreen)

/-- Change the store. -/
def patch (change : AppStore → AppStore) : ConnectionScreen := { s with store := change s.store }

/-- Issue a command on behalf of a call. -/
def issue (caller meant : ℕ) (command : NativeCommand) : ConnectionScreen :=
  { s with queue := s.queue ++ [⟨caller, command, meant⟩] }

/-- The call goes on to wait. -/
def await (id meant : ℕ) (waiting : Waiting) : ConnectionScreen :=
  { s with calls := s.calls.insert id ⟨waiting, meant⟩ }

/-- The call returns. -/
def finish (id : ℕ) : ConnectionScreen := { s with calls := s.calls.erase id }

/-- Ask the native side to connect. -/
def attempt (id meant : ℕ) (streamer : DiscoveredStreamer) (mode : ConnectionMode) (retries : ℕ) :
    ConnectionScreen :=
  (s.issue id meant (.connectToStreamer streamer.ip mode)).await id meant
    (.connect streamer mode retries none)

/-- Connect to a PC. -/
def connect (id : ℕ) (streamer : DiscoveredStreamer) : ConnectionScreen :=
  let s := s.patch fun store => { store with status := .connecting, isSuspended := false }
  let mode := if streamer.isManual then .wifi else s.store.mode
  s.attempt id s.connects streamer mode (if mode = .adb then 4 else 0)

/-- The native side has connected. -/
def connectSucceeded (id : ℕ) (streamer : DiscoveredStreamer) (mode : ConnectionMode) :
    ConnectionScreen :=
  { s.patch fun store =>
      { store with
        connectedStreamer := some streamer
        lastConnectedStreamer := some streamer
        lastConnectedMode := some mode
        status := .connected } with
    connects := s.connects + 1 }.finish id

/-- The connection has failed for good. -/
def connectFailed (id : ℕ) (terminal : Bool) : ConnectionScreen :=
  (s.patch fun store =>
    { store with
      status := .listening
      lastConnectedStreamer := if terminal then none else store.lastConnectedStreamer }).finish id

/-- An attempt has failed: try again, if it makes sense and a retry is left. -/
def attemptFailed (id meant : ℕ) (streamer : DiscoveredStreamer) (mode : ConnectionMode)
    (retries : ℕ) (terminal : Bool) : ConnectionScreen :=
  match terminal, retries with
  | false, retries + 1 => s.await id meant (.retry streamer mode retries)
  | _, _ => s.connectFailed id terminal

/-- Nothing is connected any more, as far as the screen is concerned. -/
def showDisconnected (retainedStreamer : Option DiscoveredStreamer) (forgetStreamer : Bool) :
    ConnectionScreen :=
  s.patch fun store =>
    { store with
      connectedStreamer := none
      lastConnectedStreamer := if forgetStreamer then none else retainedStreamer
      status := .listening
      isSuspended := !forgetStreamer }

/-- Disconnect. -/
def disconnect (id : ℕ) (forgetStreamer : Bool) : ConnectionScreen :=
  if s.store.status = .listening ∨ s.store.status = .idle ∨ s.disconnecting = true then s
  else
    let retainedStreamer := s.store.connectedStreamer <|> s.store.lastConnectedStreamer
    match s.store.connectedStreamer with
    | none =>
      (s.showDisconnected retainedStreamer forgetStreamer).issue id s.connects
        .notifyStreamingStopped
    | some streamer =>
      let s := s.patch fun store =>
        { store with
          status := .listening
          lastConnectedStreamer := if forgetStreamer then none else retainedStreamer
          isSuspended := !forgetStreamer }
      ({ s with disconnecting := true }.issue id s.connects
        (.disconnectFromStreamer streamer.ip)).await id s.connects
          (.disconnect retainedStreamer forgetStreamer false)

/-- The grace period is over. -/
def endGrace (id meant : ℕ) (retainedStreamer : Option DiscoveredStreamer)
    (forgetStreamer : Bool) : ConnectionScreen :=
  { (s.issue id meant .killPlayback).showDisconnected retainedStreamer forgetStreamer with
    disconnecting := false }.finish id

/-- The PC is no longer heard. -/
def streamerTimedOut (id : ℕ) (deviceId : DeviceId) : ConnectionScreen :=
  let timedOut :=
    s.store.connectedStreamer.any fun streamer => decide (streamer.deviceId = deviceId)
  let s := s.patch fun store =>
    { store with
      discoveredStreamers :=
        store.discoveredStreamers.filter fun streamer => decide (streamer.deviceId ≠ deviceId) }
  if timedOut then
    (s.patch fun store => { store with status := .listening, connectedStreamer := none }).issue id
      s.connects .killPlayback
  else s

/-- There is no connection to lose. -/
def HasNone : Prop :=
  s.store.status = .listening ∨ s.store.status = .idle ∨ s.store.status = .connecting

instance : Decidable s.HasNone := inferInstanceAs (Decidable (_ ∨ _ ∨ _))

/-- The PC has ended the session. -/
def forceDisconnect (id : ℕ) (forgetStreamer : Bool) : ConnectionScreen :=
  if s.HasNone then s
  else
    ((s.showDisconnected s.store.lastConnectedStreamer forgetStreamer).issue id s.connects
      .notifyStreamingStopped).issue id s.connects .killPlayback

/-- The link is lost. -/
def linkLost (id : ℕ) : ConnectionScreen :=
  if s.HasNone then s
  else
    let streamer := s.store.connectedStreamer <|> s.store.lastConnectedStreamer
    ((s.showDisconnected streamer false).issue id s.connects .notifyStreamingStopped).await id
      s.connects (.notify streamer false)

/-- The PC answers again. -/
def linkRecovered (id : ℕ) : ConnectionScreen :=
  if s.store.status = .connected ∨ s.store.status = .connecting then s
  else
    match s.store.lastConnectedStreamer with
    | none => s
    | some streamer => s.connect id streamer

/-- A presence of a PC is heard. -/
def streamerDiscovered (id : ℕ) (streamer : DiscoveredStreamer) : ConnectionScreen :=
  let (store, autoReconnectTarget) := s.store.updateDiscoveredStreamer streamer
  match autoReconnectTarget with
  | none => { s with store }
  | some target => { s with store }.connect id target

/-- A live session is found playing or not, is paused or goes on. -/
def playback (status : Status) : ConnectionScreen :=
  let live := fun status : Status =>
    decide (status = .connected ∨ status = .playing ∨ status = .paused)
  if live s.store.status && live status then s.patch fun store => { store with status } else s

/-- A call goes on, if what it waits for is there. -/
def resume (id : ℕ) : ConnectionScreen :=
  match s.calls.lookup id with
  | none => s
  | some ⟨waiting, meant⟩ =>
    match waiting with
    | .connect streamer mode _ (some .ok) => s.connectSucceeded id streamer mode
    | .connect streamer mode retries (some (.refused terminal)) =>
      s.attemptFailed id meant streamer mode retries terminal
    | .connect streamer mode retries (some (.lost terminal)) =>
      s.attemptFailed id meant streamer mode retries terminal
    | .retry streamer mode retries => s.attempt id meant streamer mode retries
    | .disconnect retainedStreamer forgetStreamer true =>
      s.await id meant (.grace retainedStreamer forgetStreamer)
    | .grace retainedStreamer forgetStreamer => s.endGrace id meant retainedStreamer forgetStreamer
    | .notify streamer true =>
      (s.issue id meant .killPlayback).await id meant (.kill streamer false)
    | .kill (some streamer) true =>
      (s.issue id meant (.startLinkRecovery streamer.ip)).await id meant (.recovery false)
    | .kill none true => s.finish id
    | .recovery true => s.finish id
    | _ => s

/-- The native side executes the next command, and the call that waits for it learns of it. -/
def execute (outcome : Outcome) : ConnectionScreen :=
  match s.queue with
  | [] => s
  | issued :: queue =>
    let session := issued.command.run issued.caller outcome s.session
    match s.calls.lookup issued.caller with
    | none => { s with queue, session }
    | some ⟨waiting, meant⟩ =>
      { s with queue, session }.await issued.caller meant
        (waiting.answer issued.command outcome)

/-- Begin a call under the next name. -/
def begin (call : ConnectionScreen → ℕ → ConnectionScreen) : ConnectionScreen :=
  call { s with nextCall := s.nextCall + 1 } s.nextCall

/-- One step. -/
def step : ConnectionInput → ConnectionScreen
  | .connect streamer => s.begin fun s id => s.connect id streamer
  | .disconnect forgetStreamer => s.begin fun s id => s.disconnect id forgetStreamer
  | .forceDisconnect forgetStreamer => s.begin fun s id => s.forceDisconnect id forgetStreamer
  | .linkLost => s.begin fun s id => s.linkLost id
  | .linkRecovered => s.begin fun s id => s.linkRecovered id
  | .streamerTimedOut deviceId => s.begin fun s id => s.streamerTimedOut id deviceId
  | .streamerDiscovered streamer => s.begin fun s id => s.streamerDiscovered id streamer
  | .playback status => s.playback status
  | .resume id => s.resume id
  | .execute outcome => s.execute outcome

end Calls

/-- The screen before the first call, listening for PCs or not yet. -/
def new (store : AppStore) (listening : Bool) : ConnectionScreen where
  store :=
    { store with connectedStreamer := none, status := if listening then .listening else .idle }
  disconnecting := false
  calls := ∅
  nextCall := 0
  queue := []
  session := none
  connects := 0

/-- The screen as a machine. -/
def machine (store : AppStore) (listening : Bool) :
    Machine ConnectionScreen ConnectionInput Unit where
  init := new store listening
  step s input := (s.step input, ())

end ConnectionScreen

end Gemacast.Phone
