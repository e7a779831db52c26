import Gemacast.Core.Machine
import Gemacast.Core.Binary32
import Gemacast.Control.Handlers

/-!
# The control sockets

Every phone may hold a WebSocket open. Its task registers a bounded channel in the map of
connections and then, over and over, handles a message of the phone or writes an event from
the channel to it. Whoever has an event for a phone looks its channel up and waits until
there is room in it. The sessions themselves are those of the authorizer.
-/

namespace Gemacast.Control

open Gemacast.Core Gemacast.Streamer

/-- An event for a phone. -/
inductive WsEvent
  | heartbeatAcknowledged
  | disconnect
  | error (message : String)
  | volumeChanged (level : SoftFloat)
  deriving DecidableEq

/-- An event on its way to a socket. -/
structure Posted where
  /-- The event. -/
  event : WsEvent
  /-- How many sessions of the device had been committed when it was sent; read by no code. -/
  epoch : ℕ
  deriving DecidableEq

/-- What a socket hands to its task. -/
inductive ClientMessage
  | command (command : WsCommand)
  /-- A text that is no command, or a message that is no text. -/
  | other
  /-- The peer closes the socket, or it fails. -/
  | close
  deriving DecidableEq

/-- Where the task of a socket stands. -/
inductive SocketPhase
  /-- The request was authenticated; the task has not begun. -/
  | upgrading
  /-- It waits for a message of the phone or an event. -/
  | selecting
  /-- It writes an event to the phone. -/
  | writing (posted : Posted)
  /-- It waits until the dispatcher's channel has room for a command. -/
  | reporting (command : WsCommand)
  /-- A heartbeat is handed over; it is about to look up where to acknowledge it. -/
  | acknowledging
  /-- It waits until the channel of a socket has room for the acknowledgement. -/
  | answering (target : ℕ) (posted : Posted)
  /-- It has left the loop. -/
  | leaving
  /-- It waits for the socket to close; nothing reads its channel any more. -/
  | closing
  /-- It has returned; its channel is closed. -/
  | closed
  deriving DecidableEq

/-- The task handles a message of the phone. -/
def SocketPhase.handling : SocketPhase → Bool
  | .reporting _ | .acknowledging | .answering _ _ => true
  | _ => false

/-- The task has registered its channel and not yet looked whether to remove it. -/
def SocketPhase.served : SocketPhase → Bool
  | .upgrading | .closing | .closed => false
  | _ => true

/-- A control socket with its task and its channel. -/
structure ControlSocket where
  /-- The device. -/
  deviceId : DeviceId
  /-- The session the request was authenticated under. -/
  generation : SessionGeneration
  /-- How many sessions of the device had been committed by then; read by no code. -/
  epoch : ℕ
  /-- The events in its channel. -/
  queue : List Posted
  /-- Where its task stands. -/
  phase : SocketPhase
  deriving DecidableEq

/-- What the task hands to the dispatcher for a command of the phone. -/
def ControlSocket.report (socket : ControlSocket) (id : ℕ) : WsCommand → ControlCommand
  | .heartbeat => .sessionHeartbeat socket.deviceId socket.generation
  | .disconnect => .disconnect socket.deviceId ControlServer.dummyAddr (some socket.generation) id

/-- Who sends events to the phones, and waits while a channel has no room. -/
inductive EventSender
  | dispatcher
  /-- The volume watcher, or a command of the tray. -/
  | task (n : ℕ)
  deriving DecidableEq

/-- How many events a channel holds. -/
def eventCapacity : ℕ := 32

/-- The control sockets and what they share. -/
structure ControlSockets where
  /-- The sessions. -/
  authorizer : SessionAuthorizer
  /-- How many sessions of a device have been committed; read by no code. -/
  committed : Table DeviceId ℕ
  /-- The socket whose channel is registered for a device. -/
  connections : Table DeviceId ℕ
  /-- The sockets, numbered in the order in which their requests were authenticated. -/
  sockets : Table ℕ ControlSocket
  /-- How many requests have been authenticated. -/
  upgraded : ℕ
  /-- What a sender has still to send, and into which channels. -/
  senders : Table EventSender (List (ℕ × Posted))
  /-- The commands that wait for the dispatcher. -/
  commands : List ControlCommand

namespace ControlSockets

/-- One step of a task. -/
inductive Step
  /-- A Connect of the device commits its session. -/
  | connect (pending : PendingSession)
  /-- A session is revoked. -/
  | revoke (deviceId : DeviceId) (generation : Option SessionGeneration)
  /-- All sessions are revoked. -/
  | revokeAll
  /-- A request for a WebSocket shows a token. -/
  | upgrade (deviceId : DeviceId) (token : String)
  /-- The task of a socket begins and registers its channel. -/
  | register (id : ℕ)
  /-- The task takes a message of the phone up. -/
  | receive (id : ℕ) (message : ClientMessage)
  /-- The task hands a command to the dispatcher. -/
  | handOver (id : ℕ)
  /-- The task looks up where to acknowledge a heartbeat. -/
  | acknowledge (id : ℕ)
  /-- The task sends its acknowledgement. -/
  | answer (id : ℕ)
  /-- The task takes an event from its channel. -/
  | take (id : ℕ)
  /-- An event is written to the phone, or could not be. -/
  | written (id : ℕ) (ok : Bool)
  /-- The task removes its channel from the map, if it is there. -/
  | remove (id : ℕ)
  /-- The socket is closed, or half a second has passed. -/
  | finish (id : ℕ)
  /-- A task looks up the channel of a device for an event. -/
  | send (sender : EventSender) (deviceId : DeviceId) (event : WsEvent)
  /-- A task looks up all channels for an event. -/
  | broadcast (sender : EventSender) (order : List DeviceId) (event : WsEvent)
  /-- The engine reports an error to a device, unless its channel is full. -/
  | notifyError (deviceId : DeviceId) (message : String)
  /-- A sender puts its next event into the channel. -/
  | deliver (sender : EventSender)
  /-- Another task hands a command to the dispatcher. -/
  | submit (command : ControlCommand)
  /-- The dispatcher takes the next command. -/
  | dispatch
  deriving DecidableEq

/-- There are no sessions and no sockets yet. -/
def new : ControlSockets := ⟨.new, ∅, ∅, ∅, 0, ∅, []⟩

/-- How many sessions of a device have been committed. -/
def epoch (s : ControlSockets) (deviceId : DeviceId) : ℕ := (s.committed.lookup deviceId).getD 0

/-- What a sender has still to send. -/
def outstanding (s : ControlSockets) (sender : EventSender) : List (ℕ × Posted) :=
  (s.senders.lookup sender).getD []

/-- Note how a socket stands. -/
def put (s : ControlSockets) (id : ℕ) (socket : ControlSocket) : ControlSockets :=
  { s with sockets := s.sockets.insert id socket }

/-- Go on with a socket. -/
def proceed (s : ControlSockets) (id : ℕ) (next : ControlSocket → ControlSockets) :
    ControlSockets :=
  match s.sockets.lookup id with
  | some socket => next socket
  | none => s

/-- Put an event into a channel; nothing when there is no room. A closed channel takes the
event and drops it. -/
def offer (s : ControlSockets) (target : ℕ) (posted : Posted) : Option ControlSockets :=
  match s.sockets.lookup target with
  | none => some s
  | some socket =>
    if socket.phase = .closed then some s
    else if socket.queue.length < eventCapacity then
      some (s.put target { socket with queue := socket.queue ++ [posted] })
    else none

/-- Authenticate a request for a WebSocket. -/
def upgradeSocket (s : ControlSockets) (deviceId : DeviceId) (token : String) : ControlSockets :=
  match s.authorizer.authenticate deviceId token with
  | none => s
  | some session =>
    { s.put s.upgraded ⟨deviceId, session.generation, s.epoch deviceId, [], .upgrading⟩ with
      upgraded := s.upgraded + 1 }

/-- Begin: register the channel in the place of whatever is there. -/
def registerSocket (s : ControlSockets) (id : ℕ) (socket : ControlSocket) : ControlSockets :=
  match socket.phase with
  | .upgrading =>
    { s.put id { socket with phase := .selecting } with
      connections := s.connections.insert socket.deviceId id }
  | _ => s

/-- Take a message of the phone up. -/
def receiveMessage (s : ControlSockets) (id : ℕ) (message : ClientMessage)
    (socket : ControlSocket) : ControlSockets :=
  match socket.phase, message with
  | .selecting, .command command => s.put id { socket with phase := .reporting command }
  | .selecting, .close => s.put id { socket with phase := .leaving }
  | _, _ => s

/-- Hand a command to the dispatcher, if its channel has room. A disconnect is then done with;
a heartbeat is acknowledged. -/
def handOverCommand (s : ControlSockets) (id : ℕ) (socket : ControlSocket) : ControlSockets :=
  match socket.phase with
  | .reporting command =>
    if s.commands.length < controlCommandCapacity then
      let phase := match command with
        | .heartbeat => .acknowledging
        | .disconnect => .selecting
      { s.put id { socket with phase } with commands := s.commands ++ [socket.report id command] }
    else s
  | _ => s

/-- Look up the channel that is registered for the device now. -/
def acknowledgeHeartbeat (s : ControlSockets) (id : ℕ) (socket : ControlSocket) :
    ControlSockets :=
  match socket.phase with
  | .acknowledging =>
    match s.connections.lookup socket.deviceId with
    | none => s.put id { socket with phase := .selecting }
    | some target =>
      s.put id { socket with
        phase := .answering target ⟨.heartbeatAcknowledged, s.epoch socket.deviceId⟩ }
  | _ => s

/-- Put the acknowledgement into the channel, if it has room. -/
def answerHeartbeat (s : ControlSockets) (id : ℕ) (socket : ControlSocket) : ControlSockets :=
  match socket.phase with
  | .answering target posted =>
    match s.offer target posted with
    | none => s
    | some s => s.proceed id fun socket => s.put id { socket with phase := .selecting }
  | _ => s

/-- Take an event from the channel. -/
def takeEvent (s : ControlSockets) (id : ℕ) (socket : ControlSocket) : ControlSockets :=
  match socket.phase, socket.queue with
  | .selecting, posted :: queue => s.put id { socket with phase := .writing posted, queue }
  | _, _ => s

/-- Go on after an event was written; leave the loop if it could not be. -/
def eventWritten (s : ControlSockets) (id : ℕ) (ok : Bool) (socket : ControlSocket) :
    ControlSockets :=
  match socket.phase with
  | .writing _ => s.put id { socket with phase := if ok then .selecting else .leaving }
  | _ => s

/-- Remove the channel from the map, if it is the one registered. -/
def removeSocket (s : ControlSockets) (id : ℕ) (socket : ControlSocket) : ControlSockets :=
  match socket.phase with
  | .leaving =>
    { s.put id { socket with phase := .closing } with
      connections :=
        if s.connections.lookup socket.deviceId = some id then
          s.connections.erase socket.deviceId
        else s.connections }
  | _ => s

/-- Return: the channel closes. -/
def finishSocket (s : ControlSockets) (id : ℕ) (socket : ControlSocket) : ControlSockets :=
  match socket.phase with
  | .closing => s.put id { socket with phase := .closed, queue := [] }
  | _ => s

/-- Look up the channel of a device for an event. -/
def sendEvent (s : ControlSockets) (sender : EventSender) (deviceId : DeviceId)
    (event : WsEvent) : ControlSockets :=
  match s.connections.lookup deviceId with
  | none => s
  | some id => { s with senders := s.senders.insert sender [(id, ⟨event, s.epoch deviceId⟩)] }

/-- The channels registered, each with an event for its device. -/
def targets (s : ControlSockets) (order : List DeviceId) (event : WsEvent) :
    List (ℕ × Posted) :=
  (s.connections.keysInOrder order).filterMap fun deviceId =>
    (s.connections.lookup deviceId).map fun id => (id, ⟨event, s.epoch deviceId⟩)

/-- Put an error into the channel of a device, unless it is full. -/
def reportError (s : ControlSockets) (deviceId : DeviceId) (message : String) :
    ControlSockets :=
  match s.connections.lookup deviceId with
  | none => s
  | some id => (s.offer id ⟨.error message, s.epoch deviceId⟩).getD s

/-- Put the next event of a sender into its channel, if it has room. -/
def deliverEvent (s : ControlSockets) (sender : EventSender) : ControlSockets :=
  match s.outstanding sender with
  | [] => s
  | (id, posted) :: rest =>
    match s.offer id posted with
    | none => s
    | some s => { s with senders := s.senders.insert sender rest }

/-- One step; a step that is not due changes nothing. -/
def step (s : ControlSockets) : Step → ControlSockets
  | .connect pending =>
    { s with
      authorizer := (s.authorizer.commit pending).1
      committed := s.committed.insert pending.deviceId (s.epoch pending.deviceId + 1) }
  | .revoke deviceId generation =>
    { s with authorizer := (s.authorizer.revoke deviceId generation).1 }
  | .revokeAll => { s with authorizer := s.authorizer.revokeAll }
  | .upgrade deviceId token => s.upgradeSocket deviceId token
  | .register id => s.proceed id (s.registerSocket id)
  | .receive id message => s.proceed id (s.receiveMessage id message)
  | .handOver id => s.proceed id (s.handOverCommand id)
  | .acknowledge id => s.proceed id (s.acknowledgeHeartbeat id)
  | .answer id => s.proceed id (s.answerHeartbeat id)
  | .take id => s.proceed id (s.takeEvent id)
  | .written id ok => s.proceed id (s.eventWritten id ok)
  | .remove id => s.proceed id (s.removeSocket id)
  | .finish id => s.proceed id (s.finishSocket id)
  | .send sender deviceId event =>
    if s.outstanding sender = [] then s.sendEvent sender deviceId event else s
  | .broadcast sender order event =>
    if s.outstanding sender = [] then
      { s with senders := s.senders.insert sender (s.targets order event) }
    else s
  | .notifyError deviceId message => s.reportError deviceId message
  | .deliver sender => s.deliverEvent sender
  | .submit command =>
    if s.commands.length < controlCommandCapacity then
      { s with commands := s.commands ++ [command] }
    else s
  | .dispatch =>
    if s.outstanding .dispatcher = [] then { s with commands := s.commands.tail } else s

/-- The sockets as a machine. -/
def machine : Machine ControlSockets Step Unit where
  init := new
  step s i := (s.step i, ())

variable {s s' : ControlSockets} {id target : ℕ} {socket : ControlSocket} {posted : Posted}

/-- A channel is open and has no room. -/
def Full (s : ControlSockets) (id : ℕ) : Prop :=
  ∃ socket, s.sockets.lookup id = some socket ∧ socket.phase ≠ .closed ∧
    eventCapacity ≤ socket.queue.length

@[simp] theorem put_connections : (s.put id socket).connections = s.connections := rfl

@[simp] theorem put_authorizer : (s.put id socket).authorizer = s.authorizer := rfl

@[simp] theorem put_committed : (s.put id socket).committed = s.committed := rfl

@[simp] theorem put_senders : (s.put id socket).senders = s.senders := rfl

@[simp] theorem put_upgraded : (s.put id socket).upgraded = s.upgraded := rfl

@[simp] theorem lookup_put (k : ℕ) : (s.put id socket).sockets.lookup k =
    if k = id then some socket else s.sockets.lookup k := Table.lookup_insert_eq

/-- A socket found is the one written down or was there before. -/
theorem lookup_put_cases {k : ℕ} {socket' : ControlSocket}
    (h : (s.put id socket).sockets.lookup k = some socket') :
    k = id ∧ socket' = socket ∨ s.sockets.lookup k = some socket' := by
  rw [lookup_put] at h
  split at h
  · next heq => exact .inl ⟨heq, (Option.some.inj h).symm⟩
  · exact .inr h

/-- What a sender has to send after something was noted for a sender. -/
theorem outstanding_insert (sender sender' : EventSender) (rest : List (ℕ × Posted)) :
    { s with senders := s.senders.insert sender' rest }.outstanding sender =
      if sender = sender' then rest else s.outstanding sender := by
  simp only [outstanding, Table.lookup_insert_eq]
  split <;> rfl

/-- A channel takes an event, or it is closed and drops it. -/
theorem offer_spec (h : s.offer target posted = some s') :
    (s' = s ∧ ∀ socket, s.sockets.lookup target = some socket → socket.phase = .closed) ∨
      ∃ socket, s.sockets.lookup target = some socket ∧ socket.phase ≠ .closed ∧
        socket.queue.length < eventCapacity ∧
        s' = s.put target { socket with queue := socket.queue ++ [posted] } := by
  unfold offer at h
  split at h
  · next hnone =>
    exact .inl ⟨(Option.some.inj h).symm, fun _ hsocket => nomatch hnone.symm.trans hsocket⟩
  next socket hsocket =>
  split at h
  · next hclosed =>
    refine .inl ⟨(Option.some.inj h).symm, fun socket' hsocket' => ?_⟩
    obtain rfl := Option.some.inj (hsocket.symm.trans hsocket')
    exact hclosed
  next hopen =>
  split at h
  · next hroom => exact .inr ⟨socket, hsocket, hopen, hroom, (Option.some.inj h).symm⟩
  · cases h

theorem offer_cases (h : s.offer target posted = some s') :
    s' = s ∨ ∃ socket, s.sockets.lookup target = some socket ∧ socket.phase ≠ .closed ∧
      socket.queue.length < eventCapacity ∧
      s' = s.put target { socket with queue := socket.queue ++ [posted] } :=
  (offer_spec h).imp_left And.left

@[simp] theorem offer_connections (h : s.offer target posted = some s') :
    s'.connections = s.connections := by
  obtain rfl | ⟨socket, -, -, -, rfl⟩ := offer_cases h
  · rfl
  · rfl

@[simp] theorem offer_senders (h : s.offer target posted = some s') : s'.senders = s.senders := by
  obtain rfl | ⟨socket, -, -, -, rfl⟩ := offer_cases h
  · rfl
  · rfl

/-- An event has to wait where the channel is full. -/
theorem offer_eq_none_iff : s.offer target posted = none ↔ s.Full target := by
  unfold offer Full
  cases hsocket : s.sockets.lookup target with
  | none => simp
  | some socket =>
    by_cases hclosed : socket.phase = .closed
    · simp [hclosed]
    · simp [hclosed]

/-- What holds of the state and after every step of the socket holds after going on. -/
theorem of_proceed {P : ControlSockets → Prop} {next : ControlSocket → ControlSockets} (h : P s)
    (hnext : ∀ socket, s.sockets.lookup id = some socket → P (next socket)) :
    P (s.proceed id next) := by
  unfold proceed
  split
  · next socket hsocket => exact hnext socket hsocket
  · exact h

theorem proceed_of_lookup {next : ControlSocket → ControlSockets}
    (hsocket : s.sockets.lookup id = some socket) : s.proceed id next = next socket := by
  unfold proceed
  rw [hsocket]

/-- An offer leaves every socket in its place, with its phase. -/
theorem lookup_offer (h : s.offer target posted = some s')
    (hsocket : s.sockets.lookup id = some socket) :
    ∃ queue, s'.sockets.lookup id = some { socket with queue } := by
  obtain rfl | ⟨other, hother, -, -, rfl⟩ := offer_cases h
  · exact ⟨socket.queue, hsocket⟩
  · rw [lookup_put]
    split
    · next heq =>
      subst heq
      obtain rfl := Option.some.inj (hsocket.symm.trans hother)
      exact ⟨_, rfl⟩
    · exact ⟨socket.queue, hsocket⟩

/-- What a step does that is due. -/
inductive Fires (s : ControlSockets) : Step → ControlSockets → Prop
  | connect (pending : PendingSession) : Fires s (.connect pending) { s with
      authorizer := (s.authorizer.commit pending).1
      committed := s.committed.insert pending.deviceId (s.epoch pending.deviceId + 1) }
  | revoke (deviceId : DeviceId) (generation : Option SessionGeneration) :
    Fires s (.revoke deviceId generation)
      { s with authorizer := (s.authorizer.revoke deviceId generation).1 }
  | revokeAll : Fires s .revokeAll { s with authorizer := s.authorizer.revokeAll }
  | upgrade {deviceId : DeviceId} {token : String} {session : AuthorizedSession}
    (hsession : s.authorizer.authenticate deviceId token = some session) :
    Fires s (.upgrade deviceId token)
      { s.put s.upgraded ⟨deviceId, session.generation, s.epoch deviceId, [], .upgrading⟩ with
        upgraded := s.upgraded + 1 }
  | register {id : ℕ} {socket : ControlSocket} (hsocket : s.sockets.lookup id = some socket)
    (hphase : socket.phase = .upgrading) : Fires s (.register id)
      { s.put id { socket with phase := .selecting } with
        connections := s.connections.insert socket.deviceId id }
  | receive {id : ℕ} {command : WsCommand} {socket : ControlSocket}
    (hsocket : s.sockets.lookup id = some socket) (hphase : socket.phase = .selecting) :
    Fires s (.receive id (.command command)) (s.put id { socket with phase := .reporting command })
  | hangUp {id : ℕ} {socket : ControlSocket} (hsocket : s.sockets.lookup id = some socket)
    (hphase : socket.phase = .selecting) :
    Fires s (.receive id .close) (s.put id { socket with phase := .leaving })
  | handOver {id : ℕ} {command : WsCommand} {socket : ControlSocket}
    (hsocket : s.sockets.lookup id = some socket) (hphase : socket.phase = .reporting command)
    (hroom : s.commands.length < controlCommandCapacity) {phase : SocketPhase}
    (hnext : phase = .acknowledging ∨ phase = .selecting) :
    Fires s (.handOver id) { s.put id { socket with phase } with
      commands := s.commands ++ [socket.report id command] }
  | giveUp {id : ℕ} {socket : ControlSocket} (hsocket : s.sockets.lookup id = some socket)
    (hphase : socket.phase = .acknowledging) :
    Fires s (.acknowledge id) (s.put id { socket with phase := .selecting })
  | acknowledge {id target : ℕ} {socket : ControlSocket}
    (hsocket : s.sockets.lookup id = some socket) (hphase : socket.phase = .acknowledging)
    (htarget : s.connections.lookup socket.deviceId = some target) :
    Fires s (.acknowledge id) (s.put id { socket with
      phase := .answering target ⟨.heartbeatAcknowledged, s.epoch socket.deviceId⟩ })
  | answer {id target : ℕ} {posted : Posted} {socket : ControlSocket} {queue : List Posted}
    {after : ControlSockets} (hsocket : s.sockets.lookup id = some socket)
    (hphase : socket.phase = .answering target posted)
    (hoffer : s.offer target posted = some after)
    (hafter : after.sockets.lookup id = some { socket with queue }) :
    Fires s (.answer id) (after.put id { socket with queue, phase := .selecting })
  | take {id : ℕ} {posted : Posted} {queue : List Posted} {socket : ControlSocket}
    (hsocket : s.sockets.lookup id = some socket) (hphase : socket.phase = .selecting)
    (hqueue : socket.queue = posted :: queue) :
    Fires s (.take id) (s.put id { socket with phase := .writing posted, queue })
  | written {id : ℕ} {ok : Bool} {posted : Posted} {socket : ControlSocket}
    (hsocket : s.sockets.lookup id = some socket) (hphase : socket.phase = .writing posted) :
    Fires s (.written id ok)
      (s.put id { socket with phase := if ok then .selecting else .leaving })
  | remove {id : ℕ} {socket : ControlSocket} (hsocket : s.sockets.lookup id = some socket)
    (hphase : socket.phase = .leaving) : Fires s (.remove id)
      { s.put id { socket with phase := .closing } with
        connections :=
          if s.connections.lookup socket.deviceId = some id then
            s.connections.erase socket.deviceId
          else s.connections }
  | finish {id : ℕ} {socket : ControlSocket} (hsocket : s.sockets.lookup id = some socket)
    (hphase : socket.phase = .closing) :
    Fires s (.finish id) (s.put id { socket with phase := .closed, queue := [] })
  | send {sender : EventSender} {deviceId : DeviceId} {event : WsEvent} {id : ℕ}
    (hidle : s.outstanding sender = []) (hid : s.connections.lookup deviceId = some id) :
      Fires s (.send sender deviceId event)
      { s with senders := s.senders.insert sender [(id, ⟨event, s.epoch deviceId⟩)] }
  | broadcast {sender : EventSender} (order : List DeviceId) (event : WsEvent)
    (hidle : s.outstanding sender = []) : Fires s (.broadcast sender order event)
      { s with senders := s.senders.insert sender (s.targets order event) }
  | notifyError {deviceId : DeviceId} {message : String} {id : ℕ} {after : ControlSockets}
    (hid : s.connections.lookup deviceId = some id)
    (hoffer : s.offer id ⟨.error message, s.epoch deviceId⟩ = some after) :
    Fires s (.notifyError deviceId message) after
  | deliver {sender : EventSender} {id : ℕ} {posted : Posted} {rest : List (ℕ × Posted)}
    {after : ControlSockets} (houtstanding : s.outstanding sender = (id, posted) :: rest)
    (hoffer : s.offer id posted = some after) :
    Fires s (.deliver sender) { after with senders := after.senders.insert sender rest }
  | submit (command : ControlCommand) (hroom : s.commands.length < controlCommandCapacity) :
    Fires s (.submit command) { s with commands := s.commands ++ [command] }
  | dispatch (hidle : s.outstanding .dispatcher = []) :
      Fires s .dispatch { s with commands := s.commands.tail }

/-- A step that is not due changes nothing. -/
theorem step_fires (s : ControlSockets) (i : Step) : s.step i = s ∨ s.Fires i (s.step i) := by
  -- a step of a socket's task is one of a socket there is
  have hproceed {id : ℕ} {next : ControlSocket → ControlSockets}
      (hnext : ∀ socket, s.sockets.lookup id = some socket →
        next socket = s ∨ s.Fires i (next socket)) :
      s.proceed id next = s ∨ s.Fires i (s.proceed id next) :=
    of_proceed (P := fun s' => s' = s ∨ s.Fires i s') (.inl rfl) hnext
  cases i with
  | connect pending => exact .inr (.connect pending)
  | revoke deviceId generation => exact .inr (.revoke deviceId generation)
  | revokeAll => exact .inr .revokeAll
  | upgrade deviceId token =>
    simp only [step, upgradeSocket]
    split
    · exact .inl rfl
    · next session hsession => exact .inr (.upgrade hsession)
  | register id =>
    refine hproceed fun socket hsocket => ?_
    unfold registerSocket
    split
    · next hphase => exact .inr (.register hsocket hphase)
    · exact .inl rfl
  | receive id message =>
    refine hproceed fun socket hsocket => ?_
    unfold receiveMessage
    split
    · next hphase => exact .inr (.receive hsocket hphase)
    · next hphase => exact .inr (.hangUp hsocket hphase)
    · exact .inl rfl
  | handOver id =>
    refine hproceed fun socket hsocket => ?_
    unfold handOverCommand
    split
    · next command hphase =>
      split
      · next hroom =>
        refine .inr (.handOver hsocket hphase hroom ?_)
        cases command
        · exact .inl rfl
        · exact .inr rfl
      · exact .inl rfl
    · exact .inl rfl
  | acknowledge id =>
    refine hproceed fun socket hsocket => ?_
    unfold acknowledgeHeartbeat
    split
    · next hphase =>
      split
      · exact .inr (.giveUp hsocket hphase)
      · next target htarget => exact .inr (.acknowledge hsocket hphase htarget)
    · exact .inl rfl
  | answer id =>
    refine hproceed fun socket hsocket => ?_
    unfold answerHeartbeat
    split
    · next target posted hphase =>
      split
      · exact .inl rfl
      · next after hoffer =>
        obtain ⟨queue, hafter⟩ := lookup_offer hoffer hsocket
        have hfires : s.Fires (.answer id)
            (after.put id { socket with queue, phase := .selecting }) :=
          .answer hsocket hphase hoffer hafter
        rw [proceed_of_lookup hafter]
        exact .inr hfires
    · exact .inl rfl
  | take id =>
    refine hproceed fun socket hsocket => ?_
    unfold takeEvent
    split
    · next hphase hqueue => exact .inr (.take hsocket hphase hqueue)
    · exact .inl rfl
  | written id ok =>
    refine hproceed fun socket hsocket => ?_
    unfold eventWritten
    split
    · next hphase => exact .inr (.written hsocket hphase)
    · exact .inl rfl
  | remove id =>
    refine hproceed fun socket hsocket => ?_
    unfold removeSocket
    split
    · next hphase => exact .inr (.remove hsocket hphase)
    · exact .inl rfl
  | finish id =>
    refine hproceed fun socket hsocket => ?_
    unfold finishSocket
    split
    · next hphase => exact .inr (.finish hsocket hphase)
    · exact .inl rfl
  | send sender deviceId event =>
    simp only [step, sendEvent]
    split
    · next hidle =>
      split
      · exact .inl rfl
      · next id hid => exact .inr (.send hidle hid)
    · exact .inl rfl
  | broadcast sender order event =>
    simp only [step]
    split
    · next hidle => exact .inr (.broadcast order event hidle)
    · exact .inl rfl
  | notifyError deviceId message =>
    simp only [step, reportError]
    split
    · exact .inl rfl
    next target htarget =>
    cases hoffer : s.offer target ⟨.error message, s.epoch deviceId⟩ with
    | none => exact .inl rfl
    | some after => exact .inr (.notifyError htarget hoffer)
  | deliver sender =>
    simp only [step, deliverEvent]
    split
    · exact .inl rfl
    next target posted rest houtstanding =>
    split
    · exact .inl rfl
    · next after hoffer => exact .inr (.deliver houtstanding hoffer)
  | submit command =>
    simp only [step]
    split
    · next hroom => exact .inr (.submit command hroom)
    · exact .inl rfl
  | dispatch =>
    simp only [step]
    split
    · next hidle => exact .inr (.dispatch hidle)
    · exact .inl rfl

/-- Sockets have numbers that have been given out. -/
def Numbered (s : ControlSockets) : Prop :=
  ∀ id socket, s.sockets.lookup id = some socket → id < s.upgraded

theorem numbered_new : new.Numbered := nofun

theorem Numbered.put (h : s.Numbered) (hsocket : s.sockets.lookup id = some socket)
    {socket' : ControlSocket} : (s.put id socket').Numbered := by
  intro k other hlookup
  obtain ⟨rfl, -⟩ | hbefore := lookup_put_cases hlookup
  · exact h k socket hsocket
  · exact h k other hbefore

theorem Numbered.offer (h : s.Numbered) (hoffer : s.offer target posted = some s') :
    s'.Numbered := by
  obtain rfl | ⟨socket, hsocket, -, -, rfl⟩ := offer_cases hoffer
  · exact h
  · exact h.put hsocket

/-- Every step gives out numbers one by one. -/
theorem Numbered.step (h : s.Numbered) (i : Step) : (s.step i).Numbered := by
  obtain hsame | hfires := s.step_fires i
  · rw [hsame]
    exact h
  generalize s.step i = s' at hfires
  cases hfires with
  | upgrade hsession =>
    intro k socket hlookup
    obtain ⟨rfl, -⟩ | hbefore := lookup_put_cases hlookup
    · exact Nat.lt_succ_self s.upgraded
    · exact Nat.lt_succ_of_lt (h k socket hbefore)
  | answer hsocket hphase hoffer hafter => exact (h.offer hoffer).put hafter
  | notifyError hid hoffer => exact h.offer hoffer
  | deliver houtstanding hoffer => exact (h.offer hoffer :)
  | connect pending => exact h
  | revoke deviceId generation => exact h
  | revokeAll => exact h
  | send hidle hid => exact h
  | broadcast order event hidle => exact h
  | submit command hroom => exact h
  | dispatch hidle => exact h
  | register hsocket hphase => exact h.put hsocket
  | receive hsocket hphase => exact h.put hsocket
  | hangUp hsocket hphase => exact h.put hsocket
  | handOver hsocket hphase hroom hnext => exact h.put hsocket
  | giveUp hsocket hphase => exact h.put hsocket
  | acknowledge hsocket hphase htarget => exact h.put hsocket
  | take hsocket hphase hqueue => exact h.put hsocket
  | written hsocket hphase => exact h.put hsocket
  | remove hsocket hphase => exact h.put hsocket
  | finish hsocket hphase => exact h.put hsocket

theorem numbered_of_run (steps : List Step) : (machine.run steps).Numbered :=
  (machine.invariant (p := fun _ _ => True) numbered_new (fun _ i h _ => h.step i)
    fun _ _ => trivial).2

end ControlSockets

end Gemacast.Control
