import Gemacast.Control.DeviceAuth
import Gemacast.Core.Machine
import Gemacast.Streamer.TcpChannels

/-!
# The audio sockets of devices on ADB

A device opens its audio socket with a handshake that names its session. The server then asks
the engine for the channel of the device, up to twenty times more while there is none, and
forwards what is published on it. When the channel is closed it asks again, and goes on in the
same session only. A socket that ends tells the engine so, unless a newer one of the device has
taken its place.
-/

namespace Gemacast.Control

open Gemacast.Core Gemacast.Streamer

/-- What a device says first on its audio socket. -/
structure AdbAudioHandshake where
  /-- The device. -/
  deviceId : DeviceId
  /-- The token of its session. -/
  sessionToken : String
  /-- The number of its session. -/
  generation : SessionGeneration
  deriving DecidableEq

/-- The handshake names the session of the device. -/
def authorizeAdbAudioHandshake (authorizer : SessionAuthorizer) (handshake : AdbAudioHandshake) :
    Bool :=
  (authorizer.authenticate handshake.deviceId handshake.sessionToken).any fun session =>
    session.generation = handshake.generation

/-- A packet of audio, by the session it was encoded in. -/
structure AudioPacket where
  /-- The device. -/
  deviceId : DeviceId
  /-- The number of its session. -/
  generation : Option SessionGeneration
  deriving DecidableEq

/-- Who is at the other end of a socket. -/
structure AdbPeer where
  /-- What it said first. -/
  handshake : AdbAudioHandshake
  /-- The number of the socket. -/
  socketId : UInt64
  deriving DecidableEq

/-- What the task of a socket is at. -/
inductive AdbSocket
  /-- Nothing has been said yet. -/
  | connected
  /-- The engine has been asked for the channel. -/
  | asking (peer : AdbPeer) (retries : ℕ)
  /-- There was none; it waits before it asks again. -/
  | pausing (peer : AdbPeer) (retries : ℕ)
  /-- The engine has answered with the channel. -/
  | granted (peer : AdbPeer) (lease : TcpBroadcastLease)
  /-- It forwards what is published on the channel. -/
  | streaming (peer : AdbPeer) (lease : TcpBroadcastLease) (queue : List AudioPacket)
  /-- The channel was closed, and the engine has been asked again. -/
  | renewing (peer : AdbPeer) (sessionGeneration : SessionGeneration)
  /-- The task has ended. -/
  | ended
  deriving DecidableEq

namespace AdbSocket

/-- Who is at the other end. -/
def peer : AdbSocket → Option AdbPeer
  | connected | ended => none
  | asking peer _ | pausing peer _ | granted peer _ | streaming peer _ _ | renewing peer _ =>
    some peer

/-- Who waits for a first channel. -/
def asker : AdbSocket → Option AdbPeer
  | asking peer _ => some peer
  | _ => none

/-- The channel it has been given. -/
def lease : AdbSocket → Option TcpBroadcastLease
  | granted _ lease | streaming _ lease _ => some lease
  | _ => none

/-- A packet is published on a channel. -/
def receive (channel : Channel) (packet : AudioPacket) : AdbSocket → AdbSocket
  | streaming peer lease queue =>
    streaming peer lease (if lease.broadcaster = channel then queue ++ [packet] else queue)
  | socket => socket

end AdbSocket

/-- The server, with the sessions and the engine it works for. -/
structure AdbServer where
  /-- The sessions. -/
  authorizer : SessionAuthorizer
  /-- The engine. -/
  engine : AudioStreamEngine
  /-- The channels opened so far. -/
  nextChannel : Channel
  /-- The sockets in the order in which they were accepted. -/
  sockets : List AdbSocket
  /-- The newest socket of every device. -/
  socketOwners : Table DeviceId UInt64
  /-- The number of the newest socket. -/
  nextSocketId : UInt64
  /-- What the engine has been told of closed sockets and has yet to take up. -/
  transportClosed : List (DeviceId × SessionGeneration)

namespace AdbServer

/-- One step of the server or of what it works for. -/
inductive Step
  /-- Credentials are made for a device. -/
  | prepare (random : Except String (List UInt8)) (deviceId : DeviceId)
  /-- Credentials become valid. -/
  | commit (pending : PendingSession)
  /-- A session ends. -/
  | revoke (deviceId : DeviceId) (generation : Option SessionGeneration)
  /-- The engine takes up a command or a failure from elsewhere. -/
  | engine (input : EngineInput)
  /-- A socket is accepted. -/
  | accept
  /-- A socket's handshake is read; none is one that is malformed or does not come in time. -/
  | handshake (k : ℕ) (handshake : Option AdbAudioHandshake)
  /-- The engine answers a socket that asked for its channel. -/
  | getTcpBroadcaster (k : ℕ)
  /-- A socket finds the engine gone when it asks for its channel. -/
  | engineGone (k : ℕ)
  /-- A socket asks once more. -/
  | retry (k : ℕ)
  /-- A socket subscribes to the channel it was given. -/
  | subscribe (k : ℕ)
  /-- The encoder of a device on a source publishes a packet. -/
  | publish (source : AudioSource) (deviceId : DeviceId)
  /-- A socket is written the first packets it has received. -/
  | forward (k n : ℕ)
  /-- A socket that lags loses the first packets it has received. -/
  | lag (k n : ℕ)
  /-- A socket finds its channel closed. -/
  | channelClosed (k : ℕ)
  /-- A socket cannot be written, is replaced, or is dropped with all the others. -/
  | finish (k : ℕ)
  /-- The engine takes up that a socket was closed. -/
  | transportClosed

/-- What a step comes to. -/
inductive Outcome
  | none
  | wrote (k : ℕ) (packets : List AudioPacket)
  | closed (k : ℕ) (deviceId : DeviceId) (generation : SessionGeneration)
  deriving DecidableEq

/-- Nobody is connected. -/
def new (supportsProcessCapture sessionFailureTx : Bool) : AdbServer where
  authorizer := .new
  engine := .new supportsProcessCapture sessionFailureTx
  nextChannel := 0
  sockets := []
  socketOwners := ∅
  nextSocketId := 0
  transportClosed := []

/-- The task of a socket goes on. -/
def setSocket (s : AdbServer) (k : ℕ) (socket : AdbSocket) : AdbServer :=
  { s with sockets := s.sockets.set k socket }

/-- The engine takes up its next input; a channel it opens is a new one. -/
def stepEngine (s : AdbServer) (input : EngineInput) : AdbServer :=
  { s with
    engine := (s.engine.step input).1
    nextChannel := s.nextChannel + 1 }

/-- An input with the channel the platform would open. -/
def withChannel (channel : Channel) : EngineInput → EngineInput
  | .command command platform => .command command { platform with channel }
  | input => input

/-- Read the handshake of a socket. -/
def readHandshake (s : AdbServer) (k : ℕ) : Option AdbAudioHandshake → AdbServer
  | none => s.setSocket k .ended
  | some handshake =>
    if authorizeAdbAudioHandshake s.authorizer handshake then
      let socketId := s.nextSocketId + 1
      { s.setSocket k (.asking ⟨handshake, socketId⟩ 0) with
        nextSocketId := socketId
        socketOwners := s.socketOwners.insert handshake.deviceId socketId }
    else s.setSocket k .ended

/-- A socket is closed; the engine is told unless a newer one has taken its place. -/
def close (s : AdbServer) (k : ℕ) (peer : AdbPeer) (sessionGeneration : SessionGeneration) :
    AdbServer × Outcome :=
  let deviceId := peer.handshake.deviceId
  if s.socketOwners.lookup deviceId = some peer.socketId then
    ({ s.setSocket k .ended with
        socketOwners := s.socketOwners.erase deviceId
        transportClosed := s.transportClosed ++ [(deviceId, sessionGeneration)] },
      .closed k deviceId sessionGeneration)
  else (s.setSocket k .ended, .none)

/-- How often a socket asks again. -/
def maxRetries : ℕ := 20

/-- The engine's answer to a socket that asked for its channel. -/
def answerLease (s : AdbServer) (k : ℕ) : AdbServer × Outcome :=
  match s.sockets[k]? with
  | some (.asking peer retries) =>
    match s.engine.getTcpBroadcaster peer.handshake.deviceId with
    | some lease => (s.setSocket k (.granted peer lease), .none)
    | none =>
      (s.setSocket k (if retries < maxRetries then .pausing peer retries else .ended), .none)
  | some (.renewing peer sessionGeneration) =>
    match (s.engine.getTcpBroadcaster peer.handshake.deviceId).filter fun lease =>
        lease.sessionGeneration = sessionGeneration with
    | some lease => (s.setSocket k (.granted peer lease), .none)
    | none => s.close k peer sessionGeneration
  | _ => (s, .none)

/-- The encoder of a device publishes a packet to all that are subscribed to its channel. -/
def publish (s : AdbServer) (source : AudioSource) (deviceId : DeviceId) : AdbServer :=
  match s.engine.pool.tcpBroadcaster source deviceId with
  | some channel =>
    let packet := ⟨deviceId, s.engine.sessionGenerations.lookup deviceId⟩
    { s with sockets := s.sockets.map (·.receive channel packet) }
  | none => s

/-- The engine has no sender of a channel any more. -/
def IsClosed (s : AdbServer) (deviceId : DeviceId) (channel : Channel) : Prop :=
  ∀ lease ∈ s.engine.getTcpBroadcaster deviceId, lease.broadcaster ≠ channel

instance (s : AdbServer) (deviceId : DeviceId) (channel : Channel) :
    Decidable (s.IsClosed deviceId channel) :=
  inferInstanceAs (Decidable (∀ lease ∈ s.engine.getTcpBroadcaster deviceId, _))

/-- One step. -/
def step (hexEncode : List UInt8 → String) (s : AdbServer) : Step → AdbServer × Outcome
  | .prepare random deviceId =>
    ({ s with authorizer := (s.authorizer.prepare hexEncode random deviceId).1 }, .none)
  | .commit pending => ({ s with authorizer := (s.authorizer.commit pending).1 }, .none)
  | .revoke deviceId generation =>
    ({ s with authorizer := (s.authorizer.revoke deviceId generation).1 }, .none)
  | .engine input => (s.stepEngine (withChannel s.nextChannel input), .none)
  | .accept => ({ s with sockets := s.sockets ++ [.connected] }, .none)
  | .handshake k handshake =>
    match s.sockets[k]? with
    | some .connected => (s.readHandshake k handshake, .none)
    | _ => (s, .none)
  | .getTcpBroadcaster k => s.answerLease k
  | .engineGone k =>
    match s.sockets[k]? with
    | some (.asking _ _) | some (.pausing _ _) => (s.setSocket k .ended, .none)
    | some (.renewing peer sessionGeneration) => s.close k peer sessionGeneration
    | _ => (s, .none)
  | .retry k =>
    match s.sockets[k]? with
    | some (.pausing peer retries) => (s.setSocket k (.asking peer (retries + 1)), .none)
    | _ => (s, .none)
  | .subscribe k =>
    match s.sockets[k]? with
    | some (.granted peer lease) => (s.setSocket k (.streaming peer lease []), .none)
    | _ => (s, .none)
  | .publish source deviceId => (s.publish source deviceId, .none)
  | .forward k n =>
    match s.sockets[k]? with
    | some (.streaming peer lease queue) =>
      (s.setSocket k (.streaming peer lease (queue.drop n)), .wrote k (queue.take n))
    | _ => (s, .none)
  | .lag k n =>
    match s.sockets[k]? with
    | some (.streaming peer lease queue) =>
      (s.setSocket k (.streaming peer lease (queue.drop n)), .none)
    | _ => (s, .none)
  | .channelClosed k =>
    match s.sockets[k]? with
    | some (.streaming peer lease []) =>
      if s.IsClosed peer.handshake.deviceId lease.broadcaster then
        (s.setSocket k (.renewing peer lease.sessionGeneration), .none)
      else (s, .none)
    | _ => (s, .none)
  | .finish k =>
    match s.sockets[k]? with
    | some (.streaming peer lease _) => s.close k peer lease.sessionGeneration
    | _ => (s, .none)
  | .transportClosed =>
    match s.transportClosed with
    | [] => (s, .none)
    | (deviceId, generation) :: rest =>
      let platform := ⟨.ok (), true, s.nextChannel⟩
      ({ s.stepEngine (.command (.transportClosed deviceId generation) platform) with
        transportClosed := rest }, .none)

/-- The server as a machine. -/
def machine (hexEncode : List UInt8 → String) (supportsProcessCapture sessionFailureTx : Bool) :
    Machine AdbServer Step Outcome where
  init := new supportsProcessCapture sessionFailureTx
  step := step hexEncode

/-! ### What is to hold -/

/-- What was said first on a socket. -/
def handshakeOf (s : AdbServer) (k : ℕ) : Option AdbAudioHandshake :=
  (s.sockets[k]?.bind AdbSocket.peer).map (·.handshake)

/-- What is written to a socket is of the session its handshake named, and what the engine is
told when it is closed names that session. -/
def Bound (e : Event AdbServer Step Outcome) : Prop :=
  match e.output with
  | .none => True
  | .wrote k packets => ∃ handshake ∈ e.before.handshakeOf k,
      ∀ p ∈ packets, p = ⟨handshake.deviceId, some handshake.generation⟩
  | .closed k deviceId generation => ∃ handshake ∈ e.before.handshakeOf k,
      deviceId = handshake.deviceId ∧ generation = handshake.generation

instance : DecidablePred Bound
  | ⟨_, _, .none, _⟩ => isTrue trivial
  | ⟨before, _, .wrote k _, _⟩ =>
    inferInstanceAs (Decidable (∃ handshake ∈ before.handshakeOf k, ∀ p ∈ _, p = _))
  | ⟨before, _, .closed k _ _, _⟩ =>
    inferInstanceAs (Decidable (∃ handshake ∈ before.handshakeOf k, _ ∧ _))

/-- What the engine is told of a socket by a step. -/
def toldOf (k : ℕ) (e : Event AdbServer Step Outcome) : Option (DeviceId × SessionGeneration) :=
  match e.output with
  | .closed k' deviceId generation => if k' = k then some (deviceId, generation) else none
  | _ => none

/-! ### Which steps are orderly -/

/-- A step is orderly: the first channel a socket is given is that of the session its handshake
named, and no new session takes over a channel that a socket of an older one has been given. -/
def Orderly (s : AdbServer) : Step → Prop
  | .getTcpBroadcaster k => ∀ peer ∈ s.sockets[k]?.bind AdbSocket.asker,
      ∀ lease ∈ s.engine.getTcpBroadcaster peer.handshake.deviceId,
        lease.sessionGeneration = peer.handshake.generation
  | .engine input => ∀ session ∈ input.subscription,
      ∀ lease ∈ s.engine.getTcpBroadcaster session.1, ∀ socket ∈ s.sockets,
        ∀ held ∈ socket.lease, held.broadcaster = lease.broadcaster →
          held.sessionGeneration = session.2
  | _ => True

instance (s : AdbServer) : DecidablePred s.Orderly
  | .getTcpBroadcaster _ => inferInstanceAs (Decidable (∀ peer ∈ s.sockets[_]?.bind _, _))
  | .engine input => inferInstanceAs (Decidable (∀ session ∈ input.subscription, _))
  | .prepare _ _ | .commit _ | .revoke _ _ | .accept | .handshake _ _ | .engineGone _ | .retry _
  | .subscribe _ | .publish _ _ | .forward _ _ | .lag _ _ | .channelClosed _ | .finish _
  | .transportClosed => isTrue trivial

/-! ### What holds over orderly runs -/

variable {s : AdbServer} {e e' : AudioStreamEngine} {next next' : Channel} {peer : AdbPeer}
  {lease : TcpBroadcastLease} {input : EngineInput} {k : ℕ} {socket : AdbSocket}
  {hexEncode : List UInt8 → String}

/-- The channel is fed in the session of the peer only, and not a new one. -/
structure Binds (e : AudioStreamEngine) (next : Channel) (peer : AdbPeer)
    (lease : TcpBroadcastLease) : Prop where
  /-- It was lent in that session. -/
  generation : lease.sessionGeneration = peer.handshake.generation
  /-- It was opened before. -/
  opened : lease.broadcaster < next
  /-- Who has it now has it in that session. -/
  fed : ∀ source d, e.pool.tcpBroadcaster source d = some lease.broadcaster →
    d = peer.handshake.deviceId ∧
      e.sessionGenerations.lookup d = some peer.handshake.generation

/-- What a socket has belongs to the session of its peer. -/
def Holds (e : AudioStreamEngine) (next : Channel) : AdbSocket → Prop
  | .granted peer lease => Binds e next peer lease
  | .streaming peer lease queue => Binds e next peer lease ∧
      ∀ p ∈ queue, p = ⟨peer.handshake.deviceId, some peer.handshake.generation⟩
  | .renewing peer sessionGeneration => sessionGeneration = peer.handshake.generation
  | _ => True

/-- What holds in every state of an orderly run. -/
structure Sound (s : AdbServer) : Prop where
  /-- Channels and sessions go together. -/
  serves : s.engine.Serves
  /-- Channels in use have been opened. -/
  opened : ∀ source d c, s.engine.pool.tcpBroadcaster source d = some c → c < s.nextChannel
  /-- A channel in use is that of one device. -/
  owned : ∀ source d source' d' c, s.engine.pool.tcpBroadcaster source d = some c →
    s.engine.pool.tcpBroadcaster source' d' = some c → d = d'
  /-- What the sockets have. -/
  holds : ∀ socket ∈ s.sockets, Holds s.engine s.nextChannel socket

theorem sound_new (supportsProcessCapture sessionFailureTx : Bool) :
    (new supportsProcessCapture sessionFailureTx).Sound where
  serves := AudioStreamEngine.serves_new _ _
  opened := nofun
  owned := nofun
  holds := nofun

/-- A channel stays bound in a round that does not hand it to a new session. -/
theorem Binds.continues (h : Binds e next peer lease) (hserves : e.Serves)
    (hcontinues : e.Continues e' input) (hle : next ≤ next')
    (hfresh : ∀ d c, input.newChannel = some (d, c) → c = next)
    (hkept : ∀ session ∈ input.subscription, ∀ held ∈ e.getTcpBroadcaster session.1,
      lease.broadcaster = held.broadcaster → lease.sessionGeneration = session.2) :
    Binds e' next' peer lease := by
  refine ⟨h.generation, lt_of_lt_of_le h.opened hle, fun source d hchannel => ?_⟩
  obtain hnew | ⟨⟨source', hbefore⟩, hsession⟩ := hcontinues.stems source d _ hchannel
  · exact absurd h.opened (hfresh d _ hnew ▸ lt_irrefl _)
  · obtain ⟨hd, hgeneration⟩ := h.fed source' d hbefore
    refine ⟨hd, ?_⟩
    obtain hsame | ⟨generation, hsubscription, hafter⟩ := hsession
    · rw [hsame, hgeneration]
    · obtain ⟨generation', -, hlease⟩ := hserves.getTcpBroadcaster hbefore
      have heq := hkept (d, generation) hsubscription ⟨lease.broadcaster, generation'⟩ hlease rfl
      rw [hafter, ← h.generation, heq]

/-- The engine takes up an input. -/
theorem Sound.engine (h : s.Sound) {engine : AudioStreamEngine} {next' : Channel}
    (hcontinues : s.engine.Continues engine input) (hlt : s.nextChannel < next')
    (hfresh : ∀ d c, input.newChannel = some (d, c) → c = s.nextChannel)
    (hkept : ∀ session ∈ input.subscription, ∀ held ∈ s.engine.getTcpBroadcaster session.1,
      ∀ socket ∈ s.sockets, ∀ lease ∈ socket.lease, lease.broadcaster = held.broadcaster →
        lease.sessionGeneration = session.2)
    (closed : List (DeviceId × SessionGeneration)) :
    Sound { s with engine, nextChannel := next', transportClosed := closed } where
  serves := hcontinues.serves
  opened source d c hchannel := by
    obtain hnew | ⟨⟨source', hbefore⟩, -⟩ := hcontinues.stems source d c hchannel
    · exact hfresh d c hnew ▸ hlt
    · exact (h.opened source' d c hbefore).trans hlt
  owned source d source' d' c hchannel hchannel' := by
    obtain hnew | ⟨⟨old, hbefore⟩, -⟩ := hcontinues.stems source d c hchannel <;>
      obtain hnew' | ⟨⟨old', hbefore'⟩, -⟩ := hcontinues.stems source' d' c hchannel'
    · exact congrArg Prod.fst (Option.some.inj (hnew.symm.trans hnew'))
    · exact absurd (h.opened old' d' c hbefore') (hfresh d c hnew ▸ lt_irrefl _)
    · exact absurd (h.opened old d c hbefore) (hfresh d' c hnew' ▸ lt_irrefl _)
    · exact h.owned old d old' d' c hbefore hbefore'
  holds socket hsocket := by
    have hbinds : ∀ peer lease, socket.lease = some lease →
        Binds s.engine s.nextChannel peer lease →
        Binds engine next' peer lease := by
      intro peer lease hlease hbinds
      exact hbinds.continues h.serves hcontinues hlt.le hfresh fun session hsession held hheld =>
        hkept session hsession held hheld socket hsocket lease hlease
    have hholds := h.holds socket hsocket
    cases socket with
    | granted peer lease => exact hbinds peer lease rfl hholds
    | streaming peer lease queue => exact ⟨hbinds peer lease rfl hholds.1, hholds.2⟩
    | renewing peer sessionGeneration => exact hholds
    | connected | asking | pausing | ended => trivial

/-- The task of one socket goes on. -/
theorem Sound.setSocket (h : s.Sound) (k : ℕ) (hsocket : Holds s.engine s.nextChannel socket) :
    (s.setSocket k socket).Sound where
  serves := h.serves
  opened := h.opened
  owned := h.owned
  holds other hother := by
    obtain hmem | rfl := List.mem_or_eq_of_mem_set hother
    · exact h.holds other hmem
    · exact hsocket

/-- Sessions, owners and messages do not matter. -/
theorem Sound.congr (h : s.Sound) {s' : AdbServer} (hengine : s'.engine = s.engine)
    (hnext : s'.nextChannel = s.nextChannel) (hsockets : s'.sockets = s.sockets) : s'.Sound := by
  obtain ⟨authorizer, engine, nextChannel, sockets, owners, nextSocketId, closed⟩ := s'
  subst hengine hnext hsockets
  exact ⟨h.serves, h.opened, h.owned, h.holds⟩

theorem Sound.close (h : s.Sound) (k : ℕ) (peer : AdbPeer) (generation : SessionGeneration) :
    (s.close k peer generation).1.Sound := by
  have hended : (s.setSocket k .ended).Sound := h.setSocket k trivial
  unfold AdbServer.close
  dsimp only
  split
  · exact hended.congr rfl rfl rfl
  · exact hended

/-- A channel that is lent in the session of the peer is bound to it. -/
theorem Sound.binds (h : s.Sound)
    (hlease : s.engine.getTcpBroadcaster peer.handshake.deviceId = some lease)
    (hgeneration : lease.sessionGeneration = peer.handshake.generation) :
    Binds s.engine s.nextChannel peer lease := by
  obtain ⟨source, hchannel, hsession⟩ := h.serves.of_getTcpBroadcaster hlease
  refine ⟨hgeneration, h.opened source _ _ hchannel, fun source' d hchannel' => ?_⟩
  obtain rfl := h.owned source' d source _ _ hchannel' hchannel
  exact ⟨rfl, hgeneration ▸ hsession⟩

theorem Sound.answerLease (h : s.Sound) (hok : s.Orderly (.getTcpBroadcaster k)) :
    (s.answerLease k).1.Sound := by
  unfold AdbServer.answerLease
  split
  · next peer retries hsocket =>
    split
    · next lease hlease =>
      have hgeneration := hok peer (by rw [hsocket]; rfl) lease hlease
      exact h.setSocket k (h.binds hlease hgeneration)
    · refine h.setSocket k ?_
      split <;> trivial
  · next peer sessionGeneration hsocket =>
    have hholds : sessionGeneration = peer.handshake.generation :=
      h.holds _ (List.mem_of_getElem? hsocket)
    split
    · next lease hlease =>
      obtain ⟨hlease, hsame⟩ := Option.filter_eq_some_iff.mp hlease
      exact h.setSocket k (h.binds hlease ((of_decide_eq_true hsame).trans hholds))
    · exact h.close k peer sessionGeneration
  · exact h

/-- A packet goes to the sockets of the session it was encoded in. -/
theorem Sound.publish (h : s.Sound) (source : AudioSource) (deviceId : DeviceId) :
    (s.publish source deviceId).Sound := by
  unfold AdbServer.publish
  split
  · next channel hchannel =>
    refine ⟨h.serves, h.opened, h.owned, fun socket hsocket => ?_⟩
    obtain ⟨before, hmem, rfl⟩ := List.mem_map.mp hsocket
    have hholds := h.holds before hmem
    cases before with
    | streaming peer lease queue =>
      refine ⟨hholds.1, fun p hp => ?_⟩
      split at hp
      · next hsame =>
        obtain hp | hp := List.mem_append.mp hp
        · exact hholds.2 p hp
        · obtain rfl := List.mem_singleton.mp hp
          obtain ⟨hdevice, hgeneration⟩ := hholds.1.fed source deviceId (hsame ▸ hchannel)
          rw [hgeneration, hdevice]
      · exact hholds.2 p hp
    | granted | renewing => exact hholds
    | connected | asking | pausing | ended => trivial
  · exact h

@[simp] theorem withChannel_subscription :
    (withChannel next input).subscription = input.subscription := by
  cases input with
  | command command platform => cases command <;> rfl
  | closed => rfl
  | failure => rfl

theorem withChannel_newChannel {d : DeviceId} {c : Channel}
    (h : (withChannel next input).newChannel = some (d, c)) : c = next := by
  cases input with
  | command command platform =>
    cases command with
    | subscribe | changeSource | changeBitrate =>
      exact (congrArg Prod.snd (Option.some.inj h)).symm
    | unsubscribe | getTcpBroadcaster | transportClosed | shutdown => nomatch h
  | closed => nomatch h
  | failure => nomatch h

/-- An orderly step keeps the invariant. -/
theorem Sound.step (h : s.Sound) {i : Step} (hok : s.Orderly i) : (step hexEncode s i).1.Sound := by
  cases i with
  | prepare | commit | revoke => exact h.congr rfl rfl rfl
  | engine input =>
    refine h.engine (h.serves.step _) (Nat.lt_succ_self _) (fun d c => withChannel_newChannel) ?_ _
    rw [withChannel_subscription]
    exact hok
  | accept =>
    refine ⟨h.serves, h.opened, h.owned, fun socket hsocket => ?_⟩
    obtain hmem | hmem := List.mem_append.mp hsocket
    · exact h.holds socket hmem
    · obtain rfl := List.mem_singleton.mp hmem
      trivial
  | handshake k handshake =>
    simp only [AdbServer.step]
    split
    · cases handshake with
      | none => exact h.setSocket k trivial
      | some handshake =>
        simp only [readHandshake]
        split
        · have hasking := @Sound.setSocket s (.asking ⟨handshake, s.nextSocketId + 1⟩ 0) h k trivial
          exact hasking.congr rfl rfl rfl
        · exact h.setSocket k trivial
    · exact h
  | getTcpBroadcaster k => exact h.answerLease hok
  | engineGone k =>
    simp only [AdbServer.step]
    split
    · exact h.setSocket k trivial
    · exact h.setSocket k trivial
    · exact h.close k _ _
    · exact h
  | retry k =>
    simp only [AdbServer.step]
    split
    · exact h.setSocket k trivial
    · exact h
  | subscribe k =>
    simp only [AdbServer.step]
    split
    · next peer lease hsocket =>
      exact h.setSocket k ⟨h.holds _ (List.mem_of_getElem? hsocket), nofun⟩
    · exact h
  | publish source deviceId => exact h.publish source deviceId
  | forward k n =>
    simp only [AdbServer.step]
    split
    · next peer lease queue hsocket =>
      have hholds : Holds _ _ (.streaming peer lease queue) :=
        h.holds _ (List.mem_of_getElem? hsocket)
      exact h.setSocket k ⟨hholds.1, fun p hp => hholds.2 p (List.mem_of_mem_drop hp)⟩
    · exact h
  | lag k n =>
    simp only [AdbServer.step]
    split
    · next peer lease queue hsocket =>
      have hholds : Holds _ _ (.streaming peer lease queue) :=
        h.holds _ (List.mem_of_getElem? hsocket)
      exact h.setSocket k ⟨hholds.1, fun p hp => hholds.2 p (List.mem_of_mem_drop hp)⟩
    · exact h
  | channelClosed k =>
    simp only [AdbServer.step]
    split
    · next peer lease hsocket =>
      have hholds : Holds _ _ (.streaming peer lease []) :=
        h.holds _ (List.mem_of_getElem? hsocket)
      split
      · exact h.setSocket k hholds.1.generation
      · exact h
    · exact h
  | finish k =>
    simp only [AdbServer.step]
    split
    · exact h.close k _ _
    · exact h
  | transportClosed =>
    simp only [AdbServer.step]
    split
    · exact h
    · refine h.engine (h.serves.step _) (Nat.lt_succ_self _) ?_ ?_ _
      · intro d c hnew
        nomatch hnew
      · intro session hsession
        nomatch hsession

/-! ### Whole runs -/

/-- A socket that is closed tells the engine the number of its own session. -/
theorem bound_close {i : Step} {generation : SessionGeneration} {after : AdbServer}
    (hsocket : (s.sockets[k]?.bind AdbSocket.peer) = some peer)
    (hgeneration : generation = peer.handshake.generation) :
    Bound ⟨s, i, (s.close k peer generation).2, after⟩ := by
  have hhandshake : s.handshakeOf k = some peer.handshake := by
    rw [handshakeOf, hsocket, Option.map_some]
  unfold AdbServer.close
  dsimp only
  split
  · exact ⟨peer.handshake, hhandshake, rfl, hgeneration⟩
  · trivial

/-- In a state of an orderly run every socket is bound to its session. -/
theorem Sound.bound (h : s.Sound) (i : Step) (after : AdbServer) :
    Bound ⟨s, i, (AdbServer.step hexEncode s i).2, after⟩ := by
  cases i with
  | prepare | commit | revoke | engine | accept | publish => trivial
  | handshake k handshake =>
    simp only [AdbServer.step]
    split <;> trivial
  | getTcpBroadcaster k =>
    simp only [AdbServer.step]
    unfold AdbServer.answerLease
    split
    · split <;> trivial
    · next peer sessionGeneration hsocket =>
      split
      · trivial
      · exact bound_close (by rw [hsocket]; rfl) (h.holds _ (List.mem_of_getElem? hsocket))
    · trivial
  | engineGone k =>
    simp only [AdbServer.step]
    split
    · trivial
    · trivial
    · next peer sessionGeneration hsocket =>
      exact bound_close (by rw [hsocket]; rfl) (h.holds _ (List.mem_of_getElem? hsocket))
    · trivial
  | retry k | subscribe k | lag k n =>
    simp only [AdbServer.step]
    split <;> trivial
  | forward k n =>
    simp only [AdbServer.step]
    split
    · next peer lease queue hsocket =>
      have hholds : Holds _ _ (.streaming peer lease queue) :=
        h.holds _ (List.mem_of_getElem? hsocket)
      refine ⟨peer.handshake, ?_, fun p hp => hholds.2 p (List.mem_of_mem_take hp)⟩
      simp only [handshakeOf, hsocket]
      rfl
    · trivial
  | channelClosed k =>
    simp only [AdbServer.step]
    split
    · split <;> trivial
    · trivial
  | finish k =>
    simp only [AdbServer.step]
    split
    · next peer lease queue hsocket =>
      have hholds : Holds _ _ (.streaming peer lease queue) :=
        h.holds _ (List.mem_of_getElem? hsocket)
      exact bound_close (by rw [hsocket]; rfl) hholds.1.generation
    · trivial
  | transportClosed =>
    simp only [AdbServer.step]
    split <;> trivial

/-- A socket whose task has ended is not touched when another goes on. -/
theorem setSocket_ended {j : ℕ} {other socket : AdbSocket} (hended : s.sockets[k]? = some .ended)
    (hother : s.sockets[j]? = some other) (hne : other ≠ .ended) :
    (s.setSocket j socket).sockets[k]? = some .ended := by
  have hjk : j ≠ k := by
    rintro rfl
    exact hne (Option.some.inj (hother.symm.trans hended))
  change (s.sockets.set j socket)[k]? = _
  rw [List.getElem?_set_ne hjk, hended]

theorem close_sockets (generation : SessionGeneration) :
    (s.close k peer generation).1.sockets = (s.setSocket k .ended).sockets := by
  unfold AdbServer.close
  dsimp only
  split <;> rfl

/-- A task that has ended does not go on. -/
theorem ended_step (h : s.sockets[k]? = some .ended) (i : Step) :
    (AdbServer.step hexEncode s i).1.sockets[k]? = some .ended := by
  have hsome : ∀ {j : ℕ} {other socket : AdbSocket}, s.sockets[j]? = some other → other ≠ .ended →
      (s.setSocket j socket).sockets[k]? = some .ended := fun hother hne =>
    setSocket_ended h hother hne
  cases i with
  | prepare | commit | revoke | engine => exact h
  | accept =>
    change (s.sockets ++ [.connected])[k]? = _
    rw [List.getElem?_append_left (List.getElem?_eq_some_iff.mp h).1, h]
  | handshake j handshake =>
    simp only [AdbServer.step]
    split
    · next hother =>
      cases handshake with
      | none => exact hsome hother nofun
      | some handshake =>
        simp only [readHandshake]
        split
        · exact hsome hother nofun
        · exact hsome hother nofun
    · exact h
  | getTcpBroadcaster j =>
    simp only [AdbServer.step]
    unfold AdbServer.answerLease
    split
    · next hother => split <;> exact hsome hother nofun
    · next hother =>
      split
      · exact hsome hother nofun
      · rw [close_sockets]
        exact hsome hother nofun
    · exact h
  | engineGone j =>
    simp only [AdbServer.step]
    split
    · next hother => exact hsome hother nofun
    · next hother => exact hsome hother nofun
    · next hother =>
      rw [close_sockets]
      exact hsome hother nofun
    · exact h
  | publish source deviceId =>
    simp only [AdbServer.step]
    unfold AdbServer.publish
    split
    · change (s.sockets.map _)[k]? = _
      rw [List.getElem?_map, h]
      rfl
    · exact h
  | retry j | subscribe j | forward j n | lag j n =>
    simp only [AdbServer.step]
    split
    · next hother => exact hsome hother nofun
    · exact h
  | channelClosed j =>
    simp only [AdbServer.step]
    split
    · next hother =>
      split
      · exact hsome hother nofun
      · exact h
    · exact h
  | finish j =>
    simp only [AdbServer.step]
    split
    · next hother =>
      rw [close_sockets]
      exact hsome hother nofun
    · exact h
  | transportClosed =>
    simp only [AdbServer.step]
    split <;> exact h

/-- The engine is told of a socket by its task, which ends with it. -/
theorem closed_step {i : Step} {deviceId : DeviceId} {generation : SessionGeneration}
    (h : (AdbServer.step hexEncode s i).2 = .closed k deviceId generation) :
    s.sockets[k]? ≠ some .ended ∧
      (AdbServer.step hexEncode s i).1.sockets[k]? = some .ended := by
  have hclose : ∀ {j : ℕ} {socket : AdbSocket} {peer : AdbPeer} {own : SessionGeneration},
      s.sockets[j]? = some socket → socket ≠ .ended →
        (s.close j peer own).2 = .closed k deviceId generation →
          s.sockets[k]? ≠ some .ended ∧ (s.close j peer own).1.sockets[k]? = some .ended := by
    intro j socket peer own hsocket hne heq
    have hjk : j = k := by
      unfold AdbServer.close at heq
      dsimp only at heq
      split at heq
      · injection heq
      · nomatch heq
    subst hjk
    refine ⟨fun hended => hne (Option.some.inj (hsocket.symm.trans hended)), ?_⟩
    rw [close_sockets]
    exact List.getElem?_set_self (List.getElem?_eq_some_iff.mp hsocket).1
  cases i with
  | prepare | commit | revoke | engine | accept | publish => nomatch h
  | handshake j handshake =>
    simp only [AdbServer.step] at h
    split at h <;> nomatch h
  | getTcpBroadcaster j =>
    simp only [AdbServer.step] at h ⊢
    unfold AdbServer.answerLease at h ⊢
    split at h
    · split at h <;> nomatch h
    · next hsocket =>
      split at h
      · nomatch h
      · exact hclose hsocket nofun h
    · nomatch h
  | engineGone j =>
    simp only [AdbServer.step] at h ⊢
    split at h
    · nomatch h
    · nomatch h
    · next hsocket => exact hclose hsocket nofun h
    · nomatch h
  | retry j | subscribe j | forward j n | lag j n =>
    simp only [AdbServer.step] at h
    split at h <;> nomatch h
  | channelClosed j =>
    simp only [AdbServer.step] at h
    split at h
    · split at h <;> nomatch h
    · nomatch h
  | finish j =>
    simp only [AdbServer.step] at h ⊢
    split at h
    · next hsocket => exact hclose hsocket nofun h
    · nomatch h
  | transportClosed =>
    simp only [AdbServer.step] at h
    split at h <;> nomatch h

/-- The engine is told of a socket once. -/
theorem told_once (hexEncode : List UInt8 → String)
    (supportsProcessCapture sessionFailureTx : Bool) (steps : List Step) (k : ℕ) :
    (((machine hexEncode supportsProcessCapture sessionFailureTx).events steps).filterMap
      (toldOf k)).length ≤ 1 := by
  refine ((machine hexEncode supportsProcessCapture sessionFailureTx).history_invariant
    (I := fun pre s => (pre.filterMap (toldOf k)).length ≤ 1 ∧
      (pre.filterMap (toldOf k) ≠ [] → s.sockets[k]? = some .ended))
    (p := fun _ _ => True) ⟨Nat.zero_le _, absurd rfl⟩ ?_ ?_).1
  · rintro pre s i ⟨hlength, hended⟩ -
    rw [List.filterMap_append]
    cases htold : toldOf k ((machine hexEncode supportsProcessCapture sessionFailureTx).eventAt s i)
      with
    | none =>
      rw [List.filterMap_cons_none htold, List.filterMap_nil, List.append_nil]
      exact ⟨hlength, fun hne => ended_step (hended hne) i⟩
    | some told =>
      obtain ⟨hrunning, hafter⟩ : s.sockets[k]? ≠ some .ended ∧
          (AdbServer.step hexEncode s i).1.sockets[k]? = some .ended := by
        unfold toldOf at htold
        split at htold
        · next hclosed =>
          split at htold
          · next hk => exact closed_step (hk ▸ hclosed)
          · nomatch htold
        · nomatch htold
      have hnone : pre.filterMap (toldOf k) = [] := not_not.mp fun hne => hrunning (hended hne)
      rw [List.filterMap_cons_some htold, List.filterMap_nil, hnone]
      exact ⟨le_rfl, fun _ => hafter⟩
  · intros
    trivial

/-- In every run the engine is told of a socket once, and what it is told of a session that has
been replaced ends nothing; in an orderly run every socket is bound to the session its handshake
named. -/
theorem bound_of_run (hexEncode : List UInt8 → String)
    (supportsProcessCapture sessionFailureTx : Bool) (steps : List Step) :
    ((∀ e ∈ (machine hexEncode supportsProcessCapture sessionFailureTx).events steps,
        e.before.Orderly e.input) →
      ∀ e ∈ (machine hexEncode supportsProcessCapture sessionFailureTx).events steps, Bound e) ∧
    (∀ k, (((machine hexEncode supportsProcessCapture sessionFailureTx).events steps).filterMap
      (toldOf k)).length ≤ 1) ∧
    ∀ e ∈ (machine hexEncode supportsProcessCapture sessionFailureTx).events steps,
      e.input = .transportClosed → ∀ deviceId generation rest,
        e.before.transportClosed = (deviceId, generation) :: rest →
        e.before.engine.sessionGenerations.lookup deviceId ≠ some generation →
          e.after.engine = e.before.engine := by
  refine ⟨fun hok e he => ?_, told_once hexEncode supportsProcessCapture sessionFailureTx steps,
    fun e he hinput deviceId generation rest htold hreplaced => ?_⟩
  · have hsound := (((machine hexEncode supportsProcessCapture sessionFailureTx).invariant
      (sound_new _ _) (fun _ _ h hok => h.step hok) hok).1 e he).1
    rw [(machine hexEncode supportsProcessCapture sessionFailureTx).eq_eventAt_of_mem he]
    exact hsound.bound e.input _
  · rw [(machine hexEncode supportsProcessCapture sessionFailureTx).eq_eventAt_of_mem he, hinput]
    simp only [Machine.eventAt_after, Machine.eventAt_before, machine, AdbServer.step, htold,
      stepEngine, AudioStreamEngine.step]
    split
    · rfl
    · rw [AudioStreamEngine.transportClosed, if_pos hreplaced]

/-- The server on a machine that captures the desktop. -/
def exampleServer : Machine AdbServer Step Outcome := machine hexDigits false true

/-- A phone on ADB connects, for the first time or once more. -/
def connectPhone (n : UInt8) (generation : SessionGeneration) : List Step :=
  [.prepare (.ok [n]) "phone",
    .engine (.command (.subscribe "phone" generation none none none)
      AudioStreamEngine.openPlatform),
    .commit ⟨"phone", hexDigits [n], generation⟩]

/-- It opens its audio socket in its first session. -/
def openSocket : List Step := [.accept, .handshake 0 (some ⟨"phone", hexDigits [1], 1⟩)]

/-- The phone connects, opens its socket, is sent a packet and goes away. -/
def oneSession : List Step :=
  connectPhone 1 1 ++ openSocket ++ [.getTcpBroadcaster 0, .subscribe 0, .publish .desktop "phone",
    .forward 0 1, .finish 0, .transportClosed]

theorem bound_of_run_oneSession :
    (exampleServer.events oneSession).map (·.output) = List.replicate 8 .none ++
        [.wrote 0 [⟨"phone", some 1⟩], .closed 0 "phone" 1, .none] ∧
      ∀ e ∈ exampleServer.events oneSession, Bound e :=
  ⟨by decide +kernel, (bound_of_run hexDigits false true oneSession).1 (by decide +kernel)⟩

/-- The phone connects again before its socket is given the channel. -/
def lateLease : List Step :=
  connectPhone 1 1 ++ openSocket ++ connectPhone 2 2 ++ [.getTcpBroadcaster 0, .subscribe 0,
    .finish 0]

/-- The phone connects again while its socket has the channel. -/
def takenOver : List Step :=
  connectPhone 1 1 ++ openSocket ++ [.getTcpBroadcaster 0, .subscribe 0] ++ connectPhone 2 2 ++
    [.publish .desktop "phone", .forward 0 1]

/-- The socket of the first session is sent audio of the second, or ends it. -/
theorem not_bound_secondSession :
    (∃ e ∈ exampleServer.events lateLease, ¬Bound e) ∧
      ∃ e ∈ exampleServer.events takenOver, ¬Bound e := by
  constructor <;> decide +kernel

end AdbServer

end Gemacast.Control
