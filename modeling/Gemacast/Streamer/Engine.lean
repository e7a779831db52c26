import Gemacast.Core.Machine
import Gemacast.Streamer.Pool

/-!
# The stream engine

One loop that takes the commands of the sessions and the failures of the tasks, in the
order in which they arrive, and keeps one capture subscription for every device. Where the
loop searches its sessions the order of the hash map comes from outside.
-/

namespace Gemacast.Streamer

open Gemacast.Core

/-- The subscription of a device. -/
structure StreamSession where
  /-- Where UDP packets go; none is ADB or USB. -/
  targetAddr : Option SocketAddr
  /-- What the device listens to. -/
  source : AudioSource
  /-- The bitrate the device asked for. -/
  bitrate : Option ℤ
  deriving DecidableEq

/-- The target of an address, or of the device where there is none. -/
def targetOf (targetAddr : Option SocketAddr) (deviceId : DeviceId) : TargetId :=
  (targetAddr.map TargetId.udp).getD (.tcp deviceId)

/-- The target of a session. -/
def StreamSession.target (session : StreamSession) (deviceId : DeviceId) : TargetId :=
  targetOf session.targetAddr deviceId

/-- The report that a session failed. -/
structure StreamSessionFailure where
  /-- The device. -/
  deviceId : DeviceId
  /-- The generation of its session. -/
  generation : UInt64
  deriving DecidableEq, Repr

/-- The channel of a device, lent to its transport. -/
structure TcpBroadcastLease where
  /-- The channel. -/
  broadcaster : Channel
  /-- The generation of the session. -/
  sessionGeneration : UInt64
  deriving DecidableEq, Repr

/-- A command to the engine. -/
inductive AudioStreamCommand
  | subscribe (deviceId : DeviceId) (generation : UInt64) (targetAddr : Option SocketAddr)
      (source : Option AudioSource) (bitrate : Option ℤ)
  | unsubscribe (deviceId : DeviceId)
  | changeSource (deviceId : DeviceId) (source : AudioSource)
  | changeBitrate (deviceId : DeviceId) (bitrate : Option ℤ)
  | getTcpBroadcaster (deviceId : DeviceId)
  | transportClosed (deviceId : DeviceId) (generation : UInt64)
  | shutdown

/-- What the loop takes up next: a command with the platform's answers to it, the end of the
commands, or a failure with the order in which the sessions are searched. -/
inductive EngineInput
  | command (command : AudioStreamCommand) (platform : Platform)
  | closed
  | failure (failure : StreamTaskFailure) (order : List DeviceId)

/-- The answer to a command. -/
inductive Reply
  | result (result : Except String Unit)
  | broadcaster (lease : Option TcpBroadcastLease)

/-- What one round of the loop sends out. -/
structure EngineOutput where
  /-- The answer to the command. -/
  reply : Option Reply := none
  /-- The errors shown to devices. -/
  notified : List (DeviceId × String) := []
  /-- The sessions reported as failed. -/
  reported : List StreamSessionFailure := []

/-- The state of the engine. -/
structure AudioStreamEngine where
  /-- The captures and their encoders. -/
  pool : CapturePool
  /-- The session of every device. -/
  activePlayerSessions : Table DeviceId StreamSession
  /-- The generation of every session. -/
  sessionGenerations : Table DeviceId UInt64
  /-- Somebody takes the reports of failed sessions. -/
  sessionFailureTx : Bool
  /-- The loop has ended. -/
  stopped : Bool

namespace AudioStreamEngine

/-- The engine before the first command. -/
def new (supportsProcessCapture sessionFailureTx : Bool) : AudioStreamEngine where
  pool := .new supportsProcessCapture
  activePlayerSessions := ∅
  sessionGenerations := ∅
  sessionFailureTx
  stopped := false

/-- Report a failed session. -/
def reportSessionFailure (e : AudioStreamEngine) (deviceId : DeviceId) (generation : UInt64) :
    List StreamSessionFailure :=
  if e.sessionFailureTx then [⟨deviceId, generation⟩] else []

/-- Stop everything. -/
def stop (e : AudioStreamEngine) : AudioStreamEngine :=
  { e with
    pool := e.pool.shutdownAll
    activePlayerSessions := ∅
    sessionGenerations := ∅
    stopped := true }

/-- Forget the session of a device. -/
def forget (e : AudioStreamEngine) (deviceId : DeviceId) : AudioStreamEngine :=
  { e with
    activePlayerSessions := e.activePlayerSessions.erase deviceId
    sessionGenerations := e.sessionGenerations.erase deviceId }

/-- The source a subscription ends up on: a running session keeps its own. -/
def finalSource (e : AudioStreamEngine) (deviceId : DeviceId) (source : Option AudioSource) :
    AudioSource :=
  match e.activePlayerSessions.lookup deviceId with
  | some session => session.source
  | none => source.getD .desktop

/-- Subscribe a device, or move its target. -/
def subscribe (e : AudioStreamEngine) (deviceId : DeviceId) (generation : UInt64)
    (targetAddr : Option SocketAddr) (source : Option AudioSource) (bitrate : Option ℤ)
    (platform : Platform) : AudioStreamEngine × EngineOutput :=
  let finalSource := e.finalSource deviceId source
  let target := targetOf targetAddr deviceId
  match e.pool.subscribe finalSource target bitrate platform with
  | (pool, .ok _) =>
    let pool :=
      match e.activePlayerSessions.lookup deviceId with
      | some oldSession =>
        let oldTarget := oldSession.target deviceId
        if oldSession.source ≠ finalSource ∨ oldTarget ≠ target then
          pool.unsubscribe oldSession.source oldTarget
        else pool
      | none => pool
    ({ e with
        pool
        activePlayerSessions :=
          e.activePlayerSessions.insert deviceId ⟨targetAddr, finalSource, bitrate⟩
        sessionGenerations := e.sessionGenerations.insert deviceId generation },
      { reply := some (.result (.ok ())) })
  | (pool, .error error) =>
    ({ e with pool },
      { reply := some (.result (.error error.text))
        notified := [(deviceId, s!"Audio capture failed: {error.text}")] })

/-- End the session of a device. -/
def unsubscribe (e : AudioStreamEngine) (deviceId : DeviceId) : AudioStreamEngine × EngineOutput :=
  match e.activePlayerSessions.lookup deviceId with
  | none => (e, { reply := some (.result (.ok ())) })
  | some session =>
    ({ e.forget deviceId with
        pool := e.pool.unsubscribe session.source (session.target deviceId) },
      { reply := some (.result (.ok ())) })

/-- The refusal of a command for a device without a session. -/
def noSession (deviceId : DeviceId) : EngineOutput :=
  { reply := some (.result (.error s!"device {deviceId} has no active session")) }

/-- Move the session of a device to another source. -/
def changeSource (e : AudioStreamEngine) (deviceId : DeviceId) (source : AudioSource)
    (platform : Platform) : AudioStreamEngine × EngineOutput :=
  match e.activePlayerSessions.lookup deviceId with
  | none => (e, noSession deviceId)
  | some session =>
    match e.pool.changeSource session.source source (session.target deviceId) session.bitrate
        platform with
    | (pool, .ok _) =>
      ({ e with
          pool
          activePlayerSessions := e.activePlayerSessions.insert deviceId
            ⟨session.targetAddr, source, session.bitrate⟩ },
        { reply := some (.result (.ok ())) })
    | (pool, .error error) =>
      ({ e with pool },
        { reply := some (.result (.error error.text))
          notified := [(deviceId, s!"Failed to change audio source: {error.text}")] })

/-- Change the bitrate of the session of a device. -/
def changeBitrate (e : AudioStreamEngine) (deviceId : DeviceId) (bitrate : Option ℤ)
    (platform : Platform) : AudioStreamEngine × EngineOutput :=
  match e.activePlayerSessions.lookup deviceId with
  | none => (e, noSession deviceId)
  | some session =>
    if session.bitrate = bitrate then (e, { reply := some (.result (.ok ())) })
    else
      match e.pool.changeBitrate session.source (session.target deviceId) bitrate platform with
      | (pool, .ok _) =>
        ({ e with
            pool
            activePlayerSessions := e.activePlayerSessions.insert deviceId
              ⟨session.targetAddr, session.source, bitrate⟩ },
          { reply := some (.result (.ok ())) })
      | (pool, .error error) =>
        ({ e with pool },
          { reply := some (.result (.error error.text))
            notified := [(deviceId, s!"Failed to change bitrate: {error.text}")] })

/-- The channel of a device on ADB or USB. -/
def getTcpBroadcaster (e : AudioStreamEngine) (deviceId : DeviceId) : Option TcpBroadcastLease :=
  match e.activePlayerSessions.lookup deviceId with
  | none => none
  | some session =>
    if session.targetAddr.isSome then none
    else
      (e.pool.tcpBroadcaster session.source deviceId).map fun channel =>
        ⟨channel, (e.sessionGenerations.lookup deviceId).getD 0⟩

/-- End the session whose transport closed, unless it has been replaced. -/
def transportClosed (e : AudioStreamEngine) (deviceId : DeviceId) (generation : UInt64) :
    AudioStreamEngine × EngineOutput :=
  if e.sessionGenerations.lookup deviceId ≠ some generation then (e, {})
  else
    match e.activePlayerSessions.lookup deviceId with
    | none => (e, {})
    | some session =>
      ({ e.forget deviceId with
          pool := e.pool.unsubscribe session.source (session.target deviceId) },
        { reported := e.reportSessionFailure deviceId generation })

/-- Forget a session whose task failed, and tell about it. -/
def failSession (e : AudioStreamEngine) (deviceId : DeviceId) (message : String) :
    AudioStreamEngine × EngineOutput :=
  (e.forget deviceId,
    { notified := [(deviceId, message)]
      reported :=
        match e.sessionGenerations.lookup deviceId with
        | some generation => e.reportSessionFailure deviceId generation
        | none => [] })

/-- Forget the sessions of several devices. -/
def failSessions (e : AudioStreamEngine) (message : String) :
    List DeviceId → AudioStreamEngine × EngineOutput
  | [] => (e, {})
  | deviceId :: rest =>
    let first := e.failSession deviceId message
    let others := first.1.failSessions message rest
    (others.1,
      { notified := first.2.notified ++ others.2.notified
        reported := first.2.reported ++ others.2.reported })

/-- The devices whose session a test accepts, in the order of a search. -/
def devicesWith (e : AudioStreamEngine) (order : List DeviceId) (test : StreamSession → Bool) :
    List DeviceId :=
  (e.activePlayerSessions.keysInOrder order).filter fun deviceId =>
    (e.activePlayerSessions.lookup deviceId).any test

/-- Drop what failed, and the sessions that hang on it. -/
def handleStreamFailure (e : AudioStreamEngine) (failure : StreamTaskFailure)
    (order : List DeviceId) : AudioStreamEngine × EngineOutput :=
  match failure with
  | .capture source generation message =>
    match e.pool.evictFailedSource source generation with
    | (pool, false) => ({ e with pool }, {})
    | (pool, true) =>
      { e with pool }.failSessions s!"Audio source failed: {message}"
        (e.devicesWith order fun session => session.source = source)
  | .udpEncoder _ _ _ target message =>
    match e.pool.removeFailedTarget failure with
    | (pool, false) => ({ e with pool }, {})
    | (pool, true) =>
      match (e.devicesWith order fun session => session.targetAddr = some target).head? with
      | some deviceId => { e with pool }.failSession deviceId s!"Audio encoder failed: {message}"
      | none => ({ e with pool }, {})
  | .tcpEncoder _ _ _ deviceId message =>
    match e.pool.removeFailedTarget failure with
    | (pool, false) => ({ e with pool }, {})
    | (pool, true) => { e with pool }.failSession deviceId s!"Audio encoder failed: {message}"

/-- One round of the loop. -/
def step (e : AudioStreamEngine) (input : EngineInput) : AudioStreamEngine × EngineOutput :=
  if e.stopped then (e, {})
  else
    match input with
    | .command command platform =>
      match command with
      | .subscribe deviceId generation targetAddr source bitrate =>
        e.subscribe deviceId generation targetAddr source bitrate platform
      | .unsubscribe deviceId => e.unsubscribe deviceId
      | .changeSource deviceId source => e.changeSource deviceId source platform
      | .changeBitrate deviceId bitrate => e.changeBitrate deviceId bitrate platform
      | .getTcpBroadcaster deviceId =>
        (e, { reply := some (.broadcaster (e.getTcpBroadcaster deviceId)) })
      | .transportClosed deviceId generation => e.transportClosed deviceId generation
      | .shutdown => (e.stop, { reply := some (.result (.ok ())) })
    | .closed => (e.stop, {})
    | .failure failure order => e.handleStreamFailure failure order

/-- The engine under any inputs. -/
def machine (supportsProcessCapture sessionFailureTx : Bool) :
    Machine AudioStreamEngine EngineInput EngineOutput :=
  ⟨.new supportsProcessCapture sessionFailureTx, step⟩

variable {e : AudioStreamEngine} {d : DeviceId} {order : List DeviceId} {message : String}

@[simp] theorem failSessions_pool (devices : List DeviceId) :
    (e.failSessions message devices).1.pool = e.pool := by
  induction devices generalizing e with
  | nil => rfl
  | cons deviceId rest ih => exact ih

theorem failSessions_lookup (devices : List DeviceId) :
    (e.failSessions message devices).1.activePlayerSessions.lookup d =
      if d ∈ devices then none else e.activePlayerSessions.lookup d := by
  induction devices generalizing e with
  | nil => simp [failSessions]
  | cons deviceId rest ih =>
    refine ih.trans ?_
    rw [failSession, forget, Table.lookup_erase_eq]
    by_cases hd : d = deviceId <;> by_cases hrest : d ∈ rest <;> simp [hd, hrest]

theorem failSessions_generation (devices : List DeviceId) :
    (e.failSessions message devices).1.sessionGenerations.lookup d =
      if d ∈ devices then none else e.sessionGenerations.lookup d := by
  induction devices generalizing e with
  | nil => simp [failSessions]
  | cons deviceId rest ih =>
    refine ih.trans ?_
    rw [failSession, forget, Table.lookup_erase_eq]
    by_cases hd : d = deviceId <;> by_cases hrest : d ∈ rest <;> simp [hd, hrest]

theorem mem_devicesWith {test : StreamSession → Bool} : d ∈ e.devicesWith order test ↔
    ∃ session, e.activePlayerSessions.lookup d = some session ∧ test session = true := by
  unfold devicesWith
  rw [List.mem_filter, Table.mem_keysInOrder, Option.any_eq_true, Table.mem_iff]
  constructor
  · exact fun h => h.2
  · rintro ⟨session, hlookup, htest⟩
    exact ⟨⟨session, hlookup⟩, session, hlookup, htest⟩

theorem nodup_devicesWith (test : StreamSession → Bool) : (e.devicesWith order test).Nodup :=
  (Table.nodup_keysInOrder order).filter _

end AudioStreamEngine

end Gemacast.Streamer
