import Gemacast.Control.Dispatcher
import Gemacast.Phone.AudioService

/-!
# Discovery on the phone

The listener hears the PCs tell that they are there, or that they leave, and shows on the screen
those that the connection mode can reach. A watchdog reports the PCs that have gone silent: it
looks for them, tells the screen of one after the other, and only then drops them from the table.
-/

namespace Gemacast.Phone

open Gemacast.Core
open Gemacast.Streamer (DeviceId SocketAddr)
open Gemacast.Control (DiscoveredDevice TransportType isLoopback audioUdpPort seconds)

/-- How many seconds a PC may be silent. -/
def streamerHeartbeatTimeoutSecs : ℕ := 30

/-- A control message, as far as the phone looks at it. -/
inductive ControlMessage
  | presence (deviceId : DeviceId) (streamerName : String) (isOffline : Bool)
      (transport : Option TransportType)
  | disconnect (deviceId : DeviceId)
  | other
  deriving DecidableEq, Repr

/-- What the screen is told. -/
inductive FrontendEvent
  | streamerDiscovered (device : DiscoveredDevice)
  | streamerTimeout (streamerId : DeviceId)
  | forceDisconnect
  deriving DecidableEq, Repr

/-- What the listener and its watchdog share. -/
structure DispatchContext where
  /-- When a PC was last heard of. -/
  streamerLastSeen : Table DeviceId ℕ
  /-- When a PC was last heard of over USB. -/
  activeUsbStreamers : Table DeviceId ℕ

namespace DispatchContext

/-- Nobody has been heard of. -/
def new : DispatchContext := ⟨∅, ∅⟩

/-- The mode can reach this address. -/
def accepts (mode : ConnectionMode) (isUsb : Bool) (audioAddr : SocketAddr) : Bool :=
  match mode with
  | .wifi => !isUsb
  | .usb => isUsb
  | .adb => isLoopback audioAddr.ip

/-- The PC is on USB, by its own word or by its address. -/
def isUsb (transport : Option TransportType) (isUsbTetherIp : Bool) : Bool :=
  decide (transport = some .usb) || isUsbTetherIp

/-- The PC was heard over USB not long ago. -/
def hasRecentUsb (context : DispatchContext) (now : ℕ) (deviceId : DeviceId) : Bool :=
  match context.activeUsbStreamers.lookup deviceId with
  | some ts => decide ((now - ts) / seconds 1 < streamerHeartbeatTimeoutSecs)
  | none => false

/-- The table is brought up to date first, whatever the mode can reach. -/
def track (context : DispatchContext) (deviceId : DeviceId) (isOffline : Bool) (now : ℕ) :
    DispatchContext :=
  if isOffline then
    ⟨context.streamerLastSeen.erase deviceId, context.activeUsbStreamers.erase deviceId⟩
  else { context with streamerLastSeen := context.streamerLastSeen.insert deviceId now }

/-- A PC tells that it is there, or that it leaves. -/
def handlePresence (context : DispatchContext) (deviceId : DeviceId) (streamerName : String)
    (isOffline : Bool) (transport : Option TransportType) (addr : SocketAddr)
    (isUsbTetherIp : Bool) (mode : ConnectionMode) (now : ℕ) :
    DispatchContext × Option FrontendEvent :=
  let tracked := context.track deviceId isOffline now
  let audioAddr : SocketAddr := { addr with port := audioUdpPort }
  let usb := isUsb transport isUsbTetherIp
  let device : DiscoveredDevice := ⟨deviceId, streamerName, audioAddr, now, isOffline, transport⟩
  if !accepts mode usb audioAddr then (tracked, none)
  else if isOffline then (tracked, some (.streamerDiscovered device))
  else if usb then
    ({ tracked with activeUsbStreamers := tracked.activeUsbStreamers.insert deviceId now },
      some (.streamerDiscovered device))
  else if tracked.hasRecentUsb now deviceId then (tracked, none)
  else (tracked, some (.streamerDiscovered device))

/-- A message is handled. -/
def dispatch (context : DispatchContext) (message : ControlMessage) (addr : SocketAddr)
    (isUsbTetherIp : Bool) (mode : ConnectionMode) (now : ℕ) :
    DispatchContext × Option FrontendEvent :=
  match message with
  | .presence deviceId streamerName isOffline transport =>
    context.handlePresence deviceId streamerName isOffline transport addr isUsbTetherIp mode now
  | .disconnect _ => (context, some .forceDisconnect)
  | .other => (context, none)

/-- The PCs that have been silent for too long, in the order of the hash map. -/
def staleStreamers (context : DispatchContext) (order : List DeviceId) (now : ℕ) :
    List DeviceId :=
  (context.streamerLastSeen.keysInOrder order).filter fun id =>
    match context.streamerLastSeen.lookup id with
    | some ts => decide (seconds streamerHeartbeatTimeoutSecs ≤ now - ts)
    | none => false

/-- These PCs are dropped from the table. -/
def remove (context : DispatchContext) (stale : List DeviceId) : DispatchContext :=
  { context with
    streamerLastSeen := stale.foldl (fun map id => map.erase id) context.streamerLastSeen }

end DispatchContext

/-- A tick of the watchdog that is under way. -/
structure Eviction where
  /-- The PCs found silent. -/
  stale : List DeviceId
  /-- Those of them the screen has not been told of. -/
  left : List DeviceId

/-- The listener with its watchdog. -/
structure DiscoveryListener where
  /-- The time. -/
  now : ℕ
  /-- What both share. -/
  context : DispatchContext
  /-- The tick under way. -/
  eviction : Option Eviction

/-- One step of the time, of the listener or of the watchdog. -/
inductive DiscoveryInput
  /-- Time passes. -/
  | elapse (duration : ℕ)
  /-- A message is handled; what the interfaces say of its address. -/
  | dispatch (message : ControlMessage) (addr : SocketAddr) (isUsbTetherIp : Bool)
  /-- The watchdog looks for the PCs that are silent. -/
  | snapshot (order : List DeviceId)
  /-- The watchdog tells of the next one. -/
  | notify
  /-- The watchdog drops them. -/
  | remove

namespace DiscoveryListener

/-- Nobody has been heard of. -/
def new : DiscoveryListener := ⟨0, .new, none⟩

/-- One step. Over ADB the watchdog does not run. -/
def step (mode : ConnectionMode) (s : DiscoveryListener) :
    DiscoveryInput → DiscoveryListener × Option FrontendEvent
  | .elapse duration => ({ s with now := s.now + duration }, none)
  | .dispatch message addr isUsbTetherIp =>
    let (context, event) := s.context.dispatch message addr isUsbTetherIp mode s.now
    ({ s with context := context }, event)
  | .snapshot order =>
    match s.eviction with
    | some _ => (s, none)
    | none =>
      if mode = .adb then (s, none)
      else
        let stale := s.context.staleStreamers order s.now
        ({ s with eviction := some ⟨stale, stale⟩ }, none)
  | .notify =>
    match s.eviction with
    | some ⟨stale, id :: left⟩ =>
      ({ s with eviction := some ⟨stale, left⟩ }, some (.streamerTimeout id))
    | _ => (s, none)
  | .remove =>
    match s.eviction with
    | some ⟨stale, []⟩ => ({ s with context := s.context.remove stale, eviction := none }, none)
    | _ => (s, none)

/-- The listener in one mode as a machine. -/
def machine (mode : ConnectionMode) :
    Machine DiscoveryListener DiscoveryInput (Option FrontendEvent) where
  init := new
  step := step mode

end DiscoveryListener

namespace DispatchContext

variable {context : DispatchContext} {deviceId id : DeviceId} {now : ℕ}

/-- Only what is told of a PC itself changes its entry. -/
theorem lookup_track (isOffline : Bool) :
    (context.track deviceId isOffline now).streamerLastSeen.lookup id =
      if id = deviceId then (if isOffline then none else some now)
      else context.streamerLastSeen.lookup id := by
  unfold track
  cases isOffline
  · exact Table.lookup_insert_eq
  · exact Table.lookup_erase_eq

/-- What a presence does to the table does not depend on whether the mode reaches the PC. -/
theorem streamerLastSeen_handlePresence (streamerName : String) (isOffline : Bool)
    (transport : Option TransportType) (addr : SocketAddr) (isUsbTetherIp : Bool)
    (mode : ConnectionMode) :
    (context.handlePresence deviceId streamerName isOffline transport addr isUsbTetherIp mode
      now).1.streamerLastSeen = (context.track deviceId isOffline now).streamerLastSeen := by
  unfold handlePresence
  dsimp only
  repeat' split
  all_goals rfl

/-- What a presence tells the screen, if it does, is about its own PC. -/
theorem event_handlePresence {streamerName : String} {isOffline : Bool}
    {transport : Option TransportType} {addr : SocketAddr} {isUsbTetherIp : Bool}
    {mode : ConnectionMode} {event : FrontendEvent}
    (h : (context.handlePresence deviceId streamerName isOffline transport addr isUsbTetherIp
      mode now).2 = some event) :
    event = .streamerDiscovered
      ⟨deviceId, streamerName, { addr with port := audioUdpPort }, now, isOffline, transport⟩ := by
  unfold handlePresence at h
  dsimp only at h
  repeat' split at h
  all_goals first | exact (Option.some.inj h).symm | exact absurd h nofun

/-- The screen is told of every PC that leaves, if the mode reaches it. -/
theorem event_offline {streamerName : String} {transport : Option TransportType}
    {addr : SocketAddr} {isUsbTetherIp : Bool} {mode : ConnectionMode} :
    (context.handlePresence deviceId streamerName true transport addr isUsbTetherIp mode
      now).2 = none ↔
      accepts mode (isUsb transport isUsbTetherIp) { addr with port := audioUdpPort } = false := by
  unfold handlePresence
  dsimp only
  split
  · next hrefused => exact iff_of_true rfl (by simpa using hrefused)
  · next haccepted => exact iff_of_false nofun (by simpa using haccepted)

theorem mem_staleStreamers {order : List DeviceId} :
    id ∈ context.staleStreamers order now ↔ ∃ ts, context.streamerLastSeen.lookup id = some ts ∧
      seconds streamerHeartbeatTimeoutSecs ≤ now - ts := by
  unfold staleStreamers
  rw [List.mem_filter, Table.mem_keysInOrder, Table.mem_iff]
  constructor
  · rintro ⟨⟨ts, hts⟩, hstale⟩
    rw [hts] at hstale
    exact ⟨ts, hts, of_decide_eq_true hstale⟩
  · rintro ⟨ts, hts, hstale⟩
    refine ⟨⟨ts, hts⟩, ?_⟩
    rw [hts]
    exact decide_eq_true hstale

theorem lookup_remove (stale : List DeviceId) :
    (context.remove stale).streamerLastSeen.lookup id =
      if id ∈ stale then none else context.streamerLastSeen.lookup id := by
  induction stale generalizing context with
  | nil => rfl
  | cons first stale ih =>
    have hrest : (remove { context with
        streamerLastSeen := context.streamerLastSeen.erase first } stale).streamerLastSeen.lookup
          id = _ := ih
    refine hrest.trans ?_
    rw [Table.lookup_erase_eq]
    by_cases hstale : id ∈ stale
    · rw [if_pos hstale, if_pos (List.mem_cons_of_mem _ hstale)]
    · by_cases hfirst : id = first
      · rw [if_neg hstale, if_pos hfirst, if_pos (hfirst ▸ List.mem_cons_self)]
      · rw [if_neg hstale, if_neg hfirst,
          if_neg (List.mem_cons.not.mpr (not_or.mpr ⟨hfirst, hstale⟩))]

end DispatchContext

end Gemacast.Phone
