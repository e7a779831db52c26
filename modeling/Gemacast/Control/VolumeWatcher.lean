import Gemacast.Control.ControlSockets

/-!
# The volume watcher

A task of the PC reads the output volume four times a second. When it has changed noticeably
since the last level it sent, the new one is sent to every control socket that is registered
then. A Connect is answered with the level read at that moment. What the watcher has sent is
one memo for all phones.
-/

namespace Gemacast.Control

open Gemacast.Core Gemacast.Streamer

/-- The level an event tells. -/
def WsEvent.volume : WsEvent → Option SoftFloat
  | .volumeChanged level => some level
  | _ => none

/-- How much the volume has to change to be sent. -/
def epsilon : SoftFloat := 0.004

/-- The volume differs noticeably from the level sent last. -/
def isMeaningfulChange (previous : Option SoftFloat) (current : SoftFloat) : Bool :=
  match previous with
  | none => true
  | some previous => decide (epsilon ≤ Binary32.abs (previous - current))

/-- The watcher among the tasks that send events. -/
def volumeWatcher : EventSender := .task 0

namespace ControlSockets

/-- A step other than that of the watcher, which alone sends levels. -/
def Step.others : Step → Bool
  | .send sender _ event | .broadcast sender _ event =>
    decide (sender ≠ volumeWatcher) && event.volume.isNone
  | _ => true

/-- The level a step writes to a phone. -/
def written (s : ControlSockets) : Step → Option (DeviceId × SoftFloat)
  | .written id true =>
    match s.sockets.lookup id with
    | some socket =>
      match socket.phase with
      | .writing posted => posted.event.volume.map fun level => (socket.deviceId, level)
      | _ => none
    | none => none
  | _ => none

/-- What the phones were told after a step of the sockets. -/
def toldAfter (s : ControlSockets) (told : Table DeviceId SoftFloat) (i : Step) :
    Table DeviceId SoftFloat :=
  match s.written i with
  | some (deviceId, level) => told.insert deviceId level
  | none => told

end ControlSockets

/-- The watcher with all it looks at. -/
structure VolumeWatcher where
  /-- The control sockets. -/
  sockets : ControlSockets
  /-- The connected devices. -/
  registry : DeviceRegistry
  /-- The output volume. -/
  level : SoftFloat
  /-- The level sent last. -/
  lastSent : Option SoftFloat
  /-- The level a phone was told last; read by no code. -/
  told : Table DeviceId SoftFloat
  /-- The devices that have registered and have no answer to their Connect yet; read by no
  code. -/
  joining : List DeviceId
  /-- The volume has not changed since a tick of the watcher; read by no code. -/
  settled : Bool

namespace VolumeWatcher

/-- One step. -/
inductive Step
  /-- The output volume changes. -/
  | changeLevel (level : SoftFloat)
  /-- The dispatcher registers the device of a Connect. -/
  | join (device : DiscoveredDevice)
  /-- The Connect is answered; `ok` tells whether the volume could be read. -/
  | respond (deviceId : DeviceId) (ok : Bool)
  /-- A device is removed from the registry. -/
  | leave (deviceId : DeviceId)
  /-- The watcher ticks; `ok` tells whether the volume can be read. -/
  | tick (order : List DeviceId) (ok : Bool)
  /-- A step of the sockets and of those who send to them. -/
  | sockets (i : ControlSockets.Step)
  deriving DecidableEq

/-- Nothing is connected. -/
def new : VolumeWatcher := ⟨.new, ∅, .zero false, none, ∅, [], false⟩

/-- One tick of the watcher. -/
def pollOnce (s : VolumeWatcher) (order : List DeviceId) (ok : Bool) : VolumeWatcher :=
  if Table.isEmpty s.registry then { s with lastSent := none, settled := true }
  else if !ok then s
  else if !isMeaningfulChange s.lastSent s.level then { s with settled := true }
  else
    { s with
      lastSent := some s.level
      settled := true
      sockets := s.sockets.step (.broadcast volumeWatcher order (.volumeChanged s.level)) }

/-- One step; a step that is not due changes nothing. -/
def step (s : VolumeWatcher) : Step → VolumeWatcher
  | .changeLevel level => { s with level, settled := false }
  | .join device =>
    { s with
      registry := (s.registry.register device).1
      joining :=
        if (s.registry.lookup device.deviceId).isSome then s.joining
        else device.deviceId :: s.joining }
  | .respond deviceId ok =>
    { s with
      told := if ok then s.told.insert deviceId s.level else s.told
      joining := s.joining.filter (· ≠ deviceId) }
  | .leave deviceId =>
    { s with
      registry := (s.registry.unregister deviceId).1
      joining := s.joining.filter (· ≠ deviceId) }
  | .tick order ok =>
    if s.sockets.outstanding volumeWatcher = [] then s.pollOnce order ok else s
  | .sockets i =>
    if i.others then
      { s with sockets := s.sockets.step i, told := s.sockets.toldAfter s.told i }
    else s

/-- The watcher as a machine. -/
def machine : Machine VolumeWatcher Step Unit where
  init := new
  step s i := (s.step i, ())

/-- A level is what the volume is, as nearly as the watcher tells levels apart. -/
def Near (told : Option SoftFloat) (level : SoftFloat) : Prop :=
  ∃ last, told = some last ∧ isMeaningfulChange (some last) level = false

/-- No event is on its way. -/
def Drained (s : ControlSockets) : Prop :=
  (∀ id socket, s.sockets.lookup id = some socket →
    socket.queue = [] ∧ ∀ posted, socket.phase ≠ .writing posted) ∧
  ∀ sender, s.outstanding sender = []

/-- When the volume has not changed over a tick and no event is on its way, every connected
device with an open socket was told what it is. -/
def Informed (s : VolumeWatcher) : Prop :=
  s.settled = true → Drained s.sockets → ∀ id socket, s.sockets.sockets.lookup id = some socket →
    socket.phase.served = true → (s.registry.lookup socket.deviceId).isSome = true →
    Near (s.told.lookup socket.deviceId) s.level

end VolumeWatcher

end Gemacast.Control
