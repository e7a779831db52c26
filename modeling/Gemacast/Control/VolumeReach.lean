import Gemacast.Control.VolumeHeard

/-!
# When every phone knows the volume

A device is told the volume when it connects and whenever the watcher sends a level while a
socket of it is registered. As the memo of the watcher is one for all, a device that was told
something else and has no socket open at the tick that sends is never told. It is told in every
run in which that does not happen, and in which no level gets lost with its socket.
-/

namespace Gemacast.Control

open Gemacast.Core Gemacast.Streamer

namespace ControlSockets

variable {s s' : ControlSockets} {id k target : ℕ} {socket socket' : ControlSocket}
  {posted : Posted} {i : Step} {deviceId : DeviceId} {told : Table DeviceId SoftFloat}
  {level : SoftFloat}

/-- The registered socket of a device is in its loop. -/
def Listens (s : ControlSockets) (deviceId : DeviceId) : Prop :=
  ∃ id, s.connections.lookup deviceId = some id ∧ s.loops id = true

theorem pending_of_entry (hid : s.connections.lookup deviceId = some id)
    (hloop : s.loops id = true) : s.pending deviceId = s.underWay id := by
  unfold pending
  rw [hid]
  exact if_pos hloop

theorem pending_of_not_loops (hid : s.connections.lookup deviceId = some id)
    (hloop : s.loops id = false) : s.pending deviceId = [] := by
  unfold pending
  rw [hid]
  simp only [hloop, Bool.false_eq_true, if_false]

theorem pending_of_none (hnone : s.connections.lookup deviceId = none) :
    s.pending deviceId = [] := by
  unfold pending
  rw [hnone]

/-- What is on its way to a device whose registered socket does what it did. -/
theorem pending_congr (hentry : s'.connections.lookup deviceId = s.connections.lookup deviceId)
    (hsame : ∀ id, s.connections.lookup deviceId = some id →
      s'.loops id = s.loops id ∧ (s.loops id = true → s'.underWay id = s.underWay id)) :
    s'.pending deviceId = s.pending deviceId := by
  cases hid : s.connections.lookup deviceId with
  | none => rw [pending_of_none hid, pending_of_none (hentry.trans hid)]
  | some id =>
    obtain ⟨hloops, hunderWay⟩ := hsame id hid
    cases hloop : s.loops id with
    | false =>
      rw [pending_of_not_loops hid hloop,
        pending_of_not_loops (hentry.trans hid) (hloops.trans hloop)]
    | true =>
      rw [pending_of_entry hid hloop, pending_of_entry (hentry.trans hid) (hloops.trans hloop),
        hunderWay hloop]

/-- A socket whose task has not begun has nothing on its way to it. -/
theorem Lanes.underWay_of_upgrading (h : s.Lanes) (hsocket : s.sockets.lookup id = some socket)
    (hphase : socket.phase = .upgrading) : s.underWay id = [] := by
  have hcoming : s.coming id = [] := by
    refine List.filterMap_eq_nil_iff.mpr fun entry hmem => ?_
    split
    · next heq =>
      obtain ⟨other, hother, hbegun⟩ := h.targets volumeWatcher entry hmem
      rw [heq] at hother
      obtain rfl := Option.some.inj (hsocket.symm.trans hother)
      exact absurd hphase hbegun
    · rfl
  rw [underWay_of_lookup hsocket, hcoming, ControlSocket.volumes, hphase,
    h.empty id socket hsocket hphase]
  rfl

/-- What is registered for a device belongs to it. -/
theorem Lanes.device (h : s.Lanes) (hid : s.connections.lookup deviceId = some id)
    (hsocket : s.sockets.lookup id = some socket) : socket.deviceId = deviceId := by
  obtain ⟨-, other, hother, hdevice⟩ := h.entries deviceId id hid
  obtain rfl := Option.some.inj (hsocket.symm.trans hother)
  exact hdevice

/-- The step takes no socket of a device out of its loop while a level is on its way to it. -/
def KeepsLevels (s : ControlSockets) (i : Step) (deviceId : DeviceId) : Prop :=
  ∀ id socket, s.sockets.lookup id = some socket → socket.deviceId = deviceId →
    s.loops id = true → (s.step i).loops id = false → s.underWay id = []

/-- The step opens no socket of a device while a level is on its way to another. -/
def OpensQuietly (s : ControlSockets) (i : Step) : Prop :=
  ∀ id socket, i = .register id → s.sockets.lookup id = some socket →
    socket.phase = .upgrading → s.pending socket.deviceId = []

theorem toldAfter_of_silent (hsilent : s.written i = none) : s.toldAfter told i = told := by
  rw [toldAfter, hsilent]

/-- Only a socket that closes or cannot be written to leaves its loop. -/
theorem Lanes.keepsLevels (h : s.Lanes) (hothers : i.others = true)
    (hcloses : ∀ id, i ≠ .receive id .close) (hfails : ∀ id, i ≠ .written id false) :
    s.KeepsLevels i deviceId := by
  intro k socket hsocket hdevice hloop hlost
  cases h.carries_step hothers with
  | same hsilent hconnections hloops hunderWay =>
    rw [hloops, hloop] at hlost
    cases hlost
  | opens hi hopened hphase hconnections hloops hunderWay =>
    rw [hloops, hloop, ite_self] at hlost
    cases hlost
  | @drops id _ hi hdropped hlooped hconnections hloops hunderWay =>
    obtain rfl | rfl := hi
    · exact absurd rfl (hcloses id)
    · exact absurd rfl (hfails id)
  | tells hi htold hphase hlevel hconnections hloops hunderWay hfirst =>
    rw [hloops, hloop] at hlost
    cases hlost
  | removes hi hremoved hphase hconnections hloops hunderWay =>
    rw [hloops, hloop] at hlost
    cases hlost

/-- No step of the others changes what a device will have heard last. -/
theorem Lanes.hears_step (h : s.Lanes) (hregistered : s.Registered) (hothers : i.others = true)
    (hkeeps : s.KeepsLevels i deviceId) (hopens : s.OpensQuietly i) :
    (s.step i).hears (s.toldAfter told i) deviceId = s.hears told deviceId := by
  unfold hears
  cases h.carries_step hothers with
  | same hsilent hconnections hloops hunderWay =>
    rw [toldAfter_of_silent hsilent,
      pending_congr (by rw [hconnections]) fun k _ => ⟨hloops k, hunderWay k⟩]
  | @opens id socket hi hsocket hphase hconnections hloops hunderWay =>
    subst hi
    rw [toldAfter_of_silent rfl]
    by_cases hdevice : deviceId = socket.deviceId
    · subst hdevice
      have hself : (s.step (.register id)).connections.lookup socket.deviceId = some id := by
        rw [hconnections, AList.lookup_insert]
      rw [pending_of_entry hself ((hloops id).trans (if_pos rfl)), hunderWay,
        h.underWay_of_upgrading hsocket hphase, hopens id socket rfl hsocket hphase]
    · congr 2
      refine pending_congr (by rw [hconnections, AList.lookup_insert_ne hdevice]) fun k hk => ?_
      have hne : k ≠ id := by
        rintro rfl
        exact hdevice (h.device hk hsocket).symm
      exact ⟨(hloops k).trans (if_neg hne), fun _ => hunderWay k⟩
  | @drops id socket hi hsocket hloop hconnections hloops hunderWay =>
    have hsilent : s.written i = none := by
      obtain rfl | rfl := hi <;> rfl
    rw [toldAfter_of_silent hsilent]
    congr 2
    cases hid : s.connections.lookup deviceId with
    | none => rw [pending_of_none hid, pending_of_none (by rw [hconnections, hid])]
    | some k =>
      by_cases heq : k = id
      · subst heq
        have hlost : (s.step i).loops k = false := (hloops k).trans (if_pos rfl)
        have hlooped : s.loops k = true := (loops_of_lookup hsocket).trans hloop
        rw [pending_of_not_loops (by rw [hconnections, hid]) hlost, pending_of_entry hid hlooped,
          hkeeps k socket hsocket (h.device hid hsocket) hlooped hlost]
      · refine pending_congr (by rw [hconnections]) fun k' hk' => ?_
        obtain rfl := Option.some.inj (hid.symm.trans hk')
        exact ⟨(hloops k).trans (if_neg heq), fun _ => hunderWay k heq⟩
  | @tells id socket posted level hi hsocket hphase hlevel hconnections hloops hunderWay hfirst =>
    subst hi
    have hloop : s.loops id = true := by rw [loops_of_lookup hsocket, hphase]; rfl
    obtain ⟨owner, howner⟩ := hregistered id hloop (by rw [hfirst]; nofun)
    obtain rfl := h.device howner hsocket
    have htold : s.toldAfter told (.written id true) = told.insert socket.deviceId level := by
      simp only [toldAfter, ControlSockets.written, hsocket, hphase, hlevel, Option.map_some]
    rw [htold]
    by_cases hdevice : deviceId = socket.deviceId
    · subst hdevice
      rw [pending_of_entry (by rw [hconnections, howner]) ((hloops id).trans hloop),
        pending_of_entry howner hloop, hfirst, AList.lookup_insert, List.getLast?_cons]
      cases ((s.step (.written id true)).underWay id).getLast? <;> rfl
    · rw [AList.lookup_insert_ne hdevice]
      congr 2
      refine pending_congr (by rw [hconnections]) fun k hk => ?_
      have hne : k ≠ id := by
        rintro rfl
        exact hdevice (h.device hk hsocket).symm
      exact ⟨hloops k, fun _ => hunderWay k hne⟩
  | @removes id socket hi hsocket hphase hconnections hloops hunderWay =>
    subst hi
    rw [toldAfter_of_silent rfl]
    congr 2
    by_cases hown : s.connections.lookup deviceId = some id ∧ deviceId = socket.deviceId
    · have hleft : s.loops id = false := by rw [loops_of_lookup hsocket, hphase]; rfl
      rw [pending_of_none ((hconnections deviceId).trans (if_pos hown)),
        pending_of_not_loops hown.1 hleft]
    · exact pending_congr ((hconnections deviceId).trans (if_neg hown))
        fun k _ => ⟨hloops k, hunderWay k⟩

/-- Levels stay on their way to sockets that are registered. -/
theorem Lanes.registered_step (h : s.Lanes) (hregistered : s.Registered)
    (hothers : i.others = true) (hopens : s.OpensQuietly i) : (s.step i).Registered := by
  intro k hloop hunder
  cases h.carries_step hothers with
  | same hsilent hconnections hloops hunderWay =>
    rw [hloops] at hloop
    rw [hunderWay k hloop] at hunder
    rw [hconnections]
    exact hregistered k hloop hunder
  | @opens id socket hi hsocket hphase hconnections hloops hunderWay =>
    rw [hunderWay] at hunder
    have hne : k ≠ id := by
      rintro rfl
      exact hunder (h.underWay_of_upgrading hsocket hphase)
    rw [hloops, if_neg hne] at hloop
    obtain ⟨deviceId, hentry⟩ := hregistered k hloop hunder
    refine ⟨deviceId, ?_⟩
    rw [hconnections, AList.lookup_insert_ne]
    · exact hentry
    · rintro rfl
      have hquiet := hopens id socket hi hsocket hphase
      rw [pending_of_entry hentry hloop] at hquiet
      exact hunder hquiet
  | @drops id socket hi hsocket hlooped hconnections hloops hunderWay =>
    rw [hloops] at hloop
    split at hloop
    · cases hloop
    next hne =>
    rw [hunderWay k hne] at hunder
    rw [hconnections]
    exact hregistered k hloop hunder
  | @tells id socket posted level hi hsocket hphase hlevel hconnections hloops hunderWay hfirst =>
    rw [hloops] at hloop
    rw [hconnections]
    refine hregistered k hloop ?_
    by_cases heq : k = id
    · rw [heq, hfirst]
      nofun
    · rwa [hunderWay k heq] at hunder
  | @removes id socket hi hsocket hphase hconnections hloops hunderWay =>
    rw [hloops] at hloop
    rw [hunderWay k hloop] at hunder
    obtain ⟨deviceId, hentry⟩ := hregistered k hloop hunder
    refine ⟨deviceId, ?_⟩
    rw [hconnections, if_neg]
    · exact hentry
    · rintro ⟨hid, -⟩
      obtain rfl := Option.some.inj (hentry.symm.trans hid)
      rw [loops_of_lookup hsocket, hphase] at hloop
      cases hloop

/-- A socket of the same device was served. -/
def WasServed (s : ControlSockets) (k : ℕ) (socket : ControlSocket) : Prop :=
  ∃ before, s.sockets.lookup k = some before ∧ before.deviceId = socket.deviceId ∧
    before.phase.served = true

/-- A socket is written down with its device, served only if it was. -/
theorem wasServed_put {new : ControlSocket}
    (h : (s.put id new).sockets.lookup k = some socket') (hserved : socket'.phase.served = true)
    (hsocket : s.sockets.lookup id = some socket) (hdevice : new.deviceId = socket.deviceId)
    (hbefore : new.phase.served = true → socket.phase.served = true) : s.WasServed k socket' := by
  obtain ⟨rfl, rfl⟩ | hother := lookup_put_cases h
  · exact ⟨socket, hsocket, hdevice.symm, hbefore hserved⟩
  · exact ⟨socket', hother, rfl, hserved⟩

/-- An event that enters a channel leaves all sockets served that were. -/
theorem wasServed_offer (hoffer : s.offer target posted = some s')
    (h : s'.sockets.lookup k = some socket') (hserved : socket'.phase.served = true) :
    s.WasServed k socket' := by
  obtain rfl | ⟨socket, hsocket, -, -, rfl⟩ := offer_cases hoffer
  · exact ⟨socket', h, rfl, hserved⟩
  · exact wasServed_put h hserved hsocket rfl id

/-- A served socket was served before, or has just registered. -/
theorem served_of_step (h : (s.step i).sockets.lookup k = some socket')
    (hserved : socket'.phase.served = true) : s.WasServed k socket' ∨ i = .register k ∧
      ∃ socket, s.sockets.lookup k = some socket ∧ socket.deviceId = socket'.deviceId ∧
        socket.phase = .upgrading := by
  obtain hsame | hfires := s.step_fires i
  · rw [hsame] at h
    exact .inl ⟨socket', h, rfl, hserved⟩
  generalize s.step i = s' at hfires h
  cases hfires with
  | connect pending => exact .inl ⟨socket', h, rfl, hserved⟩
  | revoke deviceId generation => exact .inl ⟨socket', h, rfl, hserved⟩
  | revokeAll => exact .inl ⟨socket', h, rfl, hserved⟩
  | send hidle hid => exact .inl ⟨socket', h, rfl, hserved⟩
  | broadcast order event hidle => exact .inl ⟨socket', h, rfl, hserved⟩
  | submit command hroom => exact .inl ⟨socket', h, rfl, hserved⟩
  | dispatch hidle => exact .inl ⟨socket', h, rfl, hserved⟩
  | upgrade hsession =>
    obtain ⟨-, rfl⟩ | hother := lookup_put_cases h
    · nomatch hserved
    · exact .inl ⟨socket', hother, rfl, hserved⟩
  | register hsocket hphase =>
    obtain ⟨rfl, rfl⟩ | hother := lookup_put_cases h
    · exact .inr ⟨rfl, _, hsocket, rfl, hphase⟩
    · exact .inl ⟨socket', hother, rfl, hserved⟩
  | receive hsocket hphase =>
    exact .inl (wasServed_put h hserved hsocket rfl (by rw [hphase]; exact id))
  | hangUp hsocket hphase =>
    exact .inl (wasServed_put h hserved hsocket rfl (by rw [hphase]; exact id))
  | handOver hsocket hphase hroom hnext =>
    exact .inl (wasServed_put h hserved hsocket rfl (by rw [hphase]; exact fun _ => rfl))
  | giveUp hsocket hphase =>
    exact .inl (wasServed_put h hserved hsocket rfl (by rw [hphase]; exact id))
  | acknowledge hsocket hphase htarget =>
    exact .inl (wasServed_put h hserved hsocket rfl (by rw [hphase]; exact id))
  | answer hsocket hphase hoffer hafter =>
    obtain ⟨before, hbefore, hdevice, hwas⟩ :=
      wasServed_put h hserved hafter rfl (by rw [hphase]; exact id)
    obtain ⟨first, hfirst, hdevice', hwas'⟩ := wasServed_offer hoffer hbefore hwas
    exact .inl ⟨first, hfirst, hdevice'.trans hdevice, hwas'⟩
  | take hsocket hphase hqueue =>
    exact .inl (wasServed_put h hserved hsocket rfl (by rw [hphase]; exact id))
  | written hsocket hphase =>
    exact .inl (wasServed_put h hserved hsocket rfl (by rw [hphase]; exact fun _ => rfl))
  | remove hsocket hphase => exact .inl (wasServed_put h hserved hsocket rfl nofun)
  | finish hsocket hphase => exact .inl (wasServed_put h hserved hsocket rfl nofun)
  | notifyError hid hoffer => exact .inl (wasServed_offer hoffer h hserved)
  | deliver houtstanding hoffer => exact .inl (wasServed_offer hoffer h hserved)

/-! ### The watcher sends -/

/-- The watcher, when idle, takes up a level for every socket registered. -/
theorem step_broadcast (order : List DeviceId) (event : WsEvent)
    (hidle : s.outstanding volumeWatcher = []) : s.step (.broadcast volumeWatcher order event) =
      { s with senders := s.senders.insert volumeWatcher (s.targets order event) } :=
  if_pos hidle

/-- A level comes to the sockets registered. -/
theorem coming_broadcast (order : List DeviceId) (hidle : s.outstanding volumeWatcher = []) :
    (∀ other ∈ (s.step (.broadcast volumeWatcher order (.volumeChanged level))).coming k,
      other = level) ∧
    ((s.step (.broadcast volumeWatcher order (.volumeChanged level))).coming k ≠ [] ↔
      ∃ deviceId, s.connections.lookup deviceId = some k) := by
  have hcoming : (s.step (.broadcast volumeWatcher order (.volumeChanged level))).coming k =
      (s.targets order (.volumeChanged level)).filterMap fun entry =>
        if entry.1 = k then entry.2.event.volume else none := by
    rw [step_broadcast order _ hidle, coming, outstanding_insert, if_pos rfl]
  rw [hcoming]
  have hentry (entry : ℕ × Posted) (hmem : entry ∈ s.targets order (.volumeChanged level)) :
      entry.2.event = .volumeChanged level ∧
        ∃ deviceId, s.connections.lookup deviceId = some entry.1 := by
    obtain ⟨deviceId, -, hentry⟩ := List.mem_filterMap.mp hmem
    obtain ⟨id, hid, rfl⟩ := Option.map_eq_some_iff.mp hentry
    exact ⟨rfl, deviceId, hid⟩
  refine ⟨fun other hmem => ?_, fun hne => ?_, ?_⟩
  · obtain ⟨entry, hin, hsome⟩ := List.mem_filterMap.mp hmem
    split at hsome
    · rw [(hentry entry hin).1] at hsome
      exact (Option.some.inj hsome).symm
    · cases hsome
  · obtain ⟨other, hmem⟩ := List.exists_mem_of_ne_nil _ hne
    obtain ⟨entry, hin, hsome⟩ := List.mem_filterMap.mp hmem
    split at hsome
    · next heq => exact heq ▸ (hentry entry hin).2
    · cases hsome
  · rintro ⟨deviceId, hid⟩
    have hmem : (k, ⟨.volumeChanged level, s.epoch deviceId⟩) ∈
        s.targets order (.volumeChanged level) := by
      refine List.mem_filterMap.mpr ⟨deviceId, ?_, ?_⟩
      · exact Table.mem_keysInOrder.mpr (Table.mem_iff.mpr ⟨k, hid⟩)
      · rw [hid, Option.map_some]
    have hlevel : level ∈ (s.targets order (.volumeChanged level)).filterMap fun entry =>
        if entry.1 = k then entry.2.event.volume else none :=
      List.mem_filterMap.mpr ⟨_, hmem, if_pos rfl⟩
    exact List.ne_nil_of_mem hlevel

/-- The sockets stay as they are while the watcher takes up a level. -/
theorem loops_broadcast (order : List DeviceId) (event : WsEvent)
    (hidle : s.outstanding volumeWatcher = []) :
    (s.step (.broadcast volumeWatcher order event)).loops k = s.loops k := by
  rw [step_broadcast order event hidle]
  rfl

/-- The level comes after what was on its way. -/
theorem underWay_broadcast (order : List DeviceId) (event : WsEvent)
    (hidle : s.outstanding volumeWatcher = []) :
    (s.step (.broadcast volumeWatcher order event)).underWay k =
      s.underWay k ++ (s.step (.broadcast volumeWatcher order event)).coming k := by
  have hnone : s.coming k = [] := by
    rw [coming, hidle]
    rfl
  rw [underWay, underWay, hnone, List.append_nil, step_broadcast order event hidle]

/-- Levels stay on their way to sockets that are registered when the watcher sends. -/
theorem Registered.broadcast (h : s.Registered) (order : List DeviceId)
    (hidle : s.outstanding volumeWatcher = []) :
    (s.step (.broadcast volumeWatcher order (.volumeChanged level))).Registered := by
  intro k hloop hunder
  rw [loops_broadcast order _ hidle] at hloop
  rw [underWay_broadcast order _ hidle] at hunder
  have hentry : ∃ deviceId, s.connections.lookup deviceId = some k := by
    by_cases hbefore : s.underWay k = []
    · rw [hbefore, List.nil_append] at hunder
      exact (coming_broadcast order hidle).2.mp hunder
    · exact h k hloop hbefore
  rw [step_broadcast order _ hidle]
  exact hentry

theorem connections_broadcast (order : List DeviceId) (event : WsEvent)
    (hidle : s.outstanding volumeWatcher = []) :
    (s.step (.broadcast volumeWatcher order event)).connections = s.connections := by
  rw [step_broadcast order event hidle]

/-- A device that listens when the watcher sends will have heard the level last. -/
theorem hears_of_listens (told : Table DeviceId SoftFloat) (level : SoftFloat)
    (order : List DeviceId) (hidle : s.outstanding volumeWatcher = [])
    (hlistens : s.Listens deviceId) :
    (s.step (.broadcast volumeWatcher order (.volumeChanged level))).hears told deviceId =
      some level := by
  obtain ⟨id, hid, hloop⟩ := hlistens
  obtain ⟨hall, hsome⟩ : (∀ other ∈
      (s.step (.broadcast volumeWatcher order (.volumeChanged level))).coming id,
        other = level) ∧ _ := coming_broadcast order hidle
  have hne := hsome.mpr ⟨deviceId, hid⟩
  have hlast : ((s.step (.broadcast volumeWatcher order (.volumeChanged level))).coming
      id).getLast? = some level := by
    rw [List.getLast?_eq_some_getLast hne, hall _ (List.getLast_mem hne)]
  rw [hears, pending_of_entry ((congrArg _ (connections_broadcast order _ hidle)).trans hid)
    ((loops_broadcast order _ hidle).trans hloop), underWay_broadcast order _ hidle,
    List.getLast?_append, hlast]
  rfl

/-- A device that does not listen when the watcher sends hears nothing. -/
theorem hears_of_deaf (told : Table DeviceId SoftFloat) (event : WsEvent)
    (order : List DeviceId) (hidle : s.outstanding volumeWatcher = [])
    (hdeaf : ¬s.Listens deviceId) :
    (s.step (.broadcast volumeWatcher order event)).hears told deviceId =
      s.hears told deviceId := by
  unfold hears
  congr 2
  refine pending_congr (by rw [connections_broadcast order _ hidle]) fun id hid =>
    ⟨loops_broadcast order _ hidle, fun hloop => ?_⟩
  exact absurd ⟨id, hid, hloop⟩ hdeaf

end ControlSockets

/-! ### Runs in which every phone is told -/

namespace VolumeWatcher

/-- A device is connected. -/
def Connected (s : VolumeWatcher) (deviceId : DeviceId) : Prop :=
  (s.registry.lookup deviceId).isSome = true

/-- The level a device will have heard last. -/
def hears (s : VolumeWatcher) (deviceId : DeviceId) : Option SoftFloat :=
  s.sockets.hears s.told deviceId

/-- A step leaves nobody behind: at a tick, every connected device that has its answer will have
heard the level last, or the watcher sends and the device listens; a Connect that connects a
device is answered with a level, finds no socket of the device and is answered before one
opens; and no socket is opened or lost while a level is on its way. -/
def Heeds (s : VolumeWatcher) : Step → Prop
  | .tick _ ok => s.sockets.outstanding volumeWatcher = [] → ok = true → ∀ deviceId,
    s.Connected deviceId → deviceId ∉ s.joining → Near (s.hears deviceId) s.level ∨
      isMeaningfulChange s.lastSent s.level = true ∧ s.sockets.Listens deviceId
  | .respond deviceId ok => deviceId ∈ s.joining → ok = true
  | .join device => ¬s.Connected device.deviceId → ∀ id socket,
    s.sockets.sockets.lookup id = some socket → socket.deviceId = device.deviceId →
      socket.phase.served = false
  | .sockets i => (∀ deviceId, s.Connected deviceId → s.sockets.KeepsLevels i deviceId) ∧
    s.sockets.OpensQuietly i ∧ ∀ id socket, i = .register id →
      s.sockets.sockets.lookup id = some socket → socket.deviceId ∉ s.joining
  | _ => True

/-- What holds in every state of a run that leaves nobody behind. -/
structure Heard (s : VolumeWatcher) : Prop where
  /-- Who sends what to whom. -/
  lanes : s.sockets.Lanes
  /-- Levels are on their way only to sockets that are registered. -/
  registered : s.sockets.Registered
  /-- Whoever is connected and has its answer will have heard the volume. -/
  near : s.settled = true → ∀ deviceId, s.Connected deviceId → deviceId ∉ s.joining →
    Near (s.hears deviceId) s.level
  /-- Whoever waits for its answer has no socket open. -/
  joining : ∀ deviceId ∈ s.joining, ∀ id socket, s.sockets.sockets.lookup id = some socket →
    socket.deviceId = deviceId → socket.phase.served = false

variable {s : VolumeWatcher} {deviceId : DeviceId} {i : Step}

theorem heard_new : new.Heard :=
  ⟨ControlSockets.lanes_new, nofun, nofun, fun _ hmem => nomatch hmem⟩

/-- A level does not differ from itself. -/
theorem isMeaningfulChange_self (level : SoftFloat) :
    isMeaningfulChange (some level) level = false := by
  have hnan (x : SoftFloat) : x.le .nan = false := by cases x <;> rfl
  refine decide_eq_false fun hle => ?_
  cases level with
  | nan => nomatch (hnan epsilon).symm.trans hle
  | inf negative =>
    cases negative
    · nomatch (hnan epsilon).symm.trans hle
    · nomatch (hnan epsilon).symm.trans hle
  | finite negative m e =>
    have hneg : SoftFloat.scaled (!negative) m e (min e e) =
        -SoftFloat.scaled negative m e (min e e) := by
      cases negative <;> simp [SoftFloat.scaled]
    have hzero : SoftFloat.finite negative m e - .finite negative m e =
        .zero (negative && !negative) := by
      change SoftFloat.sub (.finite negative m e) (.finite negative m e) = _
      rw [SoftFloat.sub, SoftFloat.neg, SoftFloat.add]
      simp only [hneg, add_neg_cancel, if_true]
    rw [hzero] at hle
    have habove : SoftFloat.le epsilon (.zero false) = false := by decide +kernel
    nomatch habove.symm.trans hle

theorem near_self (level : SoftFloat) : Near (some level) level :=
  ⟨level, rfl, isMeaningfulChange_self level⟩

/-- When no event is on its way, a device has heard what it was told. -/
theorem hears_of_drained (hdrained : Drained s.sockets) :
    s.hears deviceId = s.told.lookup deviceId := by
  obtain ⟨hsockets, hsenders⟩ := hdrained
  have hnone : s.sockets.pending deviceId = [] := by
    cases hid : s.sockets.connections.lookup deviceId with
    | none => exact ControlSockets.pending_of_none hid
    | some id =>
      cases hloop : s.sockets.loops id with
      | false => exact ControlSockets.pending_of_not_loops hid hloop
      | true =>
        rw [ControlSockets.pending_of_entry hid hloop, ControlSockets.underWay,
          ControlSockets.coming, hsenders]
        cases hsocket : s.sockets.sockets.lookup id with
        | none => rfl
        | some socket =>
          obtain ⟨hqueue, hidle⟩ := hsockets id socket hsocket
          have hvolume : socket.phase.volume = none := by
            cases hphase : socket.phase with
            | writing posted => exact absurd hphase (hidle posted)
            | _ => rfl
          rw [Option.elim_some, ControlSocket.volumes, hqueue, hvolume]
          rfl
  rw [hears, ControlSockets.hears, hnone]
  rfl

/-- Where nobody is left behind, everybody is informed. -/
theorem Heard.informed (h : s.Heard) : s.Informed := by
  intro hsettled hdrained id socket hsocket hserved hconnected
  have hanswered : socket.deviceId ∉ s.joining := by
    intro hmem
    nomatch (h.joining _ hmem id socket hsocket rfl).symm.trans hserved
  have hnear := h.near hsettled socket.deviceId hconnected hanswered
  rwa [hears_of_drained hdrained] at hnear

/-- A device that has no socket open has nothing on its way to it. -/
theorem Heard.pending_of_joining (h : s.Heard) (hmem : deviceId ∈ s.joining) :
    s.sockets.pending deviceId = [] := by
  cases hid : s.sockets.connections.lookup deviceId with
  | none => exact ControlSockets.pending_of_none hid
  | some id =>
    obtain ⟨-, socket, hsocket, hdevice⟩ := h.lanes.entries deviceId id hid
    have hserved := h.joining deviceId hmem id socket hsocket hdevice
    refine ControlSockets.pending_of_not_loops hid ?_
    rw [ControlSockets.loops_of_lookup hsocket]
    cases hphase : socket.phase with
    | upgrading | closing | closed | leaving => rfl
    | _ =>
      rw [hphase] at hserved
      nomatch hserved

/-- A step of the sockets leaves nobody behind. -/
theorem Heard.sockets (h : s.Heard) {j : ControlSockets.Step} (hok : s.Heeds (.sockets j)) :
    (s.step (.sockets j)).Heard := by
  obtain ⟨hkeeps, hopens, hanswered⟩ := hok
  simp only [VolumeWatcher.step]
  split
  · next hothers =>
    refine ⟨h.lanes.step (.inl hothers), h.lanes.registered_step h.registered hothers hopens,
      fun hsettled deviceId hconnected hmem => ?_,
        fun deviceId hmem id socket hsocket hdevice => ?_⟩
    · have hsame : (s.sockets.step j).hears (s.sockets.toldAfter s.told j) deviceId =
          s.hears deviceId :=
        h.lanes.hears_step h.registered hothers (hkeeps deviceId hconnected) hopens
      rw [hears, hsame]
      exact h.near hsettled deviceId hconnected hmem
    · by_contra hserved
      obtain ⟨before, hbefore, hsame, hwas⟩ | ⟨rfl, before, hbefore, hsame, -⟩ :=
        ControlSockets.served_of_step hsocket (Bool.eq_true_of_not_eq_false hserved)
      · nomatch (h.joining deviceId hmem id before hbefore (hsame.trans hdevice)).symm.trans hwas
      · exact hanswered id before rfl hbefore ((hsame.trans hdevice).symm ▸ hmem)
  · exact h

/-- A tick leaves nobody behind. -/
theorem Heard.tick (h : s.Heard) {order : List DeviceId} {ok : Bool}
    (hok : s.Heeds (.tick order ok)) : (s.step (.tick order ok)).Heard := by
  simp only [VolumeWatcher.step]
  split
  · next hidle =>
    unfold pollOnce
    split
    · next hempty =>
      refine ⟨h.lanes, h.registered, fun _ deviceId hconnected => ?_, h.joining⟩
      have hnone := Table.isEmpty_iff.mp hempty deviceId
      unfold Connected at hconnected
      rw [hnone] at hconnected
      cases hconnected
    split
    · exact h
    next hread =>
    have hnear := hok hidle (by simpa using hread)
    split
    · next hsame =>
      refine ⟨h.lanes, h.registered, fun _ deviceId hconnected hmem => ?_, h.joining⟩
      refine (hnear deviceId hconnected hmem).resolve_right fun hsends => ?_
      rw [hsends.1] at hsame
      cases hsame
    · refine ⟨h.lanes.step (.inr ⟨_, _, rfl⟩), h.registered.broadcast order hidle,
        fun _ deviceId hconnected hmem => ?_, fun deviceId hmem id socket hsocket => ?_⟩
      · unfold hears
        by_cases hlisten : s.sockets.Listens deviceId
        · rw [ControlSockets.hears_of_listens s.told s.level order hidle hlisten]
          exact near_self s.level
        · rw [ControlSockets.hears_of_deaf s.told _ order hidle hlisten]
          exact (hnear deviceId hconnected hmem).resolve_right fun hsends => hlisten hsends.2
      · rw [ControlSockets.step_broadcast order _ hidle] at hsocket
        exact h.joining deviceId hmem id socket hsocket
  · exact h

/-- An answer to a Connect leaves nobody behind. -/
theorem Heard.respond (h : s.Heard) {ok : Bool} (hok : s.Heeds (.respond deviceId ok)) :
    (s.step (.respond deviceId ok)).Heard := by
  refine ⟨h.lanes, h.registered, fun hsettled other hconnected hmem => ?_,
    fun other hmem => h.joining other (List.mem_filter.mp hmem).1⟩
  have hwaits (hjoining : other ∈ s.joining) : other = deviceId := by
    by_contra hne
    exact hmem (List.mem_filter.mpr ⟨hjoining, decide_eq_true hne⟩)
  change Near
    (s.sockets.hears (if ok then s.told.insert deviceId s.level else s.told) other) s.level
  cases ok with
  | false =>
    refine h.near hsettled other hconnected fun hjoining => ?_
    obtain rfl := hwaits hjoining
    nomatch hok hjoining
  | true =>
    rw [if_pos rfl, ControlSockets.hears, Table.lookup_insert_eq]
    split
    · next heq =>
      subst heq
      by_cases hnone : s.sockets.pending other = []
      · rw [hnone]
        exact near_self s.level
      · have hanswered : other ∉ s.joining := fun hjoining =>
          hnone (h.pending_of_joining hjoining)
        have hnear := h.near hsettled other hconnected hanswered
        rw [hears, ControlSockets.hears] at hnear
        rwa [List.getLast?_eq_some_getLast hnone] at hnear ⊢
    · next hne => exact h.near hsettled other hconnected fun hjoining => hne (hwaits hjoining)

/-- A device that connects is not left behind. -/
theorem Heard.join (h : s.Heard) {device : DiscoveredDevice} (hok : s.Heeds (.join device)) :
    (s.step (.join device)).Heard := by
  refine ⟨h.lanes, h.registered, fun hsettled other hconnected hmem => ?_, fun other hmem => ?_⟩
  · have hlookup : ((s.registry.insert device.deviceId device).lookup other).isSome = true :=
      hconnected
    rw [Table.lookup_insert_eq] at hlookup
    simp only [VolumeWatcher.step] at hmem
    by_cases heq : other = device.deviceId
    · subst heq
      split at hmem
      · next hknown => exact h.near hsettled _ hknown hmem
      · exact absurd List.mem_cons_self hmem
    · rw [if_neg heq] at hlookup
      refine h.near hsettled other hlookup fun hjoining => hmem ?_
      split
      · exact hjoining
      · exact List.mem_cons_of_mem _ hjoining
  · simp only [VolumeWatcher.step] at hmem
    split at hmem
    · exact h.joining other hmem
    · next hnew =>
      obtain rfl | hbefore := List.mem_cons.mp hmem
      · exact hok hnew
      · exact h.joining other hbefore

/-- Whoever is left may go. -/
theorem Heard.leave (h : s.Heard) : (s.step (.leave deviceId)).Heard := by
  refine ⟨h.lanes, h.registered, fun hsettled other hconnected hmem => ?_,
    fun other hmem => h.joining other (List.mem_filter.mp hmem).1⟩
  have hlookup : ((s.registry.erase deviceId).lookup other).isSome = true := hconnected
  rw [Table.lookup_erase_eq] at hlookup
  split at hlookup
  · cases hlookup
  next hne =>
  refine h.near hsettled other hlookup fun hjoining => hmem ?_
  exact List.mem_filter.mpr ⟨hjoining, decide_eq_true hne⟩

/-- A step that leaves nobody behind keeps the invariant. -/
theorem Heard.step (h : s.Heard) (hok : s.Heeds i) : (s.step i).Heard := by
  cases i with
  | changeLevel level => exact ⟨h.lanes, h.registered, nofun, h.joining⟩
  | join device => exact h.join hok
  | respond deviceId ok => exact h.respond hok
  | leave deviceId => exact h.leave
  | tick order ok => exact h.tick hok
  | sockets j => exact h.sockets hok

/-- In a run that leaves nobody behind, every connected device with an open socket was told
what the volume is, once it has not changed over a tick and no event is on its way. -/
theorem informed_of_run {steps : List Step}
    (hok : ∀ e ∈ machine.events steps, e.before.Heeds e.input) : (machine.run steps).Informed :=
  (machine.invariant heard_new (fun _ _ h hok => h.step hok) hok).2.informed

/-- Who sends what to whom stays so, whoever is left behind. -/
theorem lanes_step (h : s.sockets.Lanes) : (s.step i).sockets.Lanes := by
  cases i with
  | changeLevel | join | respond | leave => exact h
  | tick order ok =>
    simp only [step]
    split
    · unfold pollOnce
      split
      · exact h
      split
      · exact h
      split
      · exact h
      · exact h.step (.inr ⟨_, _, rfl⟩)
    · exact h
  | sockets j =>
    simp only [step]
    split
    · next hothers => exact h.step (.inl hothers)
    · exact h

theorem lanes_of_run (steps : List Step) : (machine.run steps).sockets.Lanes :=
  (machine.invariant (I := fun s : VolumeWatcher => s.sockets.Lanes) (p := fun _ _ => True)
    ControlSockets.lanes_new (fun _ _ h _ => lanes_step h) fun _ _ => trivial).2

/-- A phone connects and opens its socket. Then the volume is turned up. -/
def turnedUp : List Step :=
  [.changeLevel 0.5, .join ⟨"phone", "", ⟨.v4 2, 7⟩, 0, false, none⟩,
    .sockets (.connect ⟨"phone", "", 1⟩), .respond "phone" true, .sockets (.upgrade "phone" ""),
    .sockets (.register 0), .changeLevel 1.0, .tick ["phone"] true,
    .sockets (.deliver volumeWatcher), .sockets (.take 0), .sockets (.written 0 true)]

/-- The phone is told by the event. -/
theorem informed_of_run_turnedUp :
    (machine.run turnedUp).told.lookup "phone" = some (1.0 : SoftFloat) ∧
      (machine.run turnedUp).settled = true ∧ (machine.run turnedUp).Informed := by
  refine ⟨by decide +kernel, by decide +kernel, informed_of_run fun e he => ?_⟩
  have hheeds (n : ℕ) (i : ControlSockets.Step) (hothers : i.others = true)
      (hcloses : ∀ id, i ≠ .receive id .close) (hfails : ∀ id, i ≠ .written id false)
      (hopens : ∀ id, i ≠ .register id) : (machine.run (turnedUp.take n)).Heeds (.sockets i) :=
    ⟨fun _ _ => (lanes_of_run (turnedUp.take n)).keepsLevels hothers hcloses hfails,
      fun id _ hi => absurd hi (hopens id), fun id _ hi => absurd hi (hopens id)⟩
  simp only [turnedUp, Machine.events, Machine.eventsFrom_cons, Machine.eventsFrom_nil,
    List.mem_cons, List.not_mem_nil, or_false] at he
  obtain rfl | rfl | rfl | rfl | rfl | rfl | rfl | rfl | rfl | rfl | rfl := he
  · trivial
  · rintro - _ _ ⟨⟩
  · exact hheeds 2 _ rfl (by rintro _ ⟨⟩) (by rintro _ ⟨⟩) (by rintro _ ⟨⟩)
  · exact fun _ => rfl
  · exact hheeds 4 _ rfl (by rintro _ ⟨⟩) (by rintro _ ⟨⟩) (by rintro _ ⟨⟩)
  · have hdevice : ((machine.run (turnedUp.take 5)).sockets.sockets.lookup 0).map (·.deviceId) =
        some "phone" := by decide +kernel
    have hlanes := lanes_of_run (turnedUp.take 5)
    refine ⟨fun _ _ => hlanes.keepsLevels rfl (by rintro _ ⟨⟩) (by rintro _ ⟨⟩), ?_, ?_⟩
    · intro id socket hi hsocket _
      obtain rfl := ControlSockets.Step.register.inj hi
      obtain ⟨other, hother, hphone⟩ := Option.map_eq_some_iff.mp hdevice
      obtain rfl := Option.some.inj (hother.symm.trans hsocket)
      rw [hphone]
      decide +kernel
    · intro id socket _ _
      exact List.not_mem_nil
  · trivial
  · intro _ _ deviceId hconnected _
    have honly : deviceId = "phone" := by
      have hlookup : ((AList.insert "phone" ⟨"phone", "", ⟨.v4 2, 7⟩, 0, false, none⟩
          (∅ : DeviceRegistry)).lookup deviceId).isSome = true := hconnected
      rw [Table.lookup_insert_eq] at hlookup
      split at hlookup
      · next heq => exact heq
      · cases hlookup
    subst honly
    have hentry : (machine.run (turnedUp.take 7)).sockets.connections.lookup "phone" = some 0 := by
      decide +kernel
    have hloops : (machine.run (turnedUp.take 7)).sockets.loops 0 = true := by decide +kernel
    exact .inr ⟨by decide +kernel, 0, hentry, hloops⟩
  · exact hheeds 8 _ rfl (by rintro _ ⟨⟩) (by rintro _ ⟨⟩) (by rintro _ ⟨⟩)
  · exact hheeds 9 _ rfl (by rintro _ ⟨⟩) (by rintro _ ⟨⟩) (by rintro _ ⟨⟩)
  · exact hheeds 10 _ rfl (by rintro _ ⟨⟩) (by rintro _ ⟨⟩) (by rintro _ ⟨⟩)

/-- A phone connects and is told the volume, which is then turned down. The watcher sends the
new level before the phone opens its socket, and finds it unchanged from then on. -/
def turnedDownEarly : List Step :=
  [.changeLevel 0.5, .join ⟨"phone", "", ⟨.v4 2, 7⟩, 0, false, none⟩,
    .sockets (.connect ⟨"phone", "", 1⟩), .respond "phone" true, .changeLevel 0.25,
    .tick [] true, .sockets (.upgrade "phone" ""), .sockets (.register 0), .tick ["phone"] true]

/-- The phone has been told a level that is long gone, and its socket stands open. -/
theorem not_informed_turnedDownEarly :
    (machine.run turnedDownEarly).told.lookup "phone" = some (0.5 : SoftFloat) ∧
      (machine.run turnedDownEarly).level = 0.25 ∧
      ¬(machine.run turnedDownEarly).Informed := by
  have hopen : ((machine.run turnedDownEarly).sockets.sockets.lookup 0).map
      (fun socket => (socket.deviceId, socket.phase, socket.queue)) =
        some ("phone", .selecting, []) := by
    decide +kernel
  have htold : (machine.run turnedDownEarly).told.lookup "phone" = some (0.5 : SoftFloat) := by
    decide +kernel
  refine ⟨htold, by decide +kernel, fun h => ?_⟩
  obtain ⟨socket, hsocket, hstands⟩ := Option.map_eq_some_iff.mp hopen
  obtain ⟨hdevice, hselects⟩ := Prod.mk.inj hstands
  obtain ⟨hphase, hqueue⟩ := Prod.mk.inj hselects
  have hdrained : Drained (machine.run turnedDownEarly).sockets := by
    constructor
    · intro id other hother
      have hlt := (lanes_of_run turnedDownEarly).numbered id other hother
      have hone : (machine.run turnedDownEarly).sockets.upgraded = 1 := by decide +kernel
      obtain rfl : id = 0 := by omega
      obtain rfl := Option.some.inj (hsocket.symm.trans hother)
      refine ⟨hqueue, fun posted hwriting => ?_⟩
      nomatch hphase.symm.trans hwriting
    · have hsenders : (machine.run turnedDownEarly).sockets.senders =
          AList.insert volumeWatcher [] ∅ := AList.ext (by decide +kernel)
      intro sender
      rw [ControlSockets.outstanding, hsenders, Table.lookup_insert_eq]
      split <;> rfl
  have hconnected : ((machine.run turnedDownEarly).registry.lookup socket.deviceId).isSome =
      true := by
    rw [hdevice]
    decide +kernel
  obtain ⟨last, hlast, hsame⟩ := h (by decide +kernel) hdrained 0 socket hsocket
    (by rw [hphase]; rfl) hconnected
  rw [hdevice, htold] at hlast
  obtain rfl := Option.some.inj hlast
  revert hsame
  decide +kernel

end VolumeWatcher

end Gemacast.Control
