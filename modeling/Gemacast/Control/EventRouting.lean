import Gemacast.Control.ControlSockets

/-!
# Where the events of a device go

The map of connections knows nothing of sessions: a socket registers its channel in the place
of whatever is there, however long ago its request was authenticated, and a new session leaves
the map as it is. The events of a device go to a socket of its session as long as no socket
registers late, no session begins while the map holds a socket of the device, and no socket
that closes takes the place of the device from another one of the session.
-/

namespace Gemacast.Control

open Gemacast.Core Gemacast.Streamer

namespace ControlSockets

/-- A socket of the session its device has now, and not of one with its number that has been
followed by others. -/
def Current (s : ControlSockets) (socket : ControlSocket) : Prop :=
  s.authorizer.isCurrent socket.deviceId socket.generation = true ∧
    socket.epoch = s.epoch socket.deviceId

/-- Events go to the sockets of the session. -/
structure Routed (s : ControlSockets) : Prop where
  /-- No event sent after a session was committed reaches a socket of an older one. -/
  queued : ∀ id socket posted, s.sockets.lookup id = some socket →
    posted ∈ socket.queue ∨ socket.phase = .writing posted → posted.epoch ≤ socket.epoch
  /-- Where a socket of the session is served, one is registered. -/
  current : ∀ id socket, s.sockets.lookup id = some socket → socket.phase.served = true →
    s.Current socket → ∃ id' socket', s.connections.lookup socket.deviceId = some id' ∧
      s.sockets.lookup id' = some socket' ∧ socket'.deviceId = socket.deviceId ∧
      s.Current socket'

/-- A socket that closes leaves the places of others alone. -/
def RemovesOwn (e : Event ControlSockets Step Unit) : Prop :=
  ∀ id deviceId, e.input = .remove id → e.before.connections.lookup deviceId ≠ some id →
    e.after.connections.lookup deviceId = e.before.connections.lookup deviceId

/-- A step is orderly: a socket registers before the next session of its device begins, a
session begins while no socket of the device is registered, and a socket that gives up the
place of its device leaves none of the session behind. -/
def Orderly (s : ControlSockets) : Step → Prop
  | .register id => ∀ socket, s.sockets.lookup id = some socket → socket.phase = .upgrading →
    socket.epoch = s.epoch socket.deviceId
  | .connect pending => s.connections.lookup pending.deviceId = none
  | .remove id => ∀ socket, s.sockets.lookup id = some socket → socket.phase = .leaving →
    s.connections.lookup socket.deviceId = some id →
    ∀ id' socket', s.sockets.lookup id' = some socket' → id' ≠ id →
      socket'.deviceId = socket.deviceId → socket'.phase.served = true → ¬s.Current socket'
  | _ => True

/-- A channel may take an event: its socket is of the session under which it was sent, or of a
later one. -/
def Reaches (s : ControlSockets) (target : ℕ) (posted : Posted) : Prop :=
  ∃ socket, s.sockets.lookup target = some socket ∧ posted.epoch ≤ socket.epoch

/-- What holds in every state of an orderly run. -/
structure Ordered (s : ControlSockets) : Prop where
  /-- Sockets belong to sessions that have begun. -/
  epochs : ∀ id socket, s.sockets.lookup id = some socket →
    socket.epoch ≤ s.epoch socket.deviceId
  /-- Sockets of the last session have its number. -/
  numbers : ∀ id socket record, s.sockets.lookup id = some socket →
    socket.epoch = s.epoch socket.deviceId →
    s.authorizer.sessions.lookup socket.deviceId = some record →
    record.generation = socket.generation
  /-- Sockets that are registered belong to the last session of their device. -/
  entries : ∀ deviceId id, s.connections.lookup deviceId = some id →
    ∃ socket, s.sockets.lookup id = some socket ∧ socket.deviceId = deviceId ∧
      socket.epoch = s.epoch deviceId
  /-- Where a socket of the session is served, there is one registered. -/
  current : ∀ id socket, s.sockets.lookup id = some socket → socket.phase.served = true →
    s.Current socket → ∃ id', s.connections.lookup socket.deviceId = some id'
  /-- Events in a channel were sent under its session. -/
  queued : ∀ id socket posted, s.sockets.lookup id = some socket →
    posted ∈ socket.queue ∨ socket.phase = .writing posted → posted.epoch ≤ socket.epoch
  /-- So were acknowledgements on their way. -/
  answers : ∀ id socket target posted, s.sockets.lookup id = some socket →
    socket.phase = .answering target posted → s.Reaches target posted
  /-- So were events on their way. -/
  outstanding : ∀ sender target posted, (target, posted) ∈ s.outstanding sender →
    s.Reaches target posted

variable {s s' : ControlSockets} {id target : ℕ} {socket socket' : ControlSocket}
  {posted : Posted} {i : Step}

theorem ordered_new : new.Ordered :=
  ⟨nofun, nofun, nofun, nofun, nofun, nofun, fun _ _ _ hmem => nomatch hmem⟩

/-- In an orderly run events go to the sockets of the session. -/
theorem Ordered.routed (h : s.Ordered) : s.Routed := by
  refine ⟨h.queued, fun id socket hsocket hserved hcurrent => ?_⟩
  obtain ⟨id', hid⟩ := h.current id socket hsocket hserved hcurrent
  obtain ⟨socket', hsocket', hdevice, hepoch⟩ := h.entries _ id' hid
  rw [← hdevice] at hepoch
  obtain ⟨token, hrecord⟩ := SessionAuthorizer.isCurrent_iff.mp hcurrent.1
  rw [← hdevice] at hrecord
  have hnumber := h.numbers id' socket' _ hsocket' hepoch hrecord
  exact ⟨id', socket', hid, hsocket', hdevice,
    SessionAuthorizer.isCurrent_iff.mpr ⟨token, hnumber ▸ hrecord⟩, hepoch⟩

/-- A socket that is written down with its device and session still takes what it took. -/
theorem Reaches.put (h : s.Reaches target posted) (hsocket : s.sockets.lookup id = some socket)
    (hepoch : socket'.epoch = socket.epoch) : (s.put id socket').Reaches target posted := by
  obtain ⟨other, hother, hle⟩ := h
  by_cases heq : target = id
  · subst heq
    obtain rfl := Option.some.inj (hsocket.symm.trans hother)
    exact ⟨socket', (lookup_put target).trans (if_pos rfl), hepoch ▸ hle⟩
  · exact ⟨other, (lookup_put target).trans ((if_neg heq).trans hother), hle⟩

/-- A socket is written down with its device and session; the map changes with it. -/
theorem Ordered.change (h : s.Ordered) (connections : Table DeviceId ℕ)
    (hsocket : s.sockets.lookup id = some socket) (hdevice : socket'.deviceId = socket.deviceId)
    (hepoch : socket'.epoch = socket.epoch) (hnumber : socket'.generation = socket.generation)
    (hqueued : ∀ posted, posted ∈ socket'.queue ∨ socket'.phase = .writing posted →
      posted.epoch ≤ socket.epoch)
    (hanswers : ∀ target posted, socket'.phase = .answering target posted →
      s.Reaches target posted)
    (hentries : ∀ deviceId id', connections.lookup deviceId = some id' →
      s.connections.lookup deviceId = some id' ∨
        deviceId = socket.deviceId ∧ id' = id ∧ socket.epoch = s.epoch deviceId)
    (hcurrent : ∀ id' other, (s.put id socket').sockets.lookup id' = some other →
      other.phase.served = true → s.Current other →
        ∃ entry, connections.lookup other.deviceId = some entry) :
    Ordered { s.put id socket' with connections } := by
  have hself : (s.put id socket').sockets.lookup id = some socket' :=
    (lookup_put id).trans (if_pos rfl)
  refine ⟨fun id' other hother => ?_, fun id' other record hother hlast hrecord => ?_,
    fun deviceId id' hid => ?_, hcurrent, fun id' other posted hother hposted => ?_,
    fun id' other target posted hother hphase => ?_,
    fun sender target posted hmem => (h.outstanding sender target posted hmem).put hsocket hepoch⟩
  · obtain ⟨-, rfl⟩ | hbefore := lookup_put_cases hother
    · rw [hepoch, hdevice]
      exact h.epochs id socket hsocket
    · exact h.epochs id' other hbefore
  · obtain ⟨-, rfl⟩ | hbefore := lookup_put_cases hother
    · rw [hepoch, hdevice] at hlast
      rw [hdevice] at hrecord
      exact (h.numbers id socket record hsocket hlast hrecord).trans hnumber.symm
    · exact h.numbers id' other record hbefore hlast hrecord
  · obtain hbefore | ⟨rfl, rfl, hown⟩ := hentries deviceId id' hid
    · obtain ⟨other, hother, hothers, hlast⟩ := h.entries deviceId id' hbefore
      by_cases heq : id' = id
      · subst heq
        obtain rfl := Option.some.inj (hsocket.symm.trans hother)
        exact ⟨socket', hself, hdevice.trans hothers, hepoch.trans hlast⟩
      · exact ⟨other, (lookup_put id').trans ((if_neg heq).trans hother), hothers, hlast⟩
    · exact ⟨socket', hself, hdevice, hepoch.trans hown⟩
  · obtain ⟨-, rfl⟩ | hbefore := lookup_put_cases hother
    · rw [hepoch]
      exact hqueued posted hposted
    · exact h.queued id' other posted hbefore hposted
  · obtain ⟨-, rfl⟩ | hbefore := lookup_put_cases hother
    · exact (hanswers target posted hphase).put hsocket hepoch
    · exact (h.answers id' other target posted hbefore hphase).put hsocket hepoch

/-- A socket is written down that is served only if it was. -/
theorem Ordered.put (h : s.Ordered) (hsocket : s.sockets.lookup id = some socket)
    (hdevice : socket'.deviceId = socket.deviceId) (hepoch : socket'.epoch = socket.epoch)
    (hnumber : socket'.generation = socket.generation)
    (hserved : socket'.phase.served = true → socket.phase.served = true)
    (hqueued : ∀ posted, posted ∈ socket'.queue ∨ socket'.phase = .writing posted →
      posted.epoch ≤ socket.epoch)
    (hanswers : ∀ target posted, socket'.phase = .answering target posted →
      s.Reaches target posted) : (s.put id socket').Ordered := by
  refine h.change s.connections hsocket hdevice hepoch hnumber hqueued hanswers
    (fun _ _ => .inl) fun id' other hother hothers hcurrent => ?_
  rw [lookup_put] at hother
  split at hother
  · obtain rfl := Option.some.inj hother
    have hbefore : s.Current socket := by
      rw [Current, ← hdevice, ← hepoch, ← hnumber]
      exact hcurrent
    rw [hdevice]
    exact h.current id socket hsocket (hserved hothers) hbefore
  · exact h.current id' other hother hothers hcurrent

/-- A task moves on without an event in its hands. -/
theorem Ordered.move (h : s.Ordered) (hsocket : s.sockets.lookup id = some socket)
    {phase : SocketPhase} (hserved : phase.served = true → socket.phase.served = true)
    (hwriting : ∀ posted, phase ≠ .writing posted)
    (hanswers : ∀ target posted, phase = .answering target posted → s.Reaches target posted) :
    (s.put id { socket with phase }).Ordered :=
  h.put hsocket rfl rfl rfl hserved (fun posted hposted => h.queued id socket posted hsocket
    (.inl (hposted.resolve_right (hwriting posted)))) hanswers

/-- What is registered for a device may take an event sent now. -/
theorem Ordered.reaches (h : s.Ordered) {deviceId : DeviceId} (event : WsEvent)
    (hid : s.connections.lookup deviceId = some target) :
    s.Reaches target ⟨event, s.epoch deviceId⟩ := by
  obtain ⟨socket, hsocket, -, hepoch⟩ := h.entries deviceId target hid
  exact ⟨socket, hsocket, hepoch.ge⟩

/-- An event enters a channel that may take it. -/
theorem Ordered.offer (h : s.Ordered) (hoffer : s.offer target posted = some s')
    (hreaches : s.Reaches target posted) : s'.Ordered := by
  obtain rfl | ⟨socket, hsocket, -, -, rfl⟩ := offer_cases hoffer
  · exact h
  obtain ⟨other, hother, hle⟩ := hreaches
  obtain rfl := Option.some.inj (hsocket.symm.trans hother)
  refine h.put hsocket rfl rfl rfl id (fun posted' hposted => ?_)
    fun target' posted' hphase => h.answers target socket target' posted' hsocket hphase
  rw [List.mem_append, List.mem_singleton] at hposted
  obtain (hmem | rfl) | hphase := hposted
  · exact h.queued target socket posted' hsocket (.inl hmem)
  · exact hle
  · exact h.queued target socket posted' hsocket (.inr hphase)

/-- Senders take up events for channels that may take them. -/
theorem Ordered.senders (h : s.Ordered) {sender : EventSender} {events : List (ℕ × Posted)}
    (hreaches : ∀ entry ∈ events, s.Reaches entry.1 entry.2) :
    Ordered { s with senders := s.senders.insert sender events } := by
  refine ⟨h.epochs, h.numbers, h.entries, h.current, h.queued, h.answers,
    fun sender' target posted hmem => ?_⟩
  simp only [ControlSockets.outstanding, Table.lookup_insert_eq] at hmem
  split at hmem
  · exact hreaches (target, posted) hmem
  · exact h.outstanding sender' target posted hmem

/-- Commands change nothing. -/
theorem Ordered.commands (h : s.Ordered) (commands : List ControlCommand) :
    Ordered { s with commands } :=
  ⟨h.epochs, h.numbers, h.entries, h.current, h.queued, h.answers, h.outstanding⟩

/-- Sessions may end. -/
theorem Ordered.authorizer (h : s.Ordered) {authorizer : SessionAuthorizer}
    (hended : ∀ deviceId record, authorizer.sessions.lookup deviceId = some record →
      s.authorizer.sessions.lookup deviceId = some record) : Ordered { s with authorizer } := by
  refine ⟨h.epochs, fun id socket record hsocket hlast hrecord =>
    h.numbers id socket record hsocket hlast (hended _ record hrecord), h.entries,
    fun id socket hsocket hserved hcurrent => ?_, h.queued, h.answers, h.outstanding⟩
  obtain ⟨token, hrecord⟩ := SessionAuthorizer.isCurrent_iff.mp hcurrent.1
  have hbefore := SessionAuthorizer.isCurrent_iff.mpr ⟨token, hended _ _ hrecord⟩
  exact h.current id socket hsocket hserved ⟨hbefore, hcurrent.2⟩

/-- How many sessions a device has had after one more of a device. -/
theorem epoch_commit (s : ControlSockets) (pending : PendingSession) (deviceId : DeviceId) :
    (s.step (.connect pending)).epoch deviceId =
      if deviceId = pending.deviceId then s.epoch deviceId + 1 else s.epoch deviceId := by
  simp only [ControlSockets.step, epoch, Table.lookup_insert_eq]
  split
  · next heq => rw [heq, Option.getD_some]
  · rfl

/-- A session begins while no socket of the device is registered: there is none of the new
session yet. -/
theorem Ordered.connect (h : s.Ordered) {pending : PendingSession}
    (hnone : s.connections.lookup pending.deviceId = none) :
    (s.step (.connect pending)).Ordered := by
  have hother {deviceId : DeviceId} (hne : deviceId ≠ pending.deviceId) :
      (s.step (.connect pending)).authorizer.sessions.lookup deviceId =
        s.authorizer.sessions.lookup deviceId := AList.lookup_insert_ne hne
  -- no socket there is belongs to the new session
  have hlater {id : ℕ} {socket : ControlSocket} (hsocket : s.sockets.lookup id = some socket)
      (hlast : socket.epoch = (s.step (.connect pending)).epoch socket.deviceId) :
      socket.deviceId ≠ pending.deviceId ∧ socket.epoch = s.epoch socket.deviceId := by
    have hle := h.epochs id socket hsocket
    rw [epoch_commit] at hlast
    split at hlast
    · omega
    · next hne => exact ⟨hne, hlast⟩
  refine ⟨fun id socket hsocket => ?_, fun id socket record hsocket hlast hrecord => ?_,
    fun deviceId id hid => ?_, fun id socket hsocket hserved hcurrent => ?_, h.queued, h.answers,
    h.outstanding⟩
  · rw [epoch_commit]
    have hle := h.epochs id socket hsocket
    split
    · exact Nat.le_succ_of_le hle
    · exact hle
  · obtain ⟨hne, hbefore⟩ := hlater hsocket hlast
    rw [hother hne] at hrecord
    exact h.numbers id socket record hsocket hbefore hrecord
  · obtain ⟨socket, hsocket, hdevice, hepoch⟩ := h.entries deviceId id hid
    refine ⟨socket, hsocket, hdevice, ?_⟩
    rw [epoch_commit, if_neg]
    · exact hepoch
    · rintro rfl
      nomatch hnone.symm.trans hid
  · obtain ⟨hne, hbefore⟩ := hlater hsocket hcurrent.2
    obtain ⟨token, hrecord⟩ := SessionAuthorizer.isCurrent_iff.mp hcurrent.1
    rw [hother hne] at hrecord
    exact h.current id socket hsocket hserved
      ⟨SessionAuthorizer.isCurrent_iff.mpr ⟨token, hrecord⟩, hbefore⟩

/-- A new socket leaves the others in their places. -/
theorem Reaches.fresh (h : s.Reaches target posted) (hnumbered : s.Numbered) :
    (s.put s.upgraded socket).Reaches target posted := by
  obtain ⟨other, hother, hle⟩ := h
  have hlt := hnumbered target other hother
  exact ⟨other, (lookup_put target).trans ((if_neg (by omega)).trans hother), hle⟩

/-- A request is authenticated: its socket is of the session its device has. -/
theorem Ordered.upgrade (h : s.Ordered) (hnumbered : s.Numbered) {deviceId : DeviceId}
    {token : String} {session : AuthorizedSession}
    (hsession : s.authorizer.authenticate deviceId token = some session) :
    Ordered
      { s.put s.upgraded ⟨deviceId, session.generation, s.epoch deviceId, [], .upgrading⟩ with
        upgraded := s.upgraded + 1 } := by
  refine ⟨fun id socket hsocket => ?_, fun id socket record hsocket hlast hrecord => ?_,
    fun deviceId id hid => ?_, fun id socket hsocket hserved hcurrent => ?_,
    fun id socket posted hsocket hposted => ?_, fun id socket target posted hsocket hphase => ?_,
    fun sender target posted hmem => (h.outstanding sender target posted hmem).fresh hnumbered⟩
  · obtain ⟨-, rfl⟩ | hbefore := lookup_put_cases hsocket
    · exact le_rfl
    · exact h.epochs id socket hbefore
  · obtain ⟨-, rfl⟩ | hbefore := lookup_put_cases hsocket
    · obtain ⟨-, hlookup⟩ := SessionAuthorizer.authenticate_eq_some_iff.mp hsession
      obtain rfl := Option.some.inj (hlookup.symm.trans hrecord)
      rfl
    · exact h.numbers id socket record hbefore hlast hrecord
  · obtain ⟨socket, hsocket, hrest⟩ := h.entries deviceId id hid
    have hlt := hnumbered id socket hsocket
    exact ⟨socket, (lookup_put id).trans ((if_neg (by omega)).trans hsocket), hrest⟩
  · obtain ⟨-, rfl⟩ | hbefore := lookup_put_cases hsocket
    · nomatch hserved
    · exact h.current id socket hbefore hserved hcurrent
  · obtain ⟨-, rfl⟩ | hbefore := lookup_put_cases hsocket
    · obtain hmem | hphase := hposted
      · nomatch hmem
      · nomatch hphase
    · exact h.queued id socket posted hbefore hposted
  · obtain ⟨-, rfl⟩ | hbefore := lookup_put_cases hsocket
    · nomatch hphase
    · exact (h.answers id socket target posted hbefore hphase).fresh hnumbered

/-- A socket registers in the place of whatever is there, as one of the last session. -/
theorem Ordered.register (h : s.Ordered) (hsocket : s.sockets.lookup id = some socket)
    (hphase : socket.phase = .upgrading) (hok : s.Orderly (.register id)) :
    Ordered { s.put id { socket with phase := .selecting } with
      connections := s.connections.insert socket.deviceId id } := by
  have hlast : socket.epoch = s.epoch socket.deviceId := hok socket hsocket hphase
  refine h.change _ hsocket rfl rfl rfl (fun posted hposted => ?_) nofun
    (fun deviceId id' hid => ?_) fun id' other hother hserved hcurrent => ?_
  · exact h.queued id socket posted hsocket (.inl (hposted.resolve_right nofun))
  · rw [Table.lookup_insert_eq] at hid
    split at hid
    · next heq => exact .inr ⟨heq, (Option.some.inj hid).symm, heq ▸ hlast⟩
    · exact .inl hid
  · rw [Table.lookup_insert_eq]
    split
    · exact ⟨id, rfl⟩
    · next hdevice =>
      rw [lookup_put] at hother
      split at hother
      · obtain rfl := Option.some.inj hother
        exact absurd rfl hdevice
      · exact h.current id' other hother hserved hcurrent

/-- A socket gives up the place of its device, if it is its own. -/
theorem Ordered.remove (h : s.Ordered) (hsocket : s.sockets.lookup id = some socket)
    (hphase : socket.phase = .leaving) (hok : s.Orderly (.remove id)) :
    Ordered { s.put id { socket with phase := .closing } with
      connections :=
        if s.connections.lookup socket.deviceId = some id then
          s.connections.erase socket.deviceId
        else s.connections } := by
  refine h.change _ hsocket rfl rfl rfl (fun posted hposted => ?_) nofun
    (fun deviceId id' hid => .inl ?_) fun id' other hother hserved hcurrent => ?_
  · exact h.queued id socket posted hsocket (.inl (hposted.resolve_right nofun))
  · split at hid
    · rw [Table.lookup_erase_eq] at hid
      split at hid
      · cases hid
      · exact hid
    · exact hid
  · rw [lookup_put] at hother
    split at hother
    · obtain rfl := Option.some.inj hother
      nomatch hserved
    next hne =>
    obtain ⟨entry, hentry⟩ := h.current id' other hother hserved hcurrent
    refine ⟨entry, ?_⟩
    split
    · next hown =>
      rw [Table.lookup_erase_eq, if_neg]
      · exact hentry
      · intro hdevice
        exact hok socket hsocket hphase hown id' other hother hne hdevice hserved hcurrent
    · exact hentry

/-- Sessions that are still there after some were revoked were there before. -/
theorem lookup_of_revoke {a : SessionAuthorizer} {deviceId deviceId' : DeviceId}
    {generation : Option SessionGeneration} {record : SessionRecord}
    (h : (a.revoke deviceId generation).1.sessions.lookup deviceId' = some record) :
    a.sessions.lookup deviceId' = some record := by
  unfold SessionAuthorizer.revoke at h
  split at h
  · exact h
  · rw [Table.lookup_erase_eq] at h
    split at h
    · cases h
    · exact h

/-- An orderly step keeps the invariant. -/
theorem Ordered.step (h : s.Ordered) (hnumbered : s.Numbered) (hok : s.Orderly i) :
    (s.step i).Ordered := by
  obtain hsame | hfires := s.step_fires i
  · rw [hsame]
    exact h
  generalize hs' : s.step i = s' at hfires
  cases hfires with
  | connect pending => exact hs' ▸ h.connect hok
  | revoke deviceId generation => exact h.authorizer fun _ _ => lookup_of_revoke
  | revokeAll => exact h.authorizer fun _ _ hrecord => nomatch hrecord
  | upgrade hsession => exact h.upgrade hnumbered hsession
  | register hsocket hphase => exact h.register hsocket hphase hok
  | receive hsocket hphase => exact h.move hsocket (by rw [hphase]; exact id) nofun nofun
  | hangUp hsocket hphase => exact h.move hsocket (by rw [hphase]; exact id) nofun nofun
  | handOver hsocket hphase hroom hnext =>
    refine Ordered.commands (h.move hsocket (by rw [hphase]; exact fun _ => rfl) ?_ ?_) _
    · obtain rfl | rfl := hnext <;> nofun
    · obtain rfl | rfl := hnext <;> nofun
  | giveUp hsocket hphase => exact h.move hsocket (by rw [hphase]; exact id) nofun nofun
  | acknowledge hsocket hphase htarget =>
    refine h.move hsocket (by rw [hphase]; exact id) nofun fun target posted heq => ?_
    obtain ⟨rfl, rfl⟩ := SocketPhase.answering.inj heq
    exact h.reaches _ htarget
  | answer hsocket hphase hoffer hafter =>
    have hbefore := h.offer hoffer (h.answers _ _ _ _ hsocket hphase)
    exact hbefore.move hafter (by rw [hphase]; exact id) nofun nofun
  | take hsocket hphase hqueue =>
    refine h.put hsocket rfl rfl rfl (by rw [hphase]; exact id) (fun posted hposted => ?_) nofun
    refine h.queued _ _ posted hsocket (.inl ?_)
    rw [hqueue, List.mem_cons]
    exact hposted.symm.imp_left fun heq => (SocketPhase.writing.inj heq).symm
  | @written _ ok _ _ hsocket hphase =>
    refine h.move hsocket (by rw [hphase]; exact fun _ => rfl) ?_ ?_
    · cases ok <;> nofun
    · cases ok <;> nofun
  | remove hsocket hphase => exact h.remove hsocket hphase hok
  | finish hsocket hphase =>
    exact h.put hsocket rfl rfl rfl nofun (fun posted hposted => nomatch hposted) nofun
  | send hidle hid =>
    exact h.senders fun entry hmem => List.mem_singleton.mp hmem ▸ h.reaches _ hid
  | broadcast order event hidle =>
    refine h.senders fun entry hmem => ?_
    obtain ⟨deviceId, -, hentry⟩ := List.mem_filterMap.mp hmem
    obtain ⟨target, htarget, rfl⟩ := Option.map_eq_some_iff.mp hentry
    exact h.reaches event htarget
  | notifyError hid hoffer => exact h.offer hoffer (h.reaches _ hid)
  | @deliver sender target posted rest after houtstanding hoffer =>
    have hmem : (target, posted) ∈ s.outstanding sender := houtstanding ▸ List.mem_cons_self
    have hafter := h.offer hoffer (h.outstanding sender target posted hmem)
    refine hafter.senders fun entry hrest => hafter.outstanding sender entry.1 entry.2 ?_
    rw [ControlSockets.outstanding, offer_senders hoffer, ← ControlSockets.outstanding,
      houtstanding]
    exact List.mem_cons_of_mem _ hrest
  | submit command hroom => exact h.commands _
  | dispatch hidle => exact h.commands _

/-- A socket that closes removes its own entry or none. -/
theorem removesOwn_step (s : ControlSockets) (i : Step) : RemovesOwn (machine.eventAt s i) := by
  intro id deviceId hi hne
  obtain rfl : i = .remove id := hi
  change (s.step (.remove id)).connections.lookup deviceId = s.connections.lookup deviceId
  obtain hsame | hfires := s.step_fires (.remove id)
  · rw [hsame]
  generalize s.step (.remove id) = s' at hfires
  cases hfires with
  | @remove _ socket hsocket hphase =>
    simp only
    split
    · next hown =>
      rw [Table.lookup_erase_eq, if_neg]
      rintro rfl
      exact hne hown
    · rfl

/-- In an orderly run every event goes to a socket of the session its device has had since, a
socket that closes leaves the places of others alone, and where a socket of the session is
served, one of the session is registered. -/
theorem routed_of_run {steps : List Step}
    (hok : ∀ e ∈ machine.events steps, e.before.Orderly e.input) :
    (∀ e ∈ machine.events steps, RemovesOwn e) ∧ (machine.run steps).Routed := by
  refine ⟨fun e he => ?_, ?_⟩
  · rw [machine.eq_eventAt_of_mem he]
    exact removesOwn_step _ _
  · have hstep (s : ControlSockets) (i : Step) (h : s.Ordered ∧ s.Numbered)
        (hok : s.Orderly i) : (s.step i).Ordered ∧ (s.step i).Numbered :=
      ⟨h.1.step h.2 hok, h.2.step i⟩
    exact (machine.invariant ⟨ordered_new, numbered_new⟩ hstep hok).2.1.routed

/-- A phone connects, opens its socket, is told something and closes the socket. -/
def oneSocket : List Step :=
  [.connect ⟨"phone", "", 1⟩, .upgrade "phone" "", .register 0,
    .send .dispatcher "phone" .disconnect, .deliver .dispatcher, .take 0, .written 0 true,
    .receive 0 .close, .remove 0]

theorem routed_of_run_oneSocket :
    ((machine.run (oneSocket.take 6)).sockets.lookup 0).map (·.phase) =
      some (.writing ⟨.disconnect, 1⟩) ∧
    (∀ e ∈ machine.events oneSocket, RemovesOwn e) ∧ (machine.run oneSocket).Routed := by
  refine ⟨by decide +kernel, routed_of_run fun e he => ?_⟩
  simp only [oneSocket, Machine.events, Machine.eventsFrom_cons, Machine.eventsFrom_nil,
    List.mem_cons, List.not_mem_nil, or_false] at he
  obtain rfl | rfl | rfl | rfl | rfl | rfl | rfl | rfl | rfl := he
  · exact (rfl : new.connections.lookup "phone" = none)
  · trivial
  · intro socket hsocket _
    have hregisters : ((machine.run (oneSocket.take 2)).sockets.lookup 0).map
        (fun socket => (socket.epoch, (machine.run (oneSocket.take 2)).epoch socket.deviceId)) =
          some (1, 1) := by decide +kernel
    rw [show (machine.run (oneSocket.take 2)).sockets.lookup 0 = some socket from hsocket,
      Option.map_some, Option.some.injEq, Prod.mk.injEq] at hregisters
    exact hregisters.1.trans hregisters.2.symm
  · trivial
  · trivial
  · trivial
  · trivial
  · trivial
  · intro socket _ _ _ id' socket' hsocket' hne _ _
    have hlt : id' < (machine.run (oneSocket.take 8)).upgraded :=
      numbered_of_run (oneSocket.take 8) id' socket' hsocket'
    have hone : (machine.run (oneSocket.take 8)).upgraded = 1 := by decide +kernel
    omega

/-- A request for a socket is authenticated. Before its task begins, the phone connects again
and opens another socket. Then the first registers. -/
def lateSocket : List Step :=
  [.connect ⟨"phone", "", 1⟩, .upgrade "phone" "", .connect ⟨"phone", "", 2⟩,
    .upgrade "phone" "", .register 1, .register 0, .send .dispatcher "phone" .disconnect,
    .deliver .dispatcher, .take 0]

/-- The event goes to the socket of the old session, whose channel is the one registered. -/
theorem not_routed_lateSocket :
    ((machine.run lateSocket).sockets.lookup 0).map (fun socket => (socket.epoch, socket.phase)) =
      some (1, .writing ⟨.disconnect, 2⟩) ∧
    ((machine.run lateSocket).sockets.lookup 1).map
      (fun socket => (socket.epoch, socket.phase.served)) = some (2, true) ∧
    (machine.run lateSocket).connections.lookup "phone" = some 0 ∧
    ¬(machine.run lateSocket).Routed := by
  have hold : ((machine.run lateSocket).sockets.lookup 0).map
      (fun socket => (socket.epoch, socket.phase)) = some (1, .writing ⟨.disconnect, 2⟩) := by
    decide +kernel
  refine ⟨hold, by decide +kernel, by decide +kernel, fun h => ?_⟩
  obtain ⟨socket, hsocket, hstands⟩ := Option.map_eq_some_iff.mp hold
  obtain ⟨hepoch, hphase⟩ := Prod.mk.inj hstands
  have hle := h.queued 0 socket ⟨.disconnect, 2⟩ hsocket (.inr hphase)
  rw [hepoch] at hle
  nomatch hle

end ControlSockets

end Gemacast.Control
