import Gemacast.Control.VolumeWatcher

/-!
# What the phones hear of the volume

The levels on their way to a device are those in its registered channel, the one being written
first. What a device will have heard last is the last of them, or else what it was told last.
No step of the sockets changes that for a connected device, as long as none is lost with a
level on its way; and every tick leaves it near the volume, as long as whoever was told
something else has a socket open when the watcher sends.
-/

namespace Gemacast.Control

open Gemacast.Core Gemacast.Streamer

/-- The task is in its loop. -/
def SocketPhase.looping : SocketPhase → Bool
  | .selecting | .writing _ | .reporting _ | .acknowledging | .answering _ _ => true
  | _ => false

/-- The level being written. -/
def SocketPhase.volume : SocketPhase → Option SoftFloat
  | .writing posted => posted.event.volume
  | _ => none

/-- The levels that a socket holds, in the order in which they are written. -/
def ControlSocket.volumes (socket : ControlSocket) : List SoftFloat :=
  socket.phase.volume.toList ++ socket.queue.filterMap (·.event.volume)

namespace ControlSockets

/-- The task of a socket is in its loop. -/
def loops (s : ControlSockets) (id : ℕ) : Bool :=
  (s.sockets.lookup id).any fun socket => socket.phase.looping

/-- The levels that the watcher has still to put into the channel of a socket. -/
def coming (s : ControlSockets) (id : ℕ) : List SoftFloat :=
  (s.outstanding volumeWatcher).filterMap fun entry =>
    if entry.1 = id then entry.2.event.volume else none

/-- The levels on their way to a socket. -/
def underWay (s : ControlSockets) (id : ℕ) : List SoftFloat :=
  (s.sockets.lookup id).elim [] (·.volumes) ++ s.coming id

/-- The levels on their way to a device. -/
def pending (s : ControlSockets) (deviceId : DeviceId) : List SoftFloat :=
  match s.connections.lookup deviceId with
  | some id => if s.loops id then s.underWay id else []
  | none => []

/-- The task of a socket has begun. -/
def Begun (s : ControlSockets) (id : ℕ) : Prop :=
  ∃ socket, s.sockets.lookup id = some socket ∧ socket.phase ≠ .upgrading

/-- Who sends what to whom, in every state. -/
structure Lanes (s : ControlSockets) : Prop where
  /-- Sockets have numbers that have been given out. -/
  numbered : s.Numbered
  /-- Nobody but the watcher sends levels. -/
  senders : ∀ sender, sender ≠ volumeWatcher → ∀ entry ∈ s.outstanding sender,
    entry.2.event.volume = none
  /-- Events go to sockets whose tasks have begun. -/
  targets : ∀ sender, ∀ entry ∈ s.outstanding sender, s.Begun entry.1
  /-- So do acknowledgements, which are no levels. -/
  answers : ∀ id socket target posted, s.sockets.lookup id = some socket →
    socket.phase = .answering target posted → posted.event.volume = none ∧ s.Begun target
  /-- What is registered for a device is a socket of it whose task has begun. -/
  entries : ∀ deviceId id, s.connections.lookup deviceId = some id → s.Begun id ∧
    ∃ socket, s.sockets.lookup id = some socket ∧ socket.deviceId = deviceId
  /-- The channel of a socket whose task has not begun is empty. -/
  empty : ∀ id socket, s.sockets.lookup id = some socket → socket.phase = .upgrading →
    socket.queue = []

/-- Levels are on their way only to sockets that are registered. -/
def Registered (s : ControlSockets) : Prop :=
  ∀ id, s.loops id = true → s.underWay id ≠ [] →
    ∃ deviceId, s.connections.lookup deviceId = some id

variable {s s' : ControlSockets} {id k target : ℕ} {socket socket' : ControlSocket}
  {posted : Posted} {i : Step} {deviceId : DeviceId}

theorem lanes_new : new.Lanes :=
  ⟨nofun, fun _ _ _ hmem => (nomatch hmem), fun _ _ hmem => (nomatch hmem), nofun, nofun, nofun⟩

theorem loops_of_lookup (hsocket : s.sockets.lookup id = some socket) :
    s.loops id = socket.phase.looping := by
  rw [loops, hsocket, Option.any_some]

theorem underWay_of_lookup (hsocket : s.sockets.lookup id = some socket) :
    s.underWay id = socket.volumes ++ s.coming id := by
  rw [underWay, hsocket, Option.elim_some]

theorem loops_put : (s.put id socket).loops k =
    if k = id then socket.phase.looping else s.loops k := by
  unfold loops
  rw [lookup_put]
  split
  · exact Option.any_some
  · rfl

theorem underWay_put : (s.put id socket).underWay k =
    if k = id then socket.volumes ++ s.coming id else s.underWay k := by
  unfold underWay
  rw [lookup_put]
  split
  · next heq =>
    subst heq
    rfl
  · rfl

/-- A socket that is written down with the levels it had. -/
theorem underWay_put_of_volumes (hsocket : s.sockets.lookup id = some socket)
    (hvolumes : socket'.volumes = socket.volumes) :
    (s.put id socket').underWay k = s.underWay k := by
  rw [underWay_put]
  split
  · next heq =>
    subst heq
    rw [underWay_of_lookup hsocket, hvolumes]
  · rfl

/-- The last level a device will have heard of. -/
def hears (s : ControlSockets) (told : Table DeviceId SoftFloat) (deviceId : DeviceId) :
    Option SoftFloat :=
  (s.pending deviceId).getLast?.or (told.lookup deviceId)

/-- What a step does to the levels on their way. -/
inductive Carries (s : ControlSockets) (i : Step) (s' : ControlSockets) : Prop
  /-- Nothing. -/
  | same (hsilent : s.written i = none)
    (hconnections : s'.connections = s.connections) (hloops : ∀ k, s'.loops k = s.loops k)
    (hunderWay : ∀ k, s.loops k = true → s'.underWay k = s.underWay k)
  /-- A socket begins to be served. -/
  | opens {id : ℕ} {socket : ControlSocket} (hi : i = .register id)
    (hsocket : s.sockets.lookup id = some socket) (hphase : socket.phase = .upgrading)
    (hconnections : s'.connections = s.connections.insert socket.deviceId id)
    (hloops : ∀ k, s'.loops k = if k = id then true else s.loops k)
    (hunderWay : ∀ k, s'.underWay k = s.underWay k)
  /-- A socket is lost. -/
  | drops {id : ℕ} {socket : ControlSocket} (hi : i = .receive id .close ∨ i = .written id false)
    (hsocket : s.sockets.lookup id = some socket) (hloop : socket.phase.looping = true)
    (hconnections : s'.connections = s.connections)
    (hloops : ∀ k, s'.loops k = if k = id then false else s.loops k)
    (hunderWay : ∀ k, k ≠ id → s'.underWay k = s.underWay k)
  /-- A level is written. -/
  | tells {id : ℕ} {socket : ControlSocket} {posted : Posted} {level : SoftFloat}
    (hi : i = .written id true) (hsocket : s.sockets.lookup id = some socket)
    (hphase : socket.phase = .writing posted) (hlevel : posted.event.volume = some level)
    (hconnections : s'.connections = s.connections) (hloops : ∀ k, s'.loops k = s.loops k)
    (hunderWay : ∀ k, k ≠ id → s'.underWay k = s.underWay k)
    (hfirst : s.underWay id = level :: s'.underWay id)
  /-- A socket that has left its loop is removed. -/
  | removes {id : ℕ} {socket : ControlSocket} (hi : i = .remove id)
    (hsocket : s.sockets.lookup id = some socket) (hphase : socket.phase = .leaving)
    (hconnections : ∀ d, s'.connections.lookup d =
      if s.connections.lookup d = some id ∧ d = socket.deviceId then none
      else s.connections.lookup d)
    (hloops : ∀ k, s'.loops k = s.loops k)
    (hunderWay : ∀ k, s.loops k = true → s'.underWay k = s.underWay k)

/-- An event that is no level, put into a channel, leaves all levels on their way. -/
theorem offer_plain (hoffer : s.offer target posted = some s')
    (hplain : posted.event.volume = none) :
    (∀ k, s'.loops k = s.loops k) ∧ ∀ k, s'.underWay k = s.underWay k := by
  obtain rfl | ⟨socket, hsocket, -, -, rfl⟩ := offer_cases hoffer
  · exact ⟨fun _ => rfl, fun _ => rfl⟩
  refine ⟨fun k => ?_, fun k => underWay_put_of_volumes hsocket ?_⟩
  · rw [loops_put]
    split
    · next heq => rw [heq, loops_of_lookup hsocket]
    · rfl
  · simp [ControlSocket.volumes, hplain]

/-- A task that moves on within its loop without an event in its hands. -/
theorem carries_move (hsocket : s.sockets.lookup id = some socket)
    (hloop : socket.phase.looping = true) (hvolume : socket.phase.volume = none)
    (hsilent : s.written i = none)
    {phase : SocketPhase} (hloop' : phase.looping = true) (hvolume' : phase.volume = none) :
    s.Carries i (s.put id { socket with phase }) := by
  refine .same hsilent rfl (fun k => ?_) fun k _ => underWay_put_of_volumes hsocket ?_
  · rw [loops_put]
    split
    · next heq => rw [heq, loops_of_lookup hsocket, hloop, hloop']
    · rfl
  · simp only [ControlSocket.volumes, hvolume, hvolume']

/-- What senders other than the watcher take up carries no level. -/
theorem coming_insert {sender : EventSender} {rest : List (ℕ × Posted)}
    (hsender : sender ≠ volumeWatcher) :
    { s with senders := s.senders.insert sender rest }.coming k = s.coming k := by
  unfold coming
  rw [outstanding_insert, if_neg hsender.symm]

/-- An event that is put into a channel goes from what is still to come into the queue. -/
theorem Lanes.deliver (h : s.Lanes) {sender : EventSender} {rest : List (ℕ × Posted)}
    (houtstanding : s.outstanding sender = (target, posted) :: rest)
    (hoffer : s.offer target posted = some s') :
    s.Carries (.deliver sender) { s' with senders := s'.senders.insert sender rest } := by
  by_cases hsender : sender = volumeWatcher
  · subst hsender
    have hcoming (k : ℕ) : s.coming k = (if target = k then posted.event.volume else none).toList ++
        { s' with senders := s'.senders.insert volumeWatcher rest }.coming k := by
      unfold coming
      rw [outstanding_insert, if_pos rfl, houtstanding, List.filterMap_cons]
      cases (if target = k then posted.event.volume else none) <;> rfl
    obtain ⟨rfl, hclosed⟩ | ⟨socket, hsocket, -, -, rfl⟩ := offer_spec hoffer
    · refine .same rfl rfl (fun _ => rfl) fun k hloop => ?_
      have hne : target ≠ k := by
        rintro rfl
        cases hsocket : s'.sockets.lookup target with
        | none =>
          rw [loops, hsocket] at hloop
          cases hloop
        | some socket =>
          rw [loops_of_lookup hsocket, hclosed socket hsocket] at hloop
          cases hloop
      have hsame := hcoming k
      rw [if_neg hne] at hsame
      exact congrArg (_ ++ ·) hsame.symm
    · refine .same rfl rfl (fun k => ?_) fun k _ => ?_
      · refine loops_put.trans ?_
        split
        · next heq => rw [heq, loops_of_lookup hsocket]
        · rfl
      · change ((s.put target _).sockets.lookup k).elim [] (·.volumes) ++ _ = _
        rw [underWay, hcoming k, lookup_put]
        split
        · next heq =>
          subst heq
          rw [hsocket, if_pos rfl, Option.elim_some, Option.elim_some, ← List.append_assoc]
          congr 1
          simp only [ControlSocket.volumes, List.filterMap_append, List.append_assoc]
          cases hvolume : posted.event.volume <;> simp [hvolume]
        · next hne => rw [if_neg (Ne.symm hne)]; rfl
  · have hplain : posted.event.volume = none :=
      h.senders sender hsender (target, posted) (houtstanding ▸ List.mem_cons_self)
    obtain ⟨hloops, hunderWay⟩ := offer_plain hoffer hplain
    refine .same rfl (offer_connections hoffer :) hloops fun k _ => ?_
    rw [← hunderWay k]
    exact congrArg (_ ++ ·) (coming_insert hsender)

/-- A socket that is written down without a level in its hands leaves its loop or returns. -/
theorem loops_put_of_phase (hsocket : s.sockets.lookup id = some socket)
    (hloop : socket'.phase.looping = socket.phase.looping) :
    (s.put id socket').loops k = s.loops k := by
  rw [loops_put]
  split
  · next heq => rw [heq, loops_of_lookup hsocket, hloop]
  · rfl

/-- Every step of the others does one of these things to the levels on their way. -/
theorem Lanes.carries (h : s.Lanes) (hfires : s.Fires i s') (hothers : i.others = true) :
    s.Carries i s' := by
  cases hfires with
  | connect pending => exact .same rfl rfl (fun _ => rfl) fun _ _ => rfl
  | revoke deviceId generation => exact .same rfl rfl (fun _ => rfl) fun _ _ => rfl
  | revokeAll => exact .same rfl rfl (fun _ => rfl) fun _ _ => rfl
  | submit command hroom => exact .same rfl rfl (fun _ => rfl) fun _ _ => rfl
  | dispatch hidle => exact .same rfl rfl (fun _ => rfl) fun _ _ => rfl
  | upgrade hsession =>
    have hnone : s.sockets.lookup s.upgraded = none := by
      refine Option.eq_none_iff_forall_ne_some.mpr fun socket hsocket => ?_
      exact absurd (h.numbered _ socket hsocket) (Nat.lt_irrefl _)
    have hfresh : s.loops s.upgraded = false := by
      rw [loops, hnone, Option.any_none]
    refine .same rfl rfl (fun k => loops_put.trans ?_) fun k hloop => underWay_put.trans (if_neg ?_)
    · split
      · next heq => rw [heq, hfresh]; rfl
      · rfl
    · rintro rfl
      nomatch hfresh.symm.trans hloop
  | register hsocket hphase =>
    refine .opens rfl hsocket hphase rfl (fun k => loops_put) fun k => ?_
    refine underWay_put_of_volumes hsocket ?_
    simp only [ControlSocket.volumes, hphase, SocketPhase.volume]
  | receive hsocket hphase =>
    exact carries_move hsocket (by rw [hphase]; rfl) (by rw [hphase]; rfl) rfl rfl rfl
  | hangUp hsocket hphase =>
    refine .drops (.inl rfl) hsocket (by rw [hphase]; rfl) rfl (fun k => loops_put) fun k hne => ?_
    exact underWay_put.trans (if_neg hne)
  | handOver hsocket hphase hroom hnext =>
    refine .same rfl rfl (fun k => loops_put_of_phase hsocket ?_)
      fun k _ => underWay_put_of_volumes hsocket ?_
    · obtain rfl | rfl := hnext <;> rw [hphase] <;> rfl
    · obtain rfl | rfl := hnext <;> simp only [ControlSocket.volumes, hphase, SocketPhase.volume]
  | giveUp hsocket hphase =>
    exact carries_move hsocket (by rw [hphase]; rfl) (by rw [hphase]; rfl) rfl rfl rfl
  | acknowledge hsocket hphase htarget =>
    exact carries_move hsocket (by rw [hphase]; rfl) (by rw [hphase]; rfl) rfl rfl rfl
  | answer hsocket hphase hoffer hafter =>
    obtain ⟨hloops, hunderWay⟩ := offer_plain hoffer (h.answers _ _ _ _ hsocket hphase).1
    refine .same rfl (offer_connections hoffer :) (fun k => ?_) fun k _ => ?_
    · rw [loops_put_of_phase hafter (by rw [hphase]; rfl), hloops]
    · rw [underWay_put_of_volumes hafter, hunderWay]
      simp only [ControlSocket.volumes, hphase, SocketPhase.volume]
  | @take _ posted _ _ hsocket hphase hqueue =>
    refine .same rfl rfl (fun k => loops_put_of_phase hsocket (by rw [hphase]; rfl))
      fun k _ => underWay_put_of_volumes hsocket ?_
    simp only [ControlSocket.volumes, hphase, SocketPhase.volume, hqueue, List.filterMap_cons]
    cases posted.event.volume <;> rfl
  | @written id ok posted socket hsocket hphase =>
    have hloop : socket.phase.looping = true := by rw [hphase]; rfl
    cases ok with
    | false =>
      refine .drops (.inr rfl) hsocket hloop rfl (fun k => loops_put) fun k hne => ?_
      exact underWay_put.trans (if_neg hne)
    | true =>
      cases hlevel : posted.event.volume with
      | none =>
        refine carries_move hsocket hloop (by rw [hphase]; exact hlevel) ?_ rfl rfl
        simp only [ControlSockets.written, hsocket, hphase, hlevel, Option.map_none]
      | some level =>
        refine .tells rfl hsocket hphase hlevel rfl (fun k => ?_) (fun k hne => ?_) ?_
        · exact loops_put_of_phase hsocket hloop.symm
        · exact underWay_put.trans (if_neg hne)
        · rw [underWay_put, if_pos rfl, underWay_of_lookup hsocket]
          simp only [ControlSocket.volumes, hphase, SocketPhase.volume, hlevel]
          rfl
  | @remove _ socket hsocket hphase =>
    refine .removes rfl hsocket hphase (fun d => ?_) (fun k => ?_) fun k hloop => ?_
    · simp only
      split
      · next hown =>
        rw [Table.lookup_erase_eq]
        split
        · next heq => rw [if_pos ⟨heq ▸ hown, heq⟩]
        · next hne => rw [if_neg fun hboth => hne hboth.2]
      · next hother =>
        rw [if_neg]
        rintro ⟨hown, rfl⟩
        exact hother hown
    · exact loops_put_of_phase hsocket (by rw [hphase]; rfl)
    · refine underWay_put.trans (if_neg ?_)
      rintro rfl
      rw [loops_of_lookup hsocket, hphase] at hloop
      cases hloop
  | finish hsocket hphase =>
    refine .same rfl rfl (fun k => ?_) fun k hloop => ?_
    · exact loops_put_of_phase hsocket (by rw [hphase]; rfl)
    · refine underWay_put.trans (if_neg ?_)
      rintro rfl
      rw [loops_of_lookup hsocket, hphase] at hloop
      cases hloop
  | send hidle hid =>
    have hsender := of_decide_eq_true (Bool.and_eq_true_iff.mp hothers).1
    exact .same rfl rfl (fun _ => rfl) fun k _ => congrArg (_ ++ ·) (coming_insert hsender)
  | broadcast order event hidle =>
    have hsender := of_decide_eq_true (Bool.and_eq_true_iff.mp hothers).1
    exact .same rfl rfl (fun _ => rfl) fun k _ => congrArg (_ ++ ·) (coming_insert hsender)
  | notifyError hid hoffer =>
    obtain ⟨hloops, hunderWay⟩ := offer_plain hoffer rfl
    exact .same rfl (offer_connections hoffer) hloops fun k _ => hunderWay k
  | deliver houtstanding hoffer => exact h.deliver houtstanding hoffer

/-- A level that is written is written by a step that is due. -/
theorem fires_of_written {pair : DeviceId × SoftFloat} (hwritten : s.written i = some pair) :
    s.Fires i (s.step i) := by
  unfold ControlSockets.written at hwritten
  split at hwritten
  · split at hwritten
    · next socket hsocket =>
      split at hwritten
      · next posted hphase =>
        simp only [step, proceed_of_lookup hsocket, eventWritten, hphase]
        exact .written hsocket hphase
      · cases hwritten
    · cases hwritten
  · cases hwritten

/-- So does every step, due or not. -/
theorem Lanes.carries_step (h : s.Lanes) (hothers : i.others = true) : s.Carries i (s.step i) := by
  cases hwritten : s.written i with
  | some pair => exact h.carries (fires_of_written hwritten) hothers
  | none =>
    obtain hsame | hfires := s.step_fires i
    · rw [hsame]
      exact .same hwritten rfl (fun _ => rfl) fun _ _ => rfl
    · exact h.carries hfires hothers

/-! ### Who sends what to whom -/

theorem Begun.put (h : s.Begun k) (hbegun : socket'.phase ≠ .upgrading) :
    (s.put id socket').Begun k := by
  obtain ⟨socket, hsocket, hphase⟩ := h
  by_cases heq : k = id
  · exact ⟨socket', (lookup_put k).trans (if_pos heq), hbegun⟩
  · exact ⟨socket, (lookup_put k).trans ((if_neg heq).trans hsocket), hphase⟩

/-- A socket whose task has begun is written down with its device. -/
theorem Lanes.put (h : s.Lanes) (hsocket : s.sockets.lookup id = some socket)
    (hdevice : socket'.deviceId = socket.deviceId) (hbegun : socket'.phase ≠ .upgrading)
    (hanswers : ∀ target posted, socket'.phase = .answering target posted →
      posted.event.volume = none ∧ s.Begun target) : (s.put id socket').Lanes := by
  have hself : (s.put id socket').sockets.lookup id = some socket' :=
    (lookup_put id).trans (if_pos rfl)
  refine ⟨h.numbered.put hsocket, h.senders,
    fun sender entry hmem => (h.targets sender entry hmem).put hbegun,
    fun k other target posted hother hphase => ?_, fun deviceId k hk => ?_,
    fun k other hother hphase => ?_⟩
  · obtain ⟨-, rfl⟩ | hbefore := lookup_put_cases hother
    · exact (hanswers target posted hphase).imp_right fun htarget => htarget.put hbegun
    · exact (h.answers k other target posted hbefore hphase).imp_right
        fun htarget => htarget.put hbegun
  · obtain ⟨hentry, other, hother, hothers⟩ := h.entries deviceId k hk
    refine ⟨hentry.put hbegun, ?_⟩
    by_cases heq : k = id
    · subst heq
      obtain rfl := Option.some.inj (hsocket.symm.trans hother)
      exact ⟨socket', hself, hdevice.trans hothers⟩
    · exact ⟨other, (lookup_put k).trans ((if_neg heq).trans hother), hothers⟩
  · obtain ⟨-, rfl⟩ | hbefore := lookup_put_cases hother
    · exact absurd hphase hbegun
    · exact h.empty k other hbefore hphase

/-- An event enters the channel of a socket whose task has begun. -/
theorem Lanes.offer (h : s.Lanes) (hoffer : s.offer target posted = some s')
    (htarget : s.Begun target) : s'.Lanes := by
  obtain rfl | ⟨socket, hsocket, -, -, rfl⟩ := offer_cases hoffer
  · exact h
  obtain ⟨other, hother, hbegun⟩ := htarget
  obtain rfl := Option.some.inj (hsocket.symm.trans hother)
  exact h.put hsocket rfl hbegun fun target' posted' hphase =>
    h.answers target socket target' posted' hsocket hphase

/-- A sender takes up events for sockets whose tasks have begun. -/
theorem Lanes.takeUp (h : s.Lanes) {sender : EventSender} {events : List (ℕ × Posted)}
    (hplain : sender ≠ volumeWatcher → ∀ entry ∈ events, entry.2.event.volume = none)
    (htargets : ∀ entry ∈ events, s.Begun entry.1) :
    Lanes { s with senders := s.senders.insert sender events } := by
  refine ⟨h.numbered, fun sender' hne entry hmem => ?_, fun sender' entry hmem => ?_, h.answers,
    h.entries, h.empty⟩
  · rw [outstanding_insert] at hmem
    split at hmem
    · next heq => exact hplain (heq ▸ hne) entry hmem
    · exact h.senders sender' hne entry hmem
  · rw [outstanding_insert] at hmem
    split at hmem
    · exact htargets entry hmem
    · exact h.targets sender' entry hmem

/-- The sockets registered are ones whose tasks have begun. -/
theorem Lanes.begun_of_targets (h : s.Lanes) {order : List DeviceId} {event : WsEvent}
    {entry : ℕ × Posted} (hmem : entry ∈ s.targets order event) :
    s.Begun entry.1 ∧ entry.2.event = event := by
  obtain ⟨deviceId, -, hentry⟩ := List.mem_filterMap.mp hmem
  obtain ⟨target, htarget, rfl⟩ := Option.map_eq_some_iff.mp hentry
  exact ⟨(h.entries deviceId target htarget).1, rfl⟩

/-- A request is authenticated: there is a socket whose task has not begun. -/
theorem Lanes.upgrade (h : s.Lanes) (hphase : socket.phase = .upgrading)
    (hqueue : socket.queue = []) :
    Lanes { s.put s.upgraded socket with upgraded := s.upgraded + 1 } := by
  have hbegun {k : ℕ} (hk : s.Begun k) :
      Begun { s.put s.upgraded socket with upgraded := s.upgraded + 1 } k := by
    obtain ⟨other, hother, hphase⟩ := hk
    have hlt := h.numbered k other hother
    exact ⟨other, (lookup_put k).trans ((if_neg (by omega)).trans hother), hphase⟩
  refine ⟨fun k other hother => ?_, h.senders,
    fun sender entry hmem => hbegun (h.targets sender entry hmem),
    fun k other target posted hother hphase' => ?_, fun deviceId k hk => ?_,
    fun k other hother hphase' => ?_⟩
  · obtain ⟨rfl, -⟩ | hbefore := lookup_put_cases hother
    · exact Nat.lt_succ_self _
    · exact Nat.lt_succ_of_lt (h.numbered k other hbefore)
  · obtain ⟨-, rfl⟩ | hbefore := lookup_put_cases hother
    · nomatch hphase.symm.trans hphase'
    · exact (h.answers k other target posted hbefore hphase').imp_right hbegun
  · obtain ⟨hentry, other, hother, hothers⟩ := h.entries deviceId k hk
    have hlt := h.numbered k other hother
    exact ⟨hbegun hentry, other, (lookup_put k).trans ((if_neg (by omega)).trans hother), hothers⟩
  · obtain ⟨-, rfl⟩ | hbefore := lookup_put_cases hother
    · exact hqueue
    · exact h.empty k other hbefore hphase'

/-- The map changes: what is registered is as it was or a socket of the device. -/
theorem Lanes.connections (h : s.Lanes) {connections : Table DeviceId ℕ}
    (hentries : ∀ deviceId id, connections.lookup deviceId = some id →
      s.connections.lookup deviceId = some id ∨ s.Begun id ∧
        ∃ socket, s.sockets.lookup id = some socket ∧ socket.deviceId = deviceId) :
    Lanes { s with connections } :=
  ⟨h.numbered, h.senders, h.targets, h.answers, fun deviceId id hid =>
    (hentries deviceId id hid).elim (h.entries deviceId id) fun hnew => hnew, h.empty⟩

/-- A task moves on. -/
theorem Lanes.move (h : s.Lanes) (hsocket : s.sockets.lookup id = some socket)
    {phase : SocketPhase} (hbegun : phase ≠ .upgrading)
    (hanswers : ∀ target posted, phase ≠ .answering target posted) :
    (s.put id { socket with phase }).Lanes :=
  h.put hsocket rfl hbegun fun target posted hphase => absurd hphase (hanswers target posted)

/-- Commands and sessions change nothing. -/
theorem Lanes.frame (h : s.Lanes) {authorizer : SessionAuthorizer} {committed : Table DeviceId ℕ}
    {commands : List ControlCommand} : Lanes { s with authorizer, committed, commands } :=
  ⟨h.numbered, h.senders, h.targets, h.answers, h.entries, h.empty⟩

/-- Every step leaves it so. -/
theorem Lanes.step (h : s.Lanes) (hi : i.others = true ∨
    ∃ order event, i = .broadcast volumeWatcher order event) : (s.step i).Lanes := by
  obtain hsame | hfires := s.step_fires i
  · rw [hsame]
    exact h
  have hplain {sender : EventSender} {event : WsEvent}
      (hothers : (decide (sender ≠ volumeWatcher) && event.volume.isNone) = true) :
      event.volume = none := Option.isNone_iff_eq_none.mp (Bool.and_eq_true_iff.mp hothers).2
  generalize s.step i = s' at hfires
  cases hfires with
  | connect pending => exact h.frame
  | revoke deviceId generation => exact h.frame
  | revokeAll => exact h.frame
  | submit command hroom => exact h.frame
  | dispatch hidle => exact h.frame
  | upgrade hsession => exact h.upgrade rfl rfl
  | @register id socket hsocket hphase =>
    have hmoved : (s.put id { socket with phase := .selecting }).Lanes :=
      h.move hsocket nofun nofun
    have hself : (s.put id { socket with phase := .selecting }).sockets.lookup id = some _ :=
      (lookup_put id).trans (if_pos rfl)
    refine hmoved.connections fun deviceId k hk => ?_
    rw [Table.lookup_insert_eq] at hk
    split at hk
    · next heq =>
      obtain rfl := Option.some.inj hk
      exact .inr ⟨⟨_, hself, nofun⟩, _, hself, heq.symm⟩
    · exact .inl hk
  | receive hsocket hphase => exact h.move hsocket nofun nofun
  | hangUp hsocket hphase => exact h.move hsocket nofun nofun
  | handOver hsocket hphase hroom hnext =>
    refine Lanes.frame (h.move hsocket ?_ ?_)
    · obtain rfl | rfl := hnext <;> nofun
    · obtain rfl | rfl := hnext <;> nofun
  | giveUp hsocket hphase => exact h.move hsocket nofun nofun
  | acknowledge hsocket hphase htarget =>
    refine h.put hsocket rfl nofun fun target posted heq => ?_
    obtain ⟨rfl, rfl⟩ := SocketPhase.answering.inj heq
    exact ⟨rfl, (h.entries _ _ htarget).1⟩
  | answer hsocket hphase hoffer hafter =>
    exact (h.offer hoffer (h.answers _ _ _ _ hsocket hphase).2).move hafter nofun nofun
  | take hsocket hphase hqueue => exact h.put hsocket rfl nofun nofun
  | @written _ ok _ _ hsocket hphase =>
    refine h.move hsocket ?_ ?_
    · cases ok <;> nofun
    · cases ok <;> nofun
  | @remove id socket hsocket hphase =>
    have hmoved : (s.put id { socket with phase := .closing }).Lanes := h.move hsocket nofun nofun
    refine hmoved.connections fun deviceId k hk => .inl ?_
    split at hk
    · rw [Table.lookup_erase_eq] at hk
      split at hk
      · cases hk
      · exact hk
    · exact hk
  | finish hsocket hphase => exact h.put hsocket rfl nofun nofun
  | @send sender deviceId event id hidle hid =>
    refine h.takeUp (fun hne entry hmem => ?_) fun entry hmem => ?_
    · obtain rfl := List.mem_singleton.mp hmem
      obtain hothers | ⟨_, _, heq⟩ := hi
      · exact hplain hothers
      · nomatch heq
    · obtain rfl := List.mem_singleton.mp hmem
      exact (h.entries deviceId id hid).1
  | @broadcast sender order event hidle =>
    refine h.takeUp (fun hne entry hmem => ?_) fun entry hmem => (h.begun_of_targets hmem).1
    rw [(h.begun_of_targets hmem).2]
    obtain hothers | ⟨_, _, heq⟩ := hi
    · exact hplain hothers
    · exact absurd (Step.broadcast.inj heq).1 hne
  | notifyError hid hoffer => exact h.offer hoffer (h.entries _ _ hid).1
  | @deliver sender target posted rest after houtstanding hoffer =>
    have hmem : (target, posted) ∈ s.outstanding sender := houtstanding ▸ List.mem_cons_self
    have hafter := h.offer hoffer (h.targets sender _ hmem)
    have hsame : after.outstanding sender = (target, posted) :: rest := by
      rw [ControlSockets.outstanding, offer_senders hoffer, ← ControlSockets.outstanding,
        houtstanding]
    refine hafter.takeUp (fun hne entry hrest => ?_) fun entry hrest => ?_
    · exact hafter.senders sender hne entry (hsame ▸ List.mem_cons_of_mem _ hrest)
    · exact hafter.targets sender entry (hsame ▸ List.mem_cons_of_mem _ hrest)

end ControlSockets

end Gemacast.Control
