import Gemacast.Control.ControlSockets

/-!
# The task of a socket and its own channel

A heartbeat is acknowledged through the channel that is registered for the device, which as
a rule is the one the task itself empties. A task that finds it full waits for good, and so
does everybody who has an event for the device. Nobody waits for good as long as a channel has
room for one more event while its task handles a message of the phone.
-/

namespace Gemacast.Control

open Gemacast.Core Gemacast.Streamer

namespace ControlSockets

/-- The socket whose task takes a step. -/
def Step.task : Step → Option ℕ
  | .register id | .handOver id | .acknowledge id | .answer id | .take id | .written id _
  | .remove id | .finish id => some id
  | _ => none

/-- The task of a socket waits for room in its own channel. -/
def AwaitsItself (s : ControlSockets) (id : ℕ) : Prop :=
  ∃ socket posted, s.sockets.lookup id = some socket ∧ socket.phase = .answering id posted ∧
    eventCapacity ≤ socket.queue.length

/-- No task waits for itself, and whoever waits for a full channel waits for nothing but the
task that empties it, which can go on as long as the phone reads. -/
structure Unblocked (s : ControlSockets) : Prop where
  /-- No task waits for room in its own channel. -/
  self : ∀ id, ¬s.AwaitsItself id
  /-- The task of a full channel can make room in it. -/
  freed : ∀ id, s.Full id → ∃ steps, (∀ i ∈ steps, i.task = some id) ∧
    ¬(machine.runFrom s steps).Full id

/-! ### Runs that leave room -/

/-- The task of a socket handles a message of the phone. -/
def Handling (s : ControlSockets) (id : ℕ) : Prop :=
  ∃ socket, s.sockets.lookup id = some socket ∧ socket.phase.handling = true

/-- A channel has room for a number of events. -/
def HasRoom (s : ControlSockets) (id n : ℕ) : Prop :=
  ∀ socket, s.sockets.lookup id = some socket → socket.queue.length + n ≤ eventCapacity

/-- A step that puts an event of another task into a channel. -/
def Enters (s : ControlSockets) (id : ℕ) : Step → Prop
  | .deliver sender => ∃ posted rest, s.outstanding sender = (id, posted) :: rest
  | .answer other => other ≠ id ∧ ∃ socket posted, s.sockets.lookup other = some socket ∧
    socket.phase = .answering id posted
  | .notifyError deviceId _ => s.connections.lookup deviceId = some id
  | _ => False

/-- A command of the phone is taken up only while the channel of the socket has room, and as
long as it is handled no event of another task takes the last place. -/
structure LeavesRoom (s : ControlSockets) (i : Step) : Prop where
  /-- The channel has room for the answer. -/
  receive : ∀ id command, i = .receive id (.command command) → s.HasRoom id 1
  /-- An event of another task leaves room for the answer. -/
  enters : ∀ id, s.Enters id i → s.Handling id → s.HasRoom id 2

/-- No channel holds more than it may, and that of a task that handles a message has room. -/
def Roomy (s : ControlSockets) : Prop :=
  ∀ id socket, s.sockets.lookup id = some socket → socket.queue.length ≤ eventCapacity ∧
    (socket.phase.handling = true → socket.queue.length < eventCapacity)

variable {s s' : ControlSockets} {id target : ℕ} {socket : ControlSocket} {posted : Posted}
  {i : Step}

theorem roomy_new : new.Roomy := nofun

/-- A socket that is written down keeps the invariant if it has it. -/
theorem Roomy.put (h : s.Roomy) (hlength : socket.queue.length ≤ eventCapacity)
    (hhandling : socket.phase.handling = true → socket.queue.length < eventCapacity) :
    (s.put id socket).Roomy := by
  intro k socket' hlookup
  obtain ⟨-, rfl⟩ | hbefore := lookup_put_cases hlookup
  · exact ⟨hlength, hhandling⟩
  · exact h k socket' hbefore

/-- A task that handles nothing keeps the invariant. -/
theorem Roomy.idle (h : s.Roomy) (hsocket : s.sockets.lookup id = some socket)
    {phase : SocketPhase} (hphase : phase.handling = false) :
    (s.put id { socket with phase }).Roomy := by
  refine h.put (h id socket hsocket).1 fun hhandling => ?_
  nomatch hphase.symm.trans hhandling

/-- A task that goes on handling a message keeps the invariant. -/
theorem Roomy.handled (h : s.Roomy) (hsocket : s.sockets.lookup id = some socket)
    (hphase : socket.phase.handling = true) {phase : SocketPhase} :
    (s.put id { socket with phase }).Roomy :=
  h.put (h id socket hsocket).1 fun _ => (h id socket hsocket).2 hphase

/-- An event that leaves room where a message is handled keeps the invariant. -/
theorem Roomy.offer (h : s.Roomy) (hoffer : s.offer target posted = some s')
    (hroom : s.Handling target → s.HasRoom target 2) : s'.Roomy := by
  obtain rfl | ⟨socket, hsocket, -, hlength, rfl⟩ := offer_cases hoffer
  · exact h
  · refine h.put ?_ fun hhandling => ?_
    · rw [List.length_append, List.length_singleton]
      omega
    · have hspare := hroom ⟨socket, hsocket, hhandling⟩ socket hsocket
      rw [List.length_append, List.length_singleton]
      omega

/-- A task that acknowledges a heartbeat keeps the invariant: it may take the last place of its
own channel, for it handles nothing any more. -/
theorem Roomy.answer (h : s.Roomy) (hok : s.LeavesRoom (.answer id)) {queue : List Posted}
    (hsocket : s.sockets.lookup id = some socket) (hphase : socket.phase = .answering target posted)
    (hoffer : s.offer target posted = some s')
    (hafter : s'.sockets.lookup id = some { socket with queue }) :
    (s'.put id { socket with queue, phase := .selecting }).Roomy := by
  have hself : target = id → s'.Roomy ∨
      s' = s.put id { socket with queue := socket.queue ++ [posted] } ∧
        socket.queue.length < eventCapacity := by
    rintro rfl
    obtain rfl | ⟨socket', hsocket', -, hlength, rfl⟩ := offer_cases hoffer
    · exact .inl h
    · obtain rfl := Option.some.inj (hsocket.symm.trans hsocket')
      exact .inr ⟨rfl, hlength⟩
  have hother : target ≠ id → s'.Roomy := fun hne =>
    h.offer hoffer (hok.enters target ⟨Ne.symm hne, socket, posted, hsocket, hphase⟩)
  by_cases heq : target = id
  · obtain hroomy | ⟨rfl, hlength⟩ := hself heq
    · exact hroomy.idle hafter rfl
    · rw [lookup_put, if_pos rfl] at hafter
      obtain rfl : socket.queue ++ [posted] = queue :=
        congrArg ControlSocket.queue (Option.some.inj hafter)
      intro k other hlookup
      simp only [lookup_put] at hlookup
      split at hlookup
      · obtain rfl := Option.some.inj hlookup
        refine ⟨?_, nofun⟩
        rw [List.length_append, List.length_singleton]
        exact hlength
      · exact h k other hlookup
  · exact (hother heq).idle hafter rfl

/-- A step that leaves room keeps the invariant. -/
theorem Roomy.step (h : s.Roomy) (hok : s.LeavesRoom i) : (s.step i).Roomy := by
  obtain hsame | hfires := s.step_fires i
  · rw [hsame]
    exact h
  generalize s.step i = s' at hfires
  cases hfires with
  | connect pending => exact h
  | revoke deviceId generation => exact h
  | revokeAll => exact h
  | send hidle hid => exact h
  | broadcast order event hidle => exact h
  | submit command hroom => exact h
  | dispatch hidle => exact h
  | upgrade hsession => exact h.put (Nat.zero_le _) nofun
  | register hsocket hphase => exact h.idle hsocket rfl
  | receive hsocket hphase =>
    have hroom := hok.receive _ _ rfl _ hsocket
    exact h.put (h _ _ hsocket).1 fun _ => hroom
  | hangUp hsocket hphase => exact h.idle hsocket rfl
  | handOver hsocket hphase hroom hnext => exact h.handled hsocket (by rw [hphase]; rfl)
  | giveUp hsocket hphase => exact h.idle hsocket rfl
  | acknowledge hsocket hphase htarget => exact h.handled hsocket (by rw [hphase]; rfl)
  | answer hsocket hphase hoffer hafter => exact h.answer hok hsocket hphase hoffer hafter
  | take hsocket hphase hqueue =>
    have hlength := (h _ _ hsocket).1
    rw [hqueue, List.length_cons] at hlength
    exact h.put (Nat.le_of_succ_le hlength) nofun
  | @written _ ok _ _ hsocket hphase =>
    apply h.idle hsocket
    cases ok <;> rfl
  | remove hsocket hphase => exact h.idle hsocket rfl
  | finish hsocket hphase => exact h.put (Nat.zero_le _) nofun
  | notifyError hid hoffer => exact h.offer hoffer (hok.enters _ hid)
  | deliver houtstanding hoffer => exact (h.offer hoffer (hok.enters _ ⟨_, _, houtstanding⟩) :)

/-! ### Nobody waits for good -/

/-- A channel that is closed or has room is not full. -/
theorem not_full_of_lookup (hsocket : s.sockets.lookup id = some socket)
    (hroom : socket.phase = .closed ∨ socket.queue.length < eventCapacity) : ¬s.Full id := by
  rintro ⟨socket', hlookup, hopen, hlength⟩
  obtain rfl := Option.some.inj (hsocket.symm.trans hlookup)
  obtain hclosed | hroom := hroom
  · exact hopen hclosed
  · omega

/-- A task that takes an event makes room. -/
theorem Roomy.taken (h : s.Roomy) (hsocket : s.sockets.lookup id = some socket)
    (hphase : socket.phase = .selecting) : ¬(s.step (.take id)).Full id := by
  have hlength := (h id socket hsocket).1
  simp only [ControlSockets.step, proceed_of_lookup hsocket, takeEvent, hphase]
  split
  · next posted queue _ hqueue =>
    rw [hqueue, List.length_cons] at hlength
    exact not_full_of_lookup ((lookup_put id).trans (if_pos rfl)) (.inr hlength)
  · next hother =>
    refine not_full_of_lookup hsocket (.inr ?_)
    cases hqueue : socket.queue with
    | nil => exact Nat.zero_lt_succ _
    | cons posted queue => exact absurd hqueue (hother posted queue rfl)

/-- A task that returns closes its channel. -/
theorem not_full_of_finish (hsocket : s.sockets.lookup id = some socket)
    (hphase : socket.phase = .closing) : ¬(s.step (.finish id)).Full id := by
  simp only [ControlSockets.step, proceed_of_lookup hsocket, finishSocket, hphase]
  exact not_full_of_lookup ((lookup_put id).trans (if_pos rfl)) (.inl rfl)

/-- The task of a full channel handles no message, and so can make room in it. -/
theorem Roomy.freed (h : s.Roomy) (hfull : s.Full id) :
    ∃ steps, (∀ i ∈ steps, i.task = some id) ∧ ¬(machine.runFrom s steps).Full id := by
  obtain ⟨socket, hsocket, hopen, hlength⟩ := hfull
  have hidle : ¬socket.phase.handling = true := fun hhandling =>
    absurd ((h id socket hsocket).2 hhandling) (by omega)
  have hown {phase : SocketPhase} : (s.put id { socket with phase }).sockets.lookup id =
      some { socket with phase } := (lookup_put id).trans (if_pos rfl)
  cases hphase : socket.phase with
  | upgrading =>
    refine ⟨[.register id, .take id], by simp [Step.task], ?_⟩
    have hregistered : s.step (.register id) =
        { s.put id { socket with phase := .selecting } with
          connections := s.connections.insert socket.deviceId id } := by
      simp only [ControlSockets.step, proceed_of_lookup hsocket, registerSocket, hphase]
    rw [Machine.runFrom_cons, Machine.runFrom_cons, Machine.runFrom_nil]
    change ¬((s.step (.register id)).step (.take id)).Full id
    rw [hregistered]
    exact Roomy.taken (h.idle hsocket rfl) hown rfl
  | selecting => exact ⟨[.take id], by simp [Step.task], h.taken hsocket hphase⟩
  | writing posted =>
    refine ⟨[.written id true, .take id], by simp [Step.task], ?_⟩
    have hwritten : s.step (.written id true) = s.put id { socket with phase := .selecting } := by
      simp only [ControlSockets.step, proceed_of_lookup hsocket, eventWritten, hphase, if_true]
    change ¬((s.step (.written id true)).step (.take id)).Full id
    rw [hwritten]
    exact Roomy.taken (h.idle hsocket rfl) hown rfl
  | leaving =>
    refine ⟨[.remove id, .finish id], by simp [Step.task], ?_⟩
    have hremoved : (s.step (.remove id)).sockets.lookup id =
        some { socket with phase := .closing } := by
      simp only [ControlSockets.step, proceed_of_lookup hsocket, removeSocket, hphase]
      exact hown
    exact not_full_of_finish hremoved rfl
  | closing => exact ⟨[.finish id], by simp [Step.task], not_full_of_finish hsocket hphase⟩
  | closed => exact absurd hphase hopen
  | reporting command => exact absurd (by rw [hphase]; rfl) hidle
  | acknowledging => exact absurd (by rw [hphase]; rfl) hidle
  | answering target posted => exact absurd (by rw [hphase]; rfl) hidle

/-- Where room is left, no task waits for itself and every full channel can be emptied. -/
theorem Roomy.unblocked (h : s.Roomy) : s.Unblocked := by
  refine ⟨fun id hself => ?_, fun id hfull => h.freed hfull⟩
  obtain ⟨socket, posted, hsocket, hphase, hlength⟩ := hself
  have hroom := (h id socket hsocket).2 (by rw [hphase]; rfl)
  omega

/-- In a run that leaves room in the channels of tasks that handle a message, no task ever
waits for itself and every full channel can be emptied by its task. -/
theorem unblocked_of_run {steps : List Step}
    (hok : ∀ e ∈ machine.events steps, e.before.LeavesRoom e.input) :
    (machine.run steps).Unblocked :=
  (machine.invariant roomy_new (fun _ _ h hok => h.step hok) hok).2.unblocked

/-- A phone connects, opens its socket and sends a heartbeat, which is acknowledged. -/
def oneHeartbeat : List Step :=
  [.connect ⟨"phone", "", 1⟩, .upgrade "phone" "", .register 0,
    .receive 0 (.command .heartbeat), .handOver 0, .acknowledge 0, .answer 0]

theorem unblocked_of_run_oneHeartbeat :
    ((machine.run oneHeartbeat).sockets.lookup 0).map (·.queue) =
      some [⟨.heartbeatAcknowledged, 1⟩] ∧ (machine.run oneHeartbeat).Unblocked := by
  refine ⟨by decide +kernel, unblocked_of_run fun e he => ?_⟩
  simp only [oneHeartbeat, Machine.events, Machine.eventsFrom_cons, Machine.eventsFrom_nil,
    List.mem_cons, List.not_mem_nil, or_false] at he
  obtain rfl | rfl | rfl | rfl | rfl | rfl | rfl := he
  · exact ⟨by rintro _ _ ⟨⟩, by rintro _ ⟨⟩⟩
  · exact ⟨by rintro _ _ ⟨⟩, by rintro _ ⟨⟩⟩
  · exact ⟨by rintro _ _ ⟨⟩, by rintro _ ⟨⟩⟩
  · refine ⟨fun id command heq => ?_, by rintro _ ⟨⟩⟩
    obtain ⟨rfl, -⟩ := Step.receive.inj heq
    intro socket hsocket
    have hempty : ((machine.run (oneHeartbeat.take 3)).sockets.lookup 0).map (·.queue) =
        some [] := by decide +kernel
    rw [show (machine.run (oneHeartbeat.take 3)).sockets.lookup 0 = some socket from hsocket,
      Option.map_some, Option.some.injEq] at hempty
    rw [hempty]
    decide
  · exact ⟨by rintro _ _ ⟨⟩, by rintro _ ⟨⟩⟩
  · exact ⟨by rintro _ _ ⟨⟩, by rintro _ ⟨⟩⟩
  · refine ⟨by rintro _ _ ⟨⟩, ?_⟩
    rintro id ⟨hne, socket, posted, hsocket, hphase⟩
    have hown : ((machine.run (oneHeartbeat.take 6)).sockets.lookup 0).map (·.phase) =
        some (.answering 0 ⟨.heartbeatAcknowledged, 1⟩) := by decide +kernel
    rw [show (machine.run (oneHeartbeat.take 6)).sockets.lookup 0 = some socket from hsocket,
      Option.map_some, Option.some.injEq, hphase] at hown
    exact absurd (SocketPhase.answering.inj hown).1.symm hne

/-! ### Waiting for good -/

/-- A full channel whose task waits for room in it, or waits for the dispatcher, which waits
for room in it. -/
def Stuck (s : ControlSockets) (id : ℕ) : Prop :=
  ∃ socket, s.sockets.lookup id = some socket ∧ eventCapacity ≤ socket.queue.length ∧
    ((∃ posted, socket.phase = .answering id posted) ∨
      (∃ command, socket.phase = .reporting command) ∧
        controlCommandCapacity ≤ s.commands.length ∧
        ∃ posted rest, s.outstanding .dispatcher = (id, posted) :: rest)

theorem AwaitsItself.stuck (h : s.AwaitsItself id) : s.Stuck id := by
  obtain ⟨socket, posted, hsocket, hphase, hlength⟩ := h
  exact ⟨socket, hsocket, hlength, .inl ⟨posted, hphase⟩⟩

theorem Stuck.full (h : s.Stuck id) : s.Full id := by
  obtain ⟨socket, hsocket, hlength, ⟨posted, hphase⟩ | ⟨⟨command, hphase⟩, -⟩⟩ := h
  · exact ⟨socket, hsocket, by rw [hphase]; nofun, hlength⟩
  · exact ⟨socket, hsocket, by rw [hphase]; nofun, hlength⟩

/-- A socket whose task does not wait is another one. -/
theorem Stuck.ne (h : s.Stuck id) (hsocket : s.sockets.lookup target = some socket)
    (hreporting : ∀ command, socket.phase ≠ .reporting command)
    (hanswering : ∀ other posted, socket.phase ≠ .answering other posted) : id ≠ target := by
  rintro rfl
  obtain ⟨socket', hsocket', -, ⟨posted, hphase⟩ | ⟨⟨command, hphase⟩, -⟩⟩ := h
  · obtain rfl := Option.some.inj (hsocket.symm.trans hsocket')
    exact hanswering _ _ hphase
  · obtain rfl := Option.some.inj (hsocket.symm.trans hsocket')
    exact hreporting _ hphase

/-- What another task does to its own socket changes nothing. -/
theorem Stuck.put (h : s.Stuck id) (hne : id ≠ target) : (s.put target socket).Stuck id := by
  obtain ⟨socket', hsocket', hlength, hwaits⟩ := h
  exact ⟨socket', (lookup_put id).trans ((if_neg hne).trans hsocket'), hlength, hwaits⟩

/-- No event enters a full channel. -/
theorem Stuck.offer (h : s.Stuck id) (hoffer : s.offer target posted = some s') :
    target ≠ id ∧ s'.Stuck id := by
  have hne : target ≠ id := by
    rintro rfl
    nomatch (offer_eq_none_iff.mpr h.full).symm.trans hoffer
  obtain rfl | ⟨socket, hsocket, -, -, rfl⟩ := offer_cases hoffer
  · exact ⟨hne, h⟩
  · exact ⟨hne, h.put (Ne.symm hne)⟩

/-- Commands that come in change nothing, nor does what other tasks send. -/
theorem Stuck.frame (h : s.Stuck id) (hsockets : s'.sockets = s.sockets)
    (hcommands : s.commands.length ≤ s'.commands.length)
    (hsenders : s.outstanding .dispatcher ≠ [] →
      s'.outstanding .dispatcher = s.outstanding .dispatcher) : s'.Stuck id := by
  obtain ⟨socket, hsocket, hlength, hwaits⟩ := h
  refine ⟨socket, hsockets ▸ hsocket, hlength, hwaits.imp_right ?_⟩
  rintro ⟨hreporting, hfull, posted, rest, houtstanding⟩
  refine ⟨hreporting, hfull.trans hcommands, posted, rest, ?_⟩
  rw [hsenders (by rw [houtstanding]; nofun)]
  exact houtstanding

/-- No step of anybody ends the wait. -/
theorem Stuck.step (h : s.Stuck id) (hnumbered : s.Numbered) (i : Step) :
    (s.step i).Stuck id := by
  obtain hsame | hfires := s.step_fires i
  · rw [hsame]
    exact h
  -- a sender that begins is not the one that waits
  have hbegins {sender : EventSender} {rest : List (ℕ × Posted)}
      (hidle : s.outstanding sender = []) :
      Stuck { s with senders := s.senders.insert sender rest } id := by
    refine h.frame rfl le_rfl fun hbusy => ?_
    rw [outstanding_insert, if_neg]
    rintro rfl
    exact hbusy hidle
  generalize s.step i = s' at hfires
  cases hfires with
  | connect pending => exact h
  | revoke deviceId generation => exact h
  | revokeAll => exact h
  | send hidle hid => exact hbegins hidle
  | broadcast order event hidle => exact hbegins hidle
  | submit command hroom =>
    refine h.frame rfl ?_ fun _ => rfl
    exact (List.length_append ▸ Nat.le_add_right _ _ :)
  | dispatch hidle =>
    obtain ⟨socket, hsocket, hlength, hself | ⟨-, -, posted, rest, houtstanding⟩⟩ := h
    · exact ⟨socket, hsocket, hlength, .inl hself⟩
    · nomatch hidle.symm.trans houtstanding
  | upgrade hsession =>
    have ⟨socket, hsocket, _⟩ := h
    exact h.put (Nat.ne_of_lt (hnumbered id socket hsocket))
  | register hsocket hphase =>
    exact h.put (h.ne hsocket (by rw [hphase]; nofun) (by rw [hphase]; nofun))
  | receive hsocket hphase =>
    exact h.put (h.ne hsocket (by rw [hphase]; nofun) (by rw [hphase]; nofun))
  | hangUp hsocket hphase =>
    exact h.put (h.ne hsocket (by rw [hphase]; nofun) (by rw [hphase]; nofun))
  | @handOver k command socket hsocket hphase hroom phase hnext =>
    have hne : id ≠ k := by
      rintro rfl
      obtain ⟨socket', hsocket', -, ⟨posted, hself⟩ | ⟨-, hfull, -⟩⟩ := h
      · obtain rfl := Option.some.inj (hsocket.symm.trans hsocket')
        nomatch hphase.symm.trans hself
      · omega
    refine (h.put hne).frame rfl ?_ fun _ => rfl
    exact (List.length_append ▸ Nat.le_add_right _ _ :)
  | giveUp hsocket hphase =>
    exact h.put (h.ne hsocket (by rw [hphase]; nofun) (by rw [hphase]; nofun))
  | acknowledge hsocket hphase htarget =>
    exact h.put (h.ne hsocket (by rw [hphase]; nofun) (by rw [hphase]; nofun))
  | @answer k target posted socket queue after hsocket hphase hoffer hafter =>
    obtain ⟨htarget, hstuck⟩ := h.offer hoffer
    have hne : id ≠ k := by
      rintro rfl
      obtain ⟨socket', hsocket', -, ⟨posted, hself⟩ | ⟨⟨command, hself⟩, -⟩⟩ := h
      · obtain rfl := Option.some.inj (hsocket.symm.trans hsocket')
        rw [hphase] at hself
        exact htarget (SocketPhase.answering.inj hself).1
      · obtain rfl := Option.some.inj (hsocket.symm.trans hsocket')
        nomatch hphase.symm.trans hself
    exact hstuck.put hne
  | take hsocket hphase hqueue =>
    exact h.put (h.ne hsocket (by rw [hphase]; nofun) (by rw [hphase]; nofun))
  | written hsocket hphase =>
    exact h.put (h.ne hsocket (by rw [hphase]; nofun) (by rw [hphase]; nofun))
  | remove hsocket hphase =>
    exact h.put (h.ne hsocket (by rw [hphase]; nofun) (by rw [hphase]; nofun))
  | finish hsocket hphase =>
    exact h.put (h.ne hsocket (by rw [hphase]; nofun) (by rw [hphase]; nofun))
  | notifyError hid hoffer => exact (h.offer hoffer).2
  | @deliver sender target posted rest after houtstanding hoffer =>
    obtain ⟨htarget, socket, hsocket, hlength, hwaits⟩ := h.offer hoffer
    refine ⟨socket, hsocket, hlength, hwaits.imp_right ?_⟩
    rintro ⟨hreporting, hfull, posted', rest', hdispatcher⟩
    refine ⟨hreporting, hfull, posted', rest', ?_⟩
    rw [outstanding_insert, if_neg]
    · exact hdispatcher
    · rintro rfl
      have hsame : s.outstanding .dispatcher = after.outstanding .dispatcher := by
        rw [outstanding, outstanding, offer_senders hoffer]
      rw [← hsame, houtstanding, List.cons.injEq, Prod.mk.injEq] at hdispatcher
      exact htarget hdispatcher.1.1

/-- Whoever is stuck is stuck for good. -/
theorem stuck_of_run {steps : List Step} (h : (machine.run steps).Stuck id) (more : List Step) :
    (machine.runFrom (machine.run steps) more).Stuck id := by
  have hstep (s : ControlSockets) (i : Step) (h : s.Stuck id ∧ s.Numbered) (_ : True) :
      (s.step i).Stuck id ∧ (s.step i).Numbered :=
    ⟨h.1.step h.2 i, h.2.step i⟩
  exact (machine.invariant_from hstep ⟨h, numbered_of_run steps⟩ fun _ _ => trivial).2.1

/-- The watcher tells all phones that the volume has changed. -/
def volumeChange (n : ℕ) : List Step :=
  [.broadcast (.task 0) [] (.volumeChanged (Binary32.ofNat (n % 2))), .deliver (.task 0)]

/-- A phone does not read for a while, in which the volume changes again and again. Then it
reads, and its task takes up the heartbeat it has sent. -/
def stalledWrite : List Step :=
  ([.connect ⟨"phone", "", 1⟩, .upgrade "phone" "", .register 0] : List Step) ++ volumeChange 0 ++
    ([.take 0] : List Step) ++ (List.range 32).flatMap volumeChange ++
    ([.written 0 true, .receive 0 (.command .heartbeat), .handOver 0, .acknowledge 0] : List Step)

/-- The task waits for room in the channel that it alone empties, whatever happens then. -/
theorem not_unblocked_stalledWrite : (machine.run stalledWrite).AwaitsItself 0 ∧
    ¬(machine.run stalledWrite).Unblocked ∧
    ∀ more, (machine.runFrom (machine.run stalledWrite) more).Full 0 := by
  have hsocket : ((machine.run stalledWrite).sockets.lookup 0).map
      (fun socket => (socket.phase, socket.queue.length)) =
        some (.answering 0 ⟨.heartbeatAcknowledged, 1⟩, 32) := by decide +kernel
  obtain ⟨socket, hlookup, hstands⟩ := Option.map_eq_some_iff.mp hsocket
  obtain ⟨hphase, hlength⟩ := Prod.mk.inj hstands
  have hself : (machine.run stalledWrite).AwaitsItself 0 :=
    ⟨socket, _, hlookup, hphase, hlength.ge⟩
  exact ⟨hself, fun h => h.self 0 hself, fun more => (stuck_of_run hself.stuck more).full⟩

end ControlSockets

end Gemacast.Control
