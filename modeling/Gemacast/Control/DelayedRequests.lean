import Gemacast.Control.Contracts
import Gemacast.Control.FailedConnect

/-!
# Requests that are delayed

A request is authenticated by its handler and takes effect in the dispatcher, with a queue in
between. A Disconnect and a heartbeat carry the number of the session they were authenticated
under, and the dispatcher looks whether it is current. The others carry none.
-/

namespace Gemacast.Control

open Gemacast.Core Gemacast.Streamer Program TaskSystem

/-- The device whose stream or session an operation changes. -/
def ControlOp.affected : ControlOp → Option DeviceId
  | .audio (.subscribe deviceId ..) | .audio (.unsubscribe deviceId)
  | .audio (.changeSource deviceId _) | .audio (.changeBitrate deviceId _) => some deviceId
  | .commit pending => some pending.deviceId
  | .revoke deviceId _ | .register deviceId .. | .unregister deviceId
  | .updateLastSeen deviceId => some deviceId
  | _ => none

/-- The command changes a stream or a session. -/
def ControlCommand.changes : ControlCommand → Bool
  | .connect _ | .disconnect .. | .changeSource .. | .changeBitrate ..
  | .sessionHeartbeat .. => true
  | .getSources _ | .probe .. => false

/-- The command of a handler was authenticated, and does not say under which session. -/
def ControlCommand.unnumbered (n : ℕ) : ControlCommand → Bool
  | .connect request => request.authorized && request.responseTx = n
  | .changeSource _ _ responseTx | .changeBitrate _ _ responseTx => responseTx = n
  | _ => false

/-- A handler is shown the token of a session of the device. -/
def Authenticates (n : ℕ) (d : DeviceId) (session : AuthorizedSession) (e : ControlEvent) : Prop :=
  ∃ job token, e.output = .called (.http n) job ⟨.authenticate d token, some session⟩

/-- A handler passes a command on. -/
def PassesOn (n : ℕ) (command : ControlCommand) (e : ControlEvent) : Prop :=
  ∃ job, e.output = .called (.http n) job ⟨.send command, true⟩

/-- The dispatcher takes up a command. -/
def TakesUp (command : ControlCommand) (e : ControlEvent) : Prop :=
  e.output = .started .dispatcher (.handle command)

/-- The session of a device begins, ends or is replaced. -/
def ChangesSession (d : DeviceId) (e : ControlEvent) : Prop :=
  e.after.shared.authorizer.sessions.lookup d ≠ e.before.shared.authorizer.sessions.lookup d

/-- Whatever the dispatcher does to the stream or the session of a device for a request that was
authenticated, the session it was authenticated under is current while the dispatcher is at it;
and it is so at that very operation, unless it has changed since the dispatcher took the request
up. -/
def OnTime (events : List ControlEvent) : Prop :=
  ∀ pre auth mid sent mid' taken since effect post n d session command call,
    events = pre ++ auth :: (mid ++ sent :: (mid' ++ taken :: (since ++ effect :: post))) →
    Authenticates n d session auth → PassesOn n command sent → TakesUp command taken →
    command.changes = true → (∀ e ∈ since, ∀ job, e.output ≠ .started .dispatcher job) →
    effect.output = .called .dispatcher (.handle command) call → call.op.affected = some d →
      (∃ moment ∈ taken :: (since ++ [effect]),
        moment.before.shared.authorizer.isCurrent d session.generation = true) ∧
      ((∀ e ∈ taken :: since, ¬ChangesSession d e) →
        effect.before.shared.authorizer.isCurrent d session.generation = true)

/-- The session of a device does not change between the authentication of a request of the device
that does not carry its number and the moment the dispatcher takes the request up. -/
def Undisturbed (events : List ControlEvent) : Prop :=
  ∀ pre auth mid taken post n d session command,
    events = pre ++ auth :: (mid ++ taken :: post) → Authenticates n d session auth →
    TakesUp command taken → command.unnumbered n = true → ∀ e ∈ mid, ¬ChangesSession d e

variable {crypto : Crypto} {self : ControlDispatcher} {init : Stores}
  {turns : List (Turn World TaskId Job Change)} {n : ℕ} {d : DeviceId}
  {session : AuthorizedSession} {command : ControlCommand}

/-- The job of a task is of the kind the task is for. -/
def TaskId.takes : TaskId → Job → Prop
  | .dispatcher, .handle _ | .commandHandler, .appCommand _ | .watchdog, .evictStale
  | .failures, .sessionFailed _ | .probes, .probed _ | .approval _, .approval _ => True
  | .http n, .http m _ _ _ => n = m
  | _, _ => False

theorem takes_of_accept {s s' : Stores} {id : TaskId} {job : Job} (h : s.accept id job = some s') :
    id.takes job := by
  cases id with
  | http n =>
    cases job with
    | http m =>
      simp only [Stores.accept] at h
      split at h
      · assumption
      · nomatch h
    | _ => nomatch h
  | _ => cases job <;> trivial

/-- Once something has been asked, it stays asked. -/
theorem obeys_of_mem {α : Type} {c : ControlCall} {calls : List ControlCall} (h : c ∈ calls)
    (p : ControlM α) : Obeys (fun calls op => op.affected ≠ none → c ∈ calls) (fun _ _ => True)
      calls p := by
  induction p generalizing calls with
  | done result => trivial
  | call op next ih => exact ⟨fun _ => h, fun answer => ih answer (List.mem_append_left _ h)⟩

/-- A Disconnect changes something once its session was found current. -/
theorem handleDisconnect_checks {generation : SessionGeneration} {responseTx : ℕ} :
    Obeys (fun calls op => op.affected ≠ none → ⟨.isCurrent d generation, true⟩ ∈ calls)
      (fun _ _ => True) [] (ControlDispatcher.handleDisconnect d (some generation) responseTx) := by
  simp only [ControlDispatcher.handleDisconnect, perform_bind, obeys_call]
  refine ⟨fun h => absurd rfl h, fun current => ?_⟩
  cases current with
  | true => exact obeys_of_mem (by simp) _
  | false => exact ⟨fun h => absurd rfl h, fun _ => trivial⟩

/-- And so does a heartbeat. -/
theorem sessionHeartbeat_checks {generation : SessionGeneration} :
    Obeys (fun calls op => op.affected ≠ none → ⟨.isCurrent d generation, true⟩ ∈ calls)
      (fun _ _ => True) [] (self.handleCommand (.sessionHeartbeat d generation)) := by
  simp only [ControlDispatcher.handleCommand, perform_bind, obeys_call]
  refine ⟨fun h => absurd rfl h, fun current => ?_⟩
  cases current with
  | true => exact obeys_of_mem (by simp) _
  | false => trivial

/-- Who is authenticated has the session then. -/
theorem current_of_authenticates {e : ControlEvent}
    (he : e ∈ (service crypto self init).machine.events turns)
    (hauth : Authenticates n d session e) : session.deviceId = d ∧
      e.after.shared.authorizer.isCurrent d session.generation = true := by
  obtain ⟨job, token, hcalled⟩ := hauth
  obtain ⟨-, world, -, hexecute⟩ := called_of_mem he hcalled
  obtain ⟨hafter, hanswer⟩ := Prod.mk.inj (Option.some.inj hexecute)
  obtain ⟨hdevice, hlookup⟩ := SessionAuthorizer.authenticate_eq_some_iff.mp hanswer
  rw [← hafter]
  exact ⟨hdevice, SessionAuthorizer.isCurrent_iff.mpr ⟨token, hlookup⟩⟩

/-- What a handler passes on, it passes on under the session it was shown. -/
theorem passes_of_passesOn {pre post : List ControlEvent} {auth sent : ControlEvent}
    (hrun : (service crypto self init).machine.events turns = pre ++ sent :: post)
    (hmem : auth ∈ pre) (hauth : Authenticates n d session auth)
    (hsent : PassesOn n command sent) : ∃ calls, Passes n calls command ∧
      ∀ d' shown, Shown d' shown calls → d' = d ∧ shown = some session := by
  obtain ⟨job, hcalled⟩ := hsent
  have hevents : ∀ e ∈ pre, e ∈ (service crypto self init).machine.events turns :=
    fun e he => hrun ▸ List.mem_append_left _ he
  have he : sent ∈ (service crypto self init).machine.events turns :=
    hrun ▸ List.mem_append_right _ List.mem_cons_self
  obtain ⟨next, world, htask, -⟩ := called_of_mem he hcalled
  have htakes : TaskId.takes (.http n) job :=
    job_of_task (fun _ _ _ _ => takes_of_accept) he _ _ htask
  cases job with
  | http m addr authorization request =>
    obtain rfl : n = m := htakes
    obtain ⟨calls, hwork, -, hpasses⟩ := contract_of_called
      (ControlServer.handle_obeys self addr authorization request) hrun hcalled
    obtain ⟨hdevice, -⟩ := current_of_authenticates (hevents auth hmem) hauth
    obtain ⟨job', token, hauth⟩ := hauth
    obtain ⟨job'', calls', hwork', hcall⟩ := mem_work rfl hrun hmem hauth
    obtain ⟨-, rfl⟩ := Prod.mk.inj (Option.some.inj (hwork.symm.trans hwork'))
    refine ⟨calls, hpasses command rfl, fun d' shown hshown => ?_⟩
    obtain rfl := hshown.2 d token (some session) hcall
    obtain ⟨token', hcall'⟩ := hshown.1 (Option.some_ne_none _)
    obtain ⟨e, hbefore, job', hcalled'⟩ := called_of_work hwork hcall'
    obtain ⟨hdevice', -⟩ :=
      current_of_authenticates (hevents e hbefore) ⟨job', token', hcalled'⟩
    exact ⟨hdevice'.symm.trans hdevice, rfl⟩
  | handle | appCommand | evictStale | sessionFailed | probed | approval => exact htakes.elim

/-- Unless it is disturbed, a session stays current. -/
theorem current_of_undisturbed {s : TaskState Stores ControlOp Answer TaskId Job}
    {g : SessionGeneration} (hcurrent : s.shared.authorizer.isCurrent d g = true)
    (hcalm : ∀ e ∈ (service crypto self init).machine.eventsFrom s turns, ¬ChangesSession d e) :
    ((service crypto self init).machine.runFrom s turns).shared.authorizer.isCurrent d g =
      true := by
  by_contra hlost
  obtain ⟨e, he, hbefore, hafter⟩ := Machine.exists_lost_from
    (service crypto self init).machine (P := fun s => s.shared.authorizer.isCurrent d g = true)
    hcurrent hlost
  refine hafter ?_
  unfold SessionAuthorizer.isCurrent at hbefore ⊢
  rw [not_not.mp (hcalm e he)]
  exact hbefore

/-- A session that is current at one event is so at a later one, unless it changes in between. -/
theorem current_later {pre mid post : List ControlEvent} {moment effect : ControlEvent}
    {g : SessionGeneration} (hrun : (service crypto self init).machine.events turns =
      pre ++ moment :: (mid ++ effect :: post))
    (hcurrent : moment.before.shared.authorizer.isCurrent d g = true)
    (hcalm : ∀ e ∈ moment :: mid, ¬ChangesSession d e) :
    effect.before.shared.authorizer.isCurrent d g = true := by
  have hsplit : (service crypto self init).machine.events turns =
      (pre ++ moment :: mid) ++ effect :: post := by
    rw [hrun, List.append_assoc, List.cons_append]
  obtain ⟨-, bs, -, -, -, -, -, hbetween, hbefore, -⟩ :=
    (service crypto self init).machine.eventsFrom_between hsplit
  rw [hbefore]
  refine current_of_undisturbed ?_ fun e he =>
    hcalm e (List.mem_cons_of_mem _ (hbetween ▸ he))
  have hsame := not_not.mp (hcalm moment List.mem_cons_self)
  unfold SessionAuthorizer.isCurrent at hcurrent ⊢
  rw [hsame]
  exact hcurrent

/-- The dispatcher found the session current before it changed something for the command. -/
theorem current_of_checks {pre since post : List ControlEvent} {taken effect : ControlEvent}
    {generation : SessionGeneration} {call : ControlCall}
    (hrun : (service crypto self init).machine.events turns =
      pre ++ taken :: (since ++ effect :: post))
    (htaken : TakesUp command taken)
    (hnone : ∀ e ∈ since, ∀ job, e.output ≠ .started .dispatcher job)
    (heffect : effect.output = .called .dispatcher (.handle command) call)
    (haffected : call.op.affected = some d)
    (hchecks : Obeys (fun calls op => op.affected ≠ none → ⟨.isCurrent d generation, true⟩ ∈ calls)
      (fun _ _ => True) [] (self.handleCommand command)) :
    (∃ moment ∈ taken :: (since ++ [effect]),
      moment.before.shared.authorizer.isCurrent d generation = true) ∧
      ((∀ e ∈ taken :: since, ¬ChangesSession d e) →
        effect.before.shared.authorizer.isCurrent d generation = true) := by
  have hlast : (service crypto self init).machine.events turns =
      (pre ++ taken :: since) ++ effect :: post := by
    rw [hrun, List.append_assoc, List.cons_append]
  obtain ⟨calls, hwork, hasked⟩ := contract_of_called hchecks hlast heffect
  obtain ⟨calls', hwork', hevents⟩ := work_since htaken hnone
  obtain ⟨-, rfl⟩ := Prod.mk.inj (Option.some.inj (hwork.symm.trans hwork'))
  obtain ⟨moment, hmem, job, hcalled⟩ := hevents _ (hasked (haffected ▸ Option.some_ne_none d))
  have hmoment : moment ∈ (service crypto self init).machine.events turns := by
    rw [hrun]
    exact List.mem_append_right _ (List.mem_cons_of_mem _ (List.mem_append_left _ hmem))
  obtain ⟨next, world, htask, hexecute⟩ := called_of_mem hmoment hcalled
  obtain ⟨-, hanswer⟩ := Prod.mk.inj (Option.some.inj hexecute)
  refine ⟨⟨moment, List.mem_cons_of_mem _ (List.mem_append_left _ hmem), hanswer⟩, fun hcalm => ?_⟩
  obtain ⟨asked, rest, rfl⟩ := List.append_of_mem hmem
  have hatMoment : (service crypto self init).machine.events turns =
      (pre ++ taken :: asked) ++ moment :: (rest ++ effect :: post) := by
    rw [hrun]
    simp only [List.append_assoc, List.cons_append]
  exact current_later hatMoment hanswer fun e he =>
    hcalm e (List.mem_cons_of_mem _ (List.mem_append_right _ he))

section Examples

/-- A world in which nothing fails. -/
def calm : World := { random := fun _ => .ok (List.replicate 32 7) }

/-- The phone changes its source. -/
def changesSource : List (Turn World TaskId Job Change) :=
  [.start (.http 0) (.http 0 phoneAddr (some "Bearer token") (.changeSource "phone" .desktop)),
    .run (.http 0) calm, .run (.http 0) calm,
    .start .dispatcher (.handle (.changeSource "phone" .desktop 0)), .run .dispatcher calm]

/-- The Connect of the phone, as its handler passes it on. -/
def delayedConnect : ConnectCommand where
  deviceId := "phone"
  deviceName := "Phone"
  source := none
  remoteAddr := phoneAddr
  bitrate := some 128000
  responseTx := 0
  authorized := true
  pendingRequestId := none
  deviceAuth := none

/-- The phone connects again with its token, and is kicked before the dispatcher takes that up. -/
def kickedConnect : List (Turn World TaskId Job Change) :=
  [.start (.http 0) (.http 0 phoneAddr (some "Bearer token")
      (.connect { deviceId := "phone", deviceName := "Phone" })),
    .run (.http 0) calm, .run (.http 0) calm,
    .start .commandHandler (.appCommand (.kickDevice "phone")), .run .commandHandler calm,
    .run .commandHandler calm, .run .commandHandler calm, .run (.http 0) calm,
    .start .dispatcher (.handle (.connect delayedConnect)), .run .dispatcher calm,
    .run .dispatcher calm]

end Examples

end Gemacast.Control
