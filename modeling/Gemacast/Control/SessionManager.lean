import Gemacast.Core.Machine
import Gemacast.Control.Dispatcher

/-!
# The session of the phone

A start tears the old session down, spawns a player and a probe and puts them into the one
place for a session; a stop tears the session down. Both hold the lock of that place only
while they take a session out of it and wait for its player, or put one in. A task whose
handle is dropped goes on; a player whose shutdown sender is dropped ends.
-/

namespace Gemacast.Control

open Gemacast.Core Gemacast.Streamer

/-- What a session is started with. -/
structure SessionParams where
  /-- The PC. -/
  targetIp : Option IpAddr
  deriving DecidableEq

/-- The PC is kept informed by a probe task: it is not reached over loopback. -/
def SessionParams.probed (params : SessionParams) : Bool :=
  match params.targetIp with
  | some ip => !isLoopback ip
  | none => false

/-- The session the manager holds. -/
structure ActiveSession where
  /-- The start that made it; its tasks go by the same number. -/
  owner : ℕ
  /-- It has a probe task. -/
  probed : Bool
  deriving DecidableEq

/-- What is asked of the manager. -/
inductive SessionRequest
  | start (params : SessionParams)
  | stop
  deriving DecidableEq

/-- Where a start or stop stands. -/
inductive SessionPhase
  /-- It is about to take the session. -/
  | tearingDown
  /-- It has taken a session, holds the lock and waits for the player to end. -/
  | awaitingPlayer
  /-- It is about to stop the WebSocket client. -/
  | stoppingWs
  /-- It is about to spawn player and probe. -/
  | spawning
  /-- It is about to put its session into the place. -/
  | installing
  deriving DecidableEq

/-- A start or stop in progress. -/
structure SessionCall where
  /-- What was asked. -/
  request : SessionRequest
  /-- Where it stands. -/
  phase : SessionPhase
  deriving DecidableEq

/-- The manager, its calls and the tasks they have spawned. -/
structure SessionManager where
  /-- The place for the session. -/
  session : Option ActiveSession
  /-- Who holds the lock of the place across an await. -/
  lockedBy : Option ℕ
  /-- The task of the WebSocket client. -/
  wsClientTask : Option ℕ
  /-- The calls in progress, numbered in the order in which they begin. -/
  calls : Table ℕ SessionCall
  /-- The players spawned, and whether each was told to end. -/
  players : Table ℕ Bool
  /-- The probes spawned, and whether each was aborted. -/
  probes : Table ℕ Bool
  /-- How many calls have begun. -/
  begun : ℕ
  /-- The last call to begin was a stop; read by no code. -/
  lastIsStop : Bool
  /-- One more than the last stop that has taken the session, in the order in which they began;
  read by no code. -/
  stopped : ℕ

namespace SessionManager

/-- One step of a call. -/
inductive Step
  /-- A start begins. -/
  | beginStart (params : SessionParams)
  /-- A stop begins. -/
  | beginStop
  /-- The call takes the session, if the lock is free. -/
  | take (id : ℕ)
  /-- The player has ended, or a second and a half has passed. -/
  | release (id : ℕ)
  /-- The call stops the WebSocket client. -/
  | stopWs (id : ℕ)
  /-- The call spawns player and probe; `ok` tells whether there is a player. -/
  | spawn (id : ℕ) (ok : Bool)
  /-- The call puts its session into the place, if the lock is free. -/
  | install (id : ℕ)
  /-- A WebSocket client is started. -/
  | startWsClient (task : ℕ)
  deriving DecidableEq

/-- The manager before the first call. -/
def new : SessionManager := ⟨none, none, none, ∅, ∅, ∅, 0, false, 0⟩

/-- A call begins. -/
def beginCall (s : SessionManager) (request : SessionRequest) : SessionManager :=
  { s with
    calls := s.calls.insert s.begun ⟨request, .tearingDown⟩
    begun := s.begun + 1
    lastIsStop := decide (request = .stop) }

/-- Note where a call stands. -/
def move (s : SessionManager) (id : ℕ) (call : SessionCall) (phase : SessionPhase) :
    SessionManager :=
  { s with calls := s.calls.insert id { call with phase } }

/-- Note that a stop has been through. -/
def stoppedAfter (s : SessionManager) (id : ℕ) (call : SessionCall) : ℕ :=
  match call.request with
  | .stop => max s.stopped (id + 1)
  | .start _ => s.stopped

/-- Take the session: abort its probe and tell its player to end. -/
def takeSession (s : SessionManager) (id : ℕ) (call : SessionCall) : SessionManager :=
  match s.session with
  | none => { s.move id call .stoppingWs with stopped := s.stoppedAfter id call }
  | some session =>
    { s.move id call .awaitingPlayer with
      stopped := s.stoppedAfter id call
      session := none
      lockedBy := some id
      players := s.players.insert session.owner true
      probes := if session.probed then s.probes.insert session.owner true else s.probes }

/-- Stop the WebSocket client; a stop returns. -/
def stopWsClient (s : SessionManager) (id : ℕ) (call : SessionCall) :
    SessionManager :=
  let s := { s with wsClientTask := none }
  match call.request with
  | .stop => { s with calls := s.calls.erase id }
  | .start _ => s.move id call .spawning

/-- Spawn a player and, where the PC is to be probed, a probe; without a player the start
returns an error. -/
def spawnPlayer (s : SessionManager) (id : ℕ) (call : SessionCall) (ok : Bool) :
    SessionManager :=
  match call.request with
  | .stop => s
  | .start params =>
    if ok then
      { s.move id call .installing with
        players := s.players.insert id false
        probes := if params.probed then s.probes.insert id false else s.probes }
    else { s with calls := s.calls.erase id }

/-- Put a session into the place. What was there is dropped: its player ends with the shutdown
sender, its probe goes on. -/
def installSession (s : SessionManager) (id : ℕ) (call : SessionCall) :
    SessionManager :=
  match call.request with
  | .stop => s
  | .start params =>
    { s with
      session := some ⟨id, params.probed⟩
      players := match s.session with
        | none => s.players
        | some session => s.players.insert session.owner true
      calls := s.calls.erase id }

/-- Go on with a call that stands at a phase. -/
def proceed (s : SessionManager) (id : ℕ) (phase : SessionPhase)
    (next : SessionCall → SessionManager) : SessionManager :=
  match s.calls.lookup id with
  | some call => if call.phase = phase then next call else s
  | none => s

/-- One step; a step that is not due changes nothing. -/
def step (s : SessionManager) : Step → SessionManager
  | .beginStart params => s.beginCall (.start params)
  | .beginStop => s.beginCall .stop
  | .take id => if s.lockedBy = none then s.proceed id .tearingDown (s.takeSession id) else s
  | .release id =>
    if s.lockedBy = some id then
      s.proceed id .awaitingPlayer fun call => { s.move id call .stoppingWs with lockedBy := none }
    else s
  | .stopWs id => s.proceed id .stoppingWs (s.stopWsClient id)
  | .spawn id ok => s.proceed id .spawning fun call => s.spawnPlayer id call ok
  | .install id => if s.lockedBy = none then s.proceed id .installing (s.installSession id) else s
  | .startWsClient task => { s with wsClientTask := some task }

/-- The manager as a machine. -/
def machine : Machine SessionManager Step Unit where
  init := new
  step s i := (s.step i, ())

/-- All calls have returned. -/
def Quiescent (s : SessionManager) : Prop := ∀ id, s.calls.lookup id = none

/-- Every task ever spawned has been told to end, but for those of the session held, and no
session is held when the last call to begin was a stop. -/
structure OneLive (s : SessionManager) : Prop where
  /-- The players. -/
  players : ∀ id, s.players.lookup id = some false →
    ∃ session, s.session = some session ∧ session.owner = id
  /-- The probes. -/
  probes : ∀ id, s.probes.lookup id = some false →
    ∃ session, s.session = some session ∧ session.owner = id ∧ session.probed = true
  /-- A last stop leaves no session. -/
  stopped : s.lastIsStop = true → s.session = none

/-! ### What holds over orderly runs -/

/-- A step is orderly: a start that puts its session into the place finds none there that has a
probe, and no stop that began after it has already been through. -/
def Orderly (s : SessionManager) : Step → Prop
  | .install id =>
    (∀ session, s.session = some session → session.probed = false) ∧ s.stopped ≤ id
  | _ => True

/-- A start has spawned its tasks and not yet put its session into the place. -/
def Installing (s : SessionManager) (id : ℕ) (params : SessionParams) : Prop :=
  s.calls.lookup id = some ⟨.start params, .installing⟩

/-- What holds in every state of an orderly run. -/
structure Orders (s : SessionManager) : Prop where
  /-- A player that was not told to end is that of the session or of a start to come. -/
  players : ∀ id, s.players.lookup id = some false →
    (∃ session, s.session = some session ∧ session.owner = id) ∨ ∃ params, s.Installing id params
  /-- A probe that was not aborted is that of the session or of a start to come. -/
  probes : ∀ id, s.probes.lookup id = some false →
    (∃ session, s.session = some session ∧ session.owner = id ∧ session.probed = true) ∨
      ∃ params, s.Installing id params ∧ params.probed = true
  /-- No stop that began after the session's start has been through. -/
  session : ∀ session, s.session = some session → s.stopped ≤ session.owner ∧
    session.owner < s.begun
  /-- Calls have begun. -/
  calls : ∀ id call, s.calls.lookup id = some call → id < s.begun
  /-- Stops have begun. -/
  begun : s.stopped ≤ s.begun
  /-- The last stop has been through, or is about to take the session. -/
  last : s.lastIsStop = true → s.stopped = s.begun ∨
    ∃ id, id + 1 = s.begun ∧ s.calls.lookup id = some ⟨.stop, .tearingDown⟩

variable {s : SessionManager} {id : ℕ} {call : SessionCall}

theorem orders_new : new.Orders :=
  ⟨nofun, nofun, nofun, nofun, le_rfl, nofun⟩

/-- At rest, an orderly run has one live session. -/
theorem Orders.oneLive (h : s.Orders) (hquiescent : s.Quiescent) : s.OneLive := by
  refine ⟨fun id halive => ?_, fun id halive => ?_, fun hlast => ?_⟩
  · obtain hsession | ⟨params, hcall⟩ := h.players id halive
    · exact hsession
    · nomatch (hquiescent id).symm.trans hcall
  · obtain hsession | ⟨params, hcall, -⟩ := h.probes id halive
    · exact hsession
    · nomatch (hquiescent id).symm.trans hcall
  · obtain heq | ⟨id, -, hcall⟩ := h.last hlast
    · cases hsession : s.session with
      | none => rfl
      | some session =>
        obtain ⟨hle, hlt⟩ := h.session session hsession
        omega
    · nomatch (hquiescent id).symm.trans hcall

/-- A start that is about to put its session into the place is not moved with another call. -/
theorem Installing.insert {params : SessionParams} {id' : ℕ} {call' : SessionCall}
    (h : s.Installing id' params) (hcall : s.calls.lookup id = some call)
    (hphase : call.phase ≠ .installing) :
    (s.calls.insert id call').lookup id' = some ⟨.start params, .installing⟩ := by
  rw [Table.lookup_insert_eq]
  split
  · next heq =>
    subst heq
    obtain rfl := Option.some.inj (hcall.symm.trans h)
    exact absurd rfl hphase
  · exact h

/-- A call that begins, moves or returns leaves the invariant, if it neither spawns, takes nor
installs. -/
theorem Orders.withCalls (h : s.Orders) {calls : Table ℕ SessionCall}
    {lockedBy : Option ℕ} {wsClientTask : Option ℕ}
    (hinstalling : ∀ id params, s.Installing id params →
      calls.lookup id = some ⟨.start params, .installing⟩)
    (hcalls : ∀ id call, calls.lookup id = some call → id < s.begun)
    (hlast : ∀ id, s.calls.lookup id = some ⟨.stop, .tearingDown⟩ →
      calls.lookup id = some ⟨.stop, .tearingDown⟩) :
    Orders { s with calls, lockedBy, wsClientTask } where
  players id halive := (h.players id halive).imp_right fun ⟨params, hcall⟩ =>
    ⟨params, hinstalling id params hcall⟩
  probes id halive := (h.probes id halive).imp_right fun ⟨params, hcall, hprobed⟩ =>
    ⟨params, hinstalling id params hcall, hprobed⟩
  session := h.session
  calls := hcalls
  begun := h.begun
  last hstop := (h.last hstop).imp_right fun ⟨id, heq, hcall⟩ => ⟨id, heq, hlast id hcall⟩

/-- A call moves on. -/
theorem Orders.move (h : s.Orders) {call' : SessionCall} {lockedBy : Option ℕ}
    {wsClientTask : Option ℕ} (hcall : s.calls.lookup id = some call)
    (hphase : call.phase ≠ .installing) (htearing : call.phase ≠ .tearingDown) :
    Orders { s with calls := s.calls.insert id call', lockedBy, wsClientTask } := by
  refine h.withCalls (fun id' params hinstalling => hinstalling.insert hcall hphase)
    (fun id' call'' hlookup => ?_) fun id' hlookup => ?_
  · rw [Table.lookup_insert_eq] at hlookup
    split at hlookup
    · next heq => exact heq ▸ h.calls id call hcall
    · exact h.calls id' call'' hlookup
  · rw [Table.lookup_insert_eq]
    split
    · next heq =>
      subst heq
      obtain rfl := Option.some.inj (hcall.symm.trans hlookup)
      exact absurd rfl htearing
    · exact hlookup

/-- A call returns. -/
theorem Orders.erase (h : s.Orders) {lockedBy : Option ℕ}
    {wsClientTask : Option ℕ} (hcall : s.calls.lookup id = some call)
    (hphase : call.phase ≠ .installing) (htearing : call.phase ≠ .tearingDown) :
    Orders { s with calls := s.calls.erase id, lockedBy, wsClientTask } := by
  have hother : ∀ id' call', s.calls.lookup id' = some call' → call' ≠ call →
      (s.calls.erase id).lookup id' = some call' := by
    intro id' call' hlookup hne
    rw [Table.lookup_erase_eq, if_neg]
    · exact hlookup
    · rintro rfl
      exact hne (Option.some.inj (hlookup.symm.trans hcall))
  refine h.withCalls (fun id' params hinstalling => hother id' _ hinstalling ?_)
    (fun id' call' hlookup => ?_) fun id' hlookup => hother id' _ hlookup ?_
  · rintro rfl
    exact hphase rfl
  · rw [Table.lookup_erase_eq] at hlookup
    split at hlookup
    · cases hlookup
    · exact h.calls id' call' hlookup
  · rintro rfl
    exact htearing rfl

/-- A call begins. -/
theorem Orders.beginCall (h : s.Orders) (request : SessionRequest) :
    (s.beginCall request).Orders := by
  have hfresh : ∀ id call, s.calls.lookup id = some call →
      (s.calls.insert s.begun ⟨request, .tearingDown⟩).lookup id = some call := by
    intro id call hlookup
    have hlt := h.calls id call hlookup
    rw [Table.lookup_insert_eq, if_neg (by omega)]
    exact hlookup
  refine ⟨fun id halive => ?_, fun id halive => ?_, fun session hsession => ?_,
    fun id call hlookup => ?_, ?_, fun hstop => .inr ⟨s.begun, rfl, ?_⟩⟩
  · obtain hsession | ⟨params, hcall⟩ := h.players id halive
    · exact .inl hsession
    · exact .inr ⟨params, hfresh id _ hcall⟩
  · obtain hsession | ⟨params, hcall, hprobed⟩ := h.probes id halive
    · exact .inl hsession
    · exact .inr ⟨params, hfresh id _ hcall, hprobed⟩
  · obtain ⟨hle, hlt⟩ := h.session session hsession
    exact ⟨hle, Nat.lt_succ_of_lt hlt⟩
  · have hlookup' : (s.calls.insert s.begun ⟨request, .tearingDown⟩).lookup id = some call :=
      hlookup
    rw [Table.lookup_insert_eq] at hlookup'
    split at hlookup'
    · next heq => exact heq ▸ Nat.lt_succ_self s.begun
    · exact Nat.lt_succ_of_lt (h.calls id call hlookup')
  · exact Nat.le_succ_of_le h.begun
  · have hrequest : request = .stop := of_decide_eq_true hstop
    subst hrequest
    exact AList.lookup_insert _

/-- A call takes the session. -/
theorem Orders.takeSession (h : s.Orders) (hcall : s.calls.lookup id = some call)
    (hphase : call.phase = .tearingDown) : (s.takeSession id call).Orders := by
  have hid : id < s.begun := h.calls id call hcall
  have hne : call.phase ≠ .installing := by rw [hphase]; nofun
  have hcalls : ∀ phase id' call',
      (s.calls.insert id { call with phase }).lookup id' = some call' → id' < s.begun := by
    intro phase id' call' hlookup
    rw [Table.lookup_insert_eq] at hlookup
    split at hlookup
    · next heq => exact heq ▸ hid
    · exact h.calls id' call' hlookup
  have hbegun : s.stoppedAfter id call ≤ s.begun := by
    unfold stoppedAfter
    split
    · exact max_le h.begun hid
    · exact h.begun
  -- a last stop has been through, is this call or is still about to take the session
  have hlast : ∀ phase, s.lastIsStop = true →
      s.stoppedAfter id call = s.begun ∨ ∃ id', id' + 1 = s.begun ∧
        (s.calls.insert id { call with phase }).lookup id' = some ⟨.stop, .tearingDown⟩ := by
    intro phase hstop
    obtain heq | ⟨id', heq, hlookup⟩ := h.last hstop
    · left
      unfold stoppedAfter
      split
      · omega
      · exact heq
    · by_cases hsame : id' = id
      · subst hsame
        obtain rfl := Option.some.inj (hcall.symm.trans hlookup)
        have hle := h.begun
        left
        simp only [stoppedAfter]
        omega
      · right
        refine ⟨id', heq, ?_⟩
        rw [Table.lookup_insert_eq, if_neg hsame]
        exact hlookup
  unfold SessionManager.takeSession
  split
  · next hsession =>
    refine ⟨fun id' halive => ?_, fun id' halive => ?_, fun session hsome => ?_,
      hcalls .stoppingWs, hbegun, hlast .stoppingWs⟩
    · obtain ⟨session, hsome, -⟩ | ⟨params, hinstalling⟩ := h.players id' halive
      · nomatch hsession.symm.trans hsome
      · exact .inr ⟨params, hinstalling.insert hcall hne⟩
    · obtain ⟨session, hsome, -⟩ | ⟨params, hinstalling, hprobed⟩ := h.probes id' halive
      · nomatch hsession.symm.trans hsome
      · exact .inr ⟨params, hinstalling.insert hcall hne, hprobed⟩
    · nomatch hsession.symm.trans hsome
  · next session hsession =>
    refine ⟨fun id' halive => ?_, fun id' halive => ?_, nofun,
      hcalls .awaitingPlayer, hbegun, hlast .awaitingPlayer⟩
    · have halive' : (s.players.insert session.owner true).lookup id' = some false := halive
      rw [Table.lookup_insert_eq] at halive'
      split at halive'
      · cases halive'
      next hother =>
      obtain ⟨session', hsome, howner⟩ | ⟨params, hinstalling⟩ := h.players id' halive'
      · obtain rfl := Option.some.inj (hsession.symm.trans hsome)
        exact absurd howner.symm hother
      · exact .inr ⟨params, hinstalling.insert hcall hne⟩
    · have halive' : (if session.probed then s.probes.insert session.owner true
          else s.probes).lookup id' = some false := halive
      have hother : s.probes.lookup id' = some false ∧
          (session.probed = true → id' ≠ session.owner) := by
        split at halive'
        · rw [Table.lookup_insert_eq] at halive'
          split at halive'
          · cases halive'
          · next hother => exact ⟨halive', fun _ => hother⟩
        · next hprobed => exact ⟨halive', fun htrue => absurd htrue hprobed⟩
      obtain ⟨session', hsome, howner, hprobed⟩ | ⟨params, hinstalling, hprobed⟩ :=
        h.probes id' hother.1
      · obtain rfl := Option.some.inj (hsession.symm.trans hsome)
        exact absurd howner.symm (hother.2 hprobed)
      · exact .inr ⟨params, hinstalling.insert hcall hne, hprobed⟩

/-- A start spawns player and probe. -/
theorem Orders.spawnPlayer (h : s.Orders) {ok : Bool} (hcall : s.calls.lookup id = some call)
    (hphase : call.phase = .spawning) : (s.spawnPlayer id call ok).Orders := by
  have hne : call.phase ≠ .installing := by rw [hphase]; nofun
  have htearing : call.phase ≠ .tearingDown := by rw [hphase]; nofun
  unfold SessionManager.spawnPlayer
  split
  · exact h
  next params hrequest =>
  split
  · have hmoved : Orders { s with calls := s.calls.insert id { call with phase := .installing } } :=
      h.move hcall hne htearing
    have hinstalling : (s.calls.insert id { call with phase := .installing }).lookup id =
        some ⟨.start params, .installing⟩ := by
      rw [AList.lookup_insert, ← hrequest]
    refine ⟨fun id' halive => ?_, fun id' halive => ?_, hmoved.session, hmoved.calls,
      hmoved.begun, hmoved.last⟩
    · have halive' : (s.players.insert id false).lookup id' = some false := halive
      rw [Table.lookup_insert_eq] at halive'
      split at halive'
      · next heq => exact .inr ⟨params, heq ▸ hinstalling⟩
      · exact hmoved.players id' halive'
    · have halive' : (if params.probed then s.probes.insert id false
          else s.probes).lookup id' = some false := halive
      split at halive'
      · next hprobed =>
        rw [Table.lookup_insert_eq] at halive'
        split at halive'
        · next heq => exact .inr ⟨params, heq ▸ hinstalling, hprobed⟩
        · exact hmoved.probes id' halive'
      · exact hmoved.probes id' halive'
  · exact h.erase hcall hne htearing

/-- A start puts its session into the place. -/
theorem Orders.installSession (h : s.Orders) (hcall : s.calls.lookup id = some call)
    (hphase : call.phase = .installing) (hok : s.Orderly (.install id)) :
    (s.installSession id call).Orders := by
  obtain ⟨hunprobed, hstopped⟩ := hok
  unfold SessionManager.installSession
  split
  · exact h
  next params hrequest =>
  have hother : ∀ id' call', s.calls.lookup id' = some call' → id' ≠ id →
      (s.calls.erase id).lookup id' = some call' := by
    intro id' call' hlookup hne
    rw [Table.lookup_erase_eq, if_neg hne]
    exact hlookup
  -- a start that was about to install is this one or still is
  have hinstalling : ∀ id' params', s.Installing id' params' →
      (id' = id ∧ params' = params) ∨
        (s.calls.erase id).lookup id' = some ⟨.start params', .installing⟩ := by
    intro id' params' hlookup
    by_cases hsame : id' = id
    · subst hsame
      obtain rfl := Option.some.inj (hcall.symm.trans hlookup)
      exact .inl ⟨rfl, SessionRequest.start.inj hrequest⟩
    · exact .inr (hother id' _ hlookup hsame)
  refine ⟨fun id' halive => ?_, fun id' halive => ?_, fun session hsession => ?_,
    fun id' call' hlookup => ?_, h.begun, fun hstop => ?_⟩
  · have hbefore : s.players.lookup id' = some false ∧
        ∀ session, s.session = some session → session.owner ≠ id' := by
      cases hsession : s.session with
      | none =>
        simp only [hsession] at halive
        exact ⟨halive, nofun⟩
      | some session =>
        simp only [hsession, Table.lookup_insert_eq] at halive
        split at halive
        · cases halive
        · next hne =>
          refine ⟨halive, fun session' hsome => ?_⟩
          obtain rfl := Option.some.inj hsome
          exact Ne.symm hne
    obtain ⟨session, hsession, howner⟩ | ⟨params', hlookup⟩ := h.players id' hbefore.1
    · exact absurd howner (hbefore.2 session hsession)
    · obtain ⟨rfl, rfl⟩ | hlookup' := hinstalling id' params' hlookup
      · exact .inl ⟨_, rfl, rfl⟩
      · exact .inr ⟨params', hlookup'⟩
  · obtain ⟨session, hsession, -, hprobed⟩ | ⟨params', hlookup, hprobed⟩ := h.probes id' halive
    · nomatch (hunprobed session hsession).symm.trans hprobed
    · obtain ⟨rfl, rfl⟩ | hlookup' := hinstalling id' params' hlookup
      · exact .inl ⟨_, rfl, rfl, hprobed⟩
      · exact .inr ⟨params', hlookup', hprobed⟩
  · obtain rfl := Option.some.inj hsession
    exact ⟨hstopped, h.calls id call hcall⟩
  · have hlookup' : (s.calls.erase id).lookup id' = some call' := hlookup
    rw [Table.lookup_erase_eq] at hlookup'
    split at hlookup'
    · cases hlookup'
    · exact h.calls id' call' hlookup'
  · obtain heq | ⟨id', heq, hlookup⟩ := h.last hstop
    · exact .inl heq
    · refine .inr ⟨id', heq, hother id' _ hlookup ?_⟩
      rintro rfl
      obtain rfl := Option.some.inj (hcall.symm.trans hlookup)
      nomatch hphase

/-- A step of a call that stands elsewhere changes nothing. -/
theorem Orders.proceed (h : s.Orders) {phase : SessionPhase}
    {next : SessionCall → SessionManager}
    (hnext : ∀ call, s.calls.lookup id = some call → call.phase = phase → (next call).Orders) :
    (s.proceed id phase next).Orders := by
  unfold SessionManager.proceed
  split
  · next call hcall =>
    split
    · next hphase => exact hnext call hcall hphase
    · exact h
  · exact h

/-- An orderly step keeps the invariant. -/
theorem Orders.step {i : Step} (h : s.Orders) (hok : s.Orderly i) : (s.step i).Orders := by
  cases i with
  | beginStart params => exact h.beginCall (.start params)
  | beginStop => exact h.beginCall .stop
  | take id =>
    simp only [SessionManager.step]
    split
    · exact h.proceed fun call hcall hphase => h.takeSession hcall hphase
    · exact h
  | release id =>
    simp only [SessionManager.step]
    split
    · refine h.proceed fun call hcall hphase => h.move hcall ?_ ?_
      all_goals rw [hphase]; nofun
    · exact h
  | stopWs id =>
    refine h.proceed fun call hcall hphase => ?_
    have hne : call.phase ≠ .installing := by rw [hphase]; nofun
    have htearing : call.phase ≠ .tearingDown := by rw [hphase]; nofun
    unfold SessionManager.stopWsClient
    split
    · exact h.erase hcall hne htearing
    · exact h.move hcall hne htearing
  | spawn id ok => exact h.proceed fun call hcall hphase => h.spawnPlayer hcall hphase
  | install id =>
    simp only [SessionManager.step]
    split
    · exact h.proceed fun call hcall hphase => h.installSession hcall hphase hok
    · exact h
  | startWsClient task =>
    exact h.withCalls (fun _ _ hinstalling => hinstalling) h.calls fun _ hlookup => hlookup

/-- Once all calls of an orderly run have returned, the tasks of the session held are the only
ones not told to end, and after a last stop there is none. -/
theorem oneLive_of_run {steps : List Step}
    (hok : ∀ e ∈ machine.events steps, e.before.Orderly e.input)
    (hquiescent : (machine.run steps).Quiescent) : (machine.run steps).OneLive :=
  (machine.invariant orders_new (fun _ _ h hok => h.step hok) hok).2.oneLive hquiescent

/-- A phone that reaches its PC over the network. -/
def lanParams : SessionParams := ⟨some (.v4 0xC0A80002)⟩

/-- A start, from its beginning to its end. -/
def oneStart : List Step :=
  [.beginStart lanParams, .take 0, .stopWs 0, .spawn 0 true, .install 0]

theorem oneLive_of_run_oneStart :
    (machine.run oneStart).session = some ⟨0, true⟩ ∧ (machine.run oneStart).OneLive := by
  refine ⟨rfl, oneLive_of_run (fun e he => ?_) fun id => rfl⟩
  simp only [oneStart, Machine.events, Machine.eventsFrom_cons, Machine.eventsFrom_nil,
    List.mem_cons, List.not_mem_nil, or_false] at he
  obtain rfl | rfl | rfl | rfl | rfl := he
  · trivial
  · trivial
  · trivial
  · trivial
  · refine ⟨?_, Nat.zero_le _⟩
    rintro - ⟨⟩

/-- Two starts that have both torn down before either has put its session into the place. -/
def overlappingStarts : List Step :=
  [.beginStart lanParams, .beginStart lanParams, .take 0, .stopWs 0, .take 1, .stopWs 1,
    .spawn 0 true, .spawn 1 true, .install 0, .install 1]

/-- The probe of the first start goes on with nobody to abort it. -/
theorem not_oneLive_overlappingStarts : (machine.run overlappingStarts).Quiescent ∧
    (machine.run overlappingStarts).probes.lookup 0 = some false ∧
    (machine.run overlappingStarts).session = some ⟨1, true⟩ ∧
    ¬(machine.run overlappingStarts).OneLive := by
  refine ⟨fun id => rfl, by decide, rfl, fun h => ?_⟩
  obtain ⟨session, hsession, howner, -⟩ := h.probes 0 (by decide)
  obtain rfl := Option.some.inj hsession
  nomatch howner

end SessionManager

end Gemacast.Control
