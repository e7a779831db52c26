import Gemacast.Phone.Connection

/-!
# What is shown, what is played and what is on its way

A disconnect and a lost link end the session with a command that is issued late and names no
session, and a connect that gives up says nothing of the session there was. As long as no such
command meets a session it was not meant for, and no connect gives up beside a session that is
shown, what the screen shows and the session of the native side belong together: where they
differ, a call or a command is on its way that settles it.
-/

namespace Gemacast.Phone

open Gemacast.Core
open Gemacast.Streamer (DeviceId)

namespace Waiting

/-- The native side has yet to connect. -/
def Asks : Waiting → Prop
  | .connect _ _ _ none => True
  | _ => False

/-- The native side has connected, and the call has yet to learn of it. -/
def IsStarted : Waiting → Prop
  | .connect _ _ _ (some .ok) => True
  | _ => False

/-- The call connects. -/
def IsConnecting : Waiting → Prop
  | .connect _ _ _ _ | .retry _ _ _ => True
  | _ => False

/-- The call has yet to issue the command that ends the session. -/
def IsTeardown : Waiting → Prop
  | .disconnect _ _ _ | .grace _ _ | .notify _ _ => True
  | _ => False

/-- The call waits for the end of its grace period. -/
def InGrace : Waiting → Prop
  | .grace _ _ => True
  | _ => False

variable {waiting : Waiting} {command : NativeCommand} {outcome : Outcome}

theorem Asks.isConnecting (h : waiting.Asks) : waiting.IsConnecting := by
  unfold Asks at h
  split at h
  · trivial
  · exact h.elim

theorem IsStarted.isConnecting (h : waiting.IsStarted) : waiting.IsConnecting := by
  unfold IsStarted at h
  split at h
  · trivial
  · exact h.elim

theorem IsStarted.not_asks (h : waiting.IsStarted) : ¬waiting.Asks := by
  unfold IsStarted at h
  split at h
  · exact id
  · exact h.elim

/-- A call that waits for a connect learns of it just if it succeeds. -/
theorem Asks.isStarted_answer (h : waiting.Asks) (hcommand : command.isConnect = true) :
    (waiting.answer command outcome).IsStarted ↔ outcome = .ok := by
  unfold Asks at h
  split at h
  · cases command with
    | connectToStreamer ip mode =>
      cases outcome with
      | ok => exact ⟨fun _ => rfl, fun _ => trivial⟩
      | refused terminal => exact ⟨False.elim, nofun⟩
      | lost terminal => exact ⟨False.elim, nofun⟩
    | _ => exact absurd hcommand nofun
  · exact h.elim

theorem isConnecting_answer :
    (waiting.answer command outcome).IsConnecting ↔ waiting.IsConnecting := by
  unfold answer
  split <;> rfl

theorem InGrace.answer (h : waiting.InGrace) : (waiting.answer command outcome).InGrace := by
  unfold InGrace at h
  split at h
  · cases command <;> trivial
  · exact h.elim

theorem isTeardown_answer :
    (waiting.answer command outcome).IsTeardown ↔ waiting.IsTeardown := by
  unfold answer
  split <;> rfl

/-- No other command than a connect makes a call learn of a connection. -/
theorem answer_of_not_connect (h : command.isConnect = false) :
    ((waiting.answer command outcome).Asks ↔ waiting.Asks) ∧
      ((waiting.answer command outcome).IsStarted ↔ waiting.IsStarted) := by
  unfold answer
  split
  · exact absurd h nofun
  · exact ⟨Iff.rfl, Iff.rfl⟩
  · exact ⟨Iff.rfl, Iff.rfl⟩
  · exact ⟨Iff.rfl, Iff.rfl⟩
  · exact ⟨Iff.rfl, Iff.rfl⟩
  · exact ⟨Iff.rfl, Iff.rfl⟩

end Waiting

namespace ConnectionScreen

variable {s s' : ConnectionScreen}

/-! ### What a run is to keep -/

/-- Every call has returned and every command has been executed. -/
def Quiescent (s : ConnectionScreen) : Prop := (∀ id, s.calls.lookup id = none) ∧ s.queue = []

/-- A connection is shown exactly when there is a session. -/
def Agrees (s : ConnectionScreen) : Prop := s.store.Shows ↔ s.session.isSome = true

/-- A call of this kind is in progress. -/
def Has (s : ConnectionScreen) (kind : Waiting → Prop) : Prop :=
  ∃ id call, s.calls.lookup id = some call ∧ kind call.waiting

/-- The session is that of a connect that has returned. -/
def HoldsReturned (s : ConnectionScreen) : Prop :=
  ∃ k, s.session = some k ∧ s.calls.lookup k = none

/-- The session is about to be ended. -/
def TearsDown (s : ConnectionScreen) : Prop :=
  s.Has Waiting.IsTeardown ∨ ∃ issued ∈ s.queue, issued.command = .killPlayback

/-- The command ends no session but one that was shown when its call began, or before. -/
def Spares (s : ConnectionScreen) (issued : IssuedCommand) (outcome : Outcome) : Prop :=
  match issued.command, outcome with
  | .connectToStreamer _ _, .lost _ => ¬s.Has Waiting.IsStarted
  | .disconnectFromStreamer _, .ok | .disconnectFromStreamer _, .lost _
  | .killPlayback, .ok | .killPlayback, .lost _ =>
    s.session.isSome = true → issued.meant = s.connects ∧ ¬s.Has Waiting.IsStarted
  | .killPlayback, .refused _ => s.session = none
  | _, _ => True

/-- The call that goes on does not end its grace period beside a connection that is shown, nor
give up beside a session whose connect has returned. -/
def GoesOnWell (s : ConnectionScreen) : Waiting → Prop
  | .grace _ _ => ¬s.store.Shows
  | .connect _ _ retries (some (.refused terminal))
  | .connect _ _ retries (some (.lost terminal)) =>
    terminal = true ∨ retries = 0 → ¬s.HoldsReturned
  | _ => True

/-- The step meets no session that it does not reckon with. -/
def Reckons (s : ConnectionScreen) : ConnectionInput → Prop
  | .resume id => ∀ call, s.calls.lookup id = some call → s.GoesOnWell call.waiting
  | .execute outcome => ∀ issued, s.queue.head? = some issued → s.Spares issued outcome
  | .streamerDiscovered streamer =>
    streamer.isOffline = true →
      (∃ connected, s.store.connectedStreamer = some connected ∧
        connected.deviceId = streamer.deviceId) → ¬s.HoldsReturned
  | _ => True

/-! ### The invariant -/

/-- The callers of the connects on their way. -/
def askers (queue : List IssuedCommand) : List ℕ :=
  (queue.filter fun issued => issued.command.isConnect).map IssuedCommand.caller

/-- The calls, the commands and the session belong together. -/
structure Wired (s : ConnectionScreen) : Prop where
  /-- Calls have old names. -/
  call_lt : ∀ id call, s.calls.lookup id = some call → id < s.nextCall
  /-- So has the session. -/
  session_lt : ∀ k, s.session = some k → k < s.nextCall
  /-- A call that has the session only has to learn of it. -/
  owner : ∀ k call, s.session = some k → s.calls.lookup k = some call → call.waiting.IsStarted
  /-- While a call has to learn of a connection there is a session. -/
  started : s.Has Waiting.IsStarted → s.session.isSome = true
  /-- A call waits for every connect on its way. -/
  asked : ∀ id ∈ askers s.queue, ∃ call, s.calls.lookup id = some call ∧ call.waiting.Asks
  /-- No call has two of them on their way. -/
  once : (askers s.queue).Nodup

/-- What is shown and the session belong together. -/
structure Backed (s : ConnectionScreen) : Prop where
  /-- Behind what is shown there is a session, or a connect will settle it. -/
  shows : s.store.Shows → s.session.isSome = true ∨ s.Has Waiting.IsConnecting
  /-- A session is shown, unless it is about to be ended or a connect will settle it. -/
  holds : s.HoldsReturned → s.store.Shows ∨ s.TearsDown ∨ s.Has Waiting.IsConnecting

/-- Since such a call began nothing was shown, unless a connect has come through. -/
def Dates (s : ConnectionScreen) (meant : ℕ) : Prop :=
  meant ≤ s.connects ∧ (meant = s.connects → ¬s.store.Shows)

/-- Where a session is to be ended, nothing is shown, unless a connect has come through. -/
structure Dated (s : ConnectionScreen) : Prop where
  command : ∀ issued ∈ s.queue, issued.command.isTeardown = true → s.Dates issued.meant
  call : ∀ id call, s.calls.lookup id = some call → call.waiting.IsTeardown → s.Dates call.meant

/-- The invariant. -/
structure Inv (s : ConnectionScreen) : Prop where
  wired : s.Wired
  backed : s.Backed
  dated : s.Dated

/-- Once every call has returned, the invariant is agreement. -/
theorem Inv.agrees (h : s.Inv) (hs : s.Quiescent) : s.Agrees := by
  obtain ⟨hcalls, hqueue⟩ := hs
  have hnone : ∀ kind, ¬s.Has kind := by
    rintro kind ⟨id, call, hcall, -⟩
    rw [hcalls] at hcall
    nomatch hcall
  have hkept : ¬s.TearsDown := by
    rintro (hteardown | ⟨issued, hmem, -⟩)
    · exact hnone _ hteardown
    · rw [hqueue] at hmem
      exact absurd hmem List.not_mem_nil
  constructor
  · exact fun hshows => (h.backed.shows hshows).resolve_right (hnone _)
  · intro hsession
    obtain ⟨k, hk⟩ := Option.isSome_iff_exists.mp hsession
    obtain hshows | htears | hconnecting := h.backed.holds ⟨k, hk, hcalls k⟩
    · exact hshows
    · exact absurd htears hkept
    · exact absurd hconnecting (hnone _)

/-! ### A step of a call -/

/-- One call goes on or returns, and issues commands; the session stays. -/
structure Advance (s s' : ConnectionScreen) (id : ℕ) (next : Option ConnectionCall)
    (issued : List IssuedCommand) : Prop where
  session : s'.session = s.session
  names : s.nextCall ≤ s'.nextCall
  calls : ∀ k, s'.calls.lookup k = if k = id then next else s.calls.lookup k
  queue : s'.queue = s.queue ++ issued
  /-- A call that goes on has a name by now. -/
  named : next.isSome = true → id < s'.nextCall
  /-- It does not wait for a connect on its way. -/
  idle : ∀ call, s.calls.lookup id = some call → ¬call.waiting.Asks
  /-- It has no session and does not come to have one. -/
  fresh : ∀ call, next = some call → ¬call.waiting.IsStarted ∧ s.session ≠ some id
  /-- It asks for one connect at most, and then waits for it. -/
  asks : askers issued = [] ∨ askers issued = [id] ∧ ∃ call, next = some call ∧ call.waiting.Asks

variable {id : ℕ} {next : Option ConnectionCall} {issued : List IssuedCommand}

theorem askers_append (queue issued : List IssuedCommand) :
    askers (queue ++ issued) = askers queue ++ askers issued := by
  unfold askers
  rw [List.filter_append, List.map_append]

/-- The call that goes on has no connect on its way. -/
theorem Advance.not_mem_askers (ha : s.Advance s' id next issued) (h : s.Wired) :
    id ∉ askers s.queue := by
  intro hmem
  obtain ⟨call, hcall, hasks⟩ := h.asked id hmem
  exact ha.idle call hcall hasks

theorem Wired.advance (h : s.Wired) (ha : s.Advance s' id next issued) : s'.Wired where
  call_lt k call hcall := by
    rw [ha.calls] at hcall
    split at hcall
    next hk => exact hk ▸ ha.named (hcall ▸ rfl)
    next => exact (h.call_lt k call hcall).trans_le ha.names
  session_lt k hk := (h.session_lt k (ha.session ▸ hk)).trans_le ha.names
  owner k call hk hcall := by
    rw [ha.session] at hk
    rw [ha.calls] at hcall
    split at hcall
    next hid => exact absurd (hid ▸ hk) (ha.fresh call hcall).2
    next => exact h.owner k call hk hcall
  started := by
    rintro ⟨k, call, hcall, hstarted⟩
    rw [ha.calls] at hcall
    rw [ha.session]
    split at hcall
    next => exact absurd hstarted (ha.fresh call hcall).1
    next => exact h.started ⟨k, call, hcall, hstarted⟩
  asked k hk := by
    rw [ha.queue, askers_append, List.mem_append] at hk
    rw [ha.calls]
    obtain hk | hk := hk
    · have hne : k ≠ id := fun heq => ha.not_mem_askers h (heq ▸ hk)
      rw [if_neg hne]
      exact h.asked k hk
    · obtain hnil | ⟨hsingle, call, hnext, hasks⟩ := ha.asks
      · rw [hnil] at hk
        exact absurd hk List.not_mem_nil
      · rw [hsingle, List.mem_singleton] at hk
        rw [if_pos hk]
        exact ⟨call, hnext, hasks⟩
  once := by
    rw [ha.queue, askers_append]
    obtain hnil | ⟨hsingle, -⟩ := ha.asks
    · rw [hnil, List.append_nil]
      exact h.once
    · rw [hsingle]
      refine List.nodup_append.mpr ⟨h.once, List.nodup_singleton id, ?_⟩
      rintro k hk j hj rfl
      exact ha.not_mem_askers h (List.mem_singleton.mp hj ▸ hk)

/-- A call of a kind that the one that goes on does not lose is still there. -/
theorem Advance.has (ha : s.Advance s' id next issued) {kind : Waiting → Prop}
    (hkept : ∀ call, s.calls.lookup id = some call → kind call.waiting →
      ∃ call, next = some call ∧ kind call.waiting) (h : s.Has kind) : s'.Has kind := by
  obtain ⟨k, call, hcall, hkind⟩ := h
  by_cases hk : k = id
  · obtain ⟨call', hnext, hkind'⟩ := hkept call (hk ▸ hcall) hkind
    exact ⟨id, call', by rw [ha.calls, if_pos rfl, hnext], hkind'⟩
  · exact ⟨k, call, by rw [ha.calls, if_neg hk, hcall], hkind⟩

theorem Advance.has_next (ha : s.Advance s' id next issued) {kind : Waiting → Prop}
    {call : ConnectionCall} (hnext : next = some call) (hkind : kind call.waiting) :
    s'.Has kind := ⟨id, call, by rw [ha.calls, if_pos rfl, hnext], hkind⟩

/-- The session of a connect that returned was there before, unless it is the one that goes
on. -/
theorem Advance.holdsReturned (ha : s.Advance s' id next issued)
    (hid : ∀ call, s.calls.lookup id = some call → s.session ≠ some id)
    (h : s'.HoldsReturned) : s.HoldsReturned := by
  obtain ⟨k, hk, hcall⟩ := h
  rw [ha.session] at hk
  rw [ha.calls] at hcall
  split at hcall
  next hkid =>
    refine ⟨k, hk, ?_⟩
    cases hlookup : s.calls.lookup k with
    | none => rfl
    | some call => exact absurd (hkid ▸ hk) (hid call (hkid ▸ hlookup))
  next => exact ⟨k, hk, hcall⟩

/-- The dates stay as long as nothing comes to be shown and no connect comes through. -/
theorem Dates.of_hidden {meant : ℕ} (h : s.Dates meant) (hconnects : s'.connects = s.connects)
    (hhidden : s'.store.Shows → s.store.Shows) : s'.Dates meant := by
  unfold Dates
  rw [hconnects]
  exact ⟨h.1, fun heq hshows => h.2 heq (hhidden hshows)⟩

theorem Dated.advance (h : s.Dated) (ha : s.Advance s' id next issued)
    (hold : ∀ meant, s.Dates meant → s'.Dates meant)
    (hissued : ∀ command ∈ issued, command.command.isTeardown = true → s'.Dates command.meant)
    (hnext : ∀ call, next = some call → call.waiting.IsTeardown → s'.Dates call.meant) :
    s'.Dated where
  command command hmem hteardown := by
    rw [ha.queue, List.mem_append] at hmem
    obtain hmem | hmem := hmem
    · exact hold _ (h.command command hmem hteardown)
    · exact hissued command hmem hteardown
  call k call hcall hteardown := by
    rw [ha.calls] at hcall
    split at hcall
    next => exact hnext call hcall hteardown
    next => exact hold _ (h.call k call hcall hteardown)

/-- The call that goes on takes along what it is to settle. -/
structure Keeps (s : ConnectionScreen) (id : ℕ) (next : Option ConnectionCall)
    (issued : List IssuedCommand) : Prop where
  started : ∀ call, s.calls.lookup id = some call → ¬call.waiting.IsStarted
  connecting : ∀ call, s.calls.lookup id = some call → call.waiting.IsConnecting →
    ∃ call, next = some call ∧ call.waiting.IsConnecting
  teardown : ∀ call, s.calls.lookup id = some call → call.waiting.IsTeardown →
    (∃ call, next = some call ∧ call.waiting.IsTeardown) ∨
      ∃ command ∈ issued, command.command = .killPlayback

/-- A step that shows what was shown. -/
theorem Inv.keep (h : s.Inv) (ha : s.Advance s' id next issued) (hk : s.Keeps id next issued)
    (hshows : s'.store.Shows ↔ s.store.Shows) (hconnects : s'.connects = s.connects)
    (hissued : ∀ command ∈ issued, command.command.isTeardown = true → s.Dates command.meant)
    (hnext : ∀ call, next = some call → call.waiting.IsTeardown → s.Dates call.meant) :
    s'.Inv := by
  have hdates : ∀ meant, s.Dates meant → s'.Dates meant := fun meant hmeant =>
    hmeant.of_hidden hconnects hshows.mp
  have hconnecting : s.Has Waiting.IsConnecting → s'.Has Waiting.IsConnecting :=
    ha.has hk.connecting
  have htears : s.TearsDown → s'.TearsDown := by
    rintro (⟨k, call, hcall, hteardown⟩ | ⟨command, hmem, hkill⟩)
    · by_cases hkid : k = id
      · obtain ⟨call', hnext', hteardown'⟩ | ⟨command, hmem, hkill⟩ :=
          hk.teardown call (hkid ▸ hcall) hteardown
        · exact Or.inl (ha.has_next hnext' hteardown')
        · exact Or.inr ⟨command, ha.queue ▸ List.mem_append_right _ hmem, hkill⟩
      · exact Or.inl ⟨k, call, by rw [ha.calls, if_neg hkid, hcall], hteardown⟩
    · exact Or.inr ⟨command, ha.queue ▸ List.mem_append_left _ hmem, hkill⟩
  refine ⟨h.wired.advance ha, ⟨?_, ?_⟩, h.dated.advance ha hdates
    (fun command hmem hteardown => hdates _ (hissued command hmem hteardown))
    fun call hcall hteardown => hdates _ (hnext call hcall hteardown)⟩
  · intro hshown
    rw [ha.session]
    exact (h.backed.shows (hshows.mp hshown)).imp_right hconnecting
  · intro hholds
    have hholds' := ha.holdsReturned
      (fun call hcall hid => hk.started call hcall (h.wired.owner id call hid hcall)) hholds
    exact (h.backed.holds hholds').imp hshows.mpr (Or.imp htears hconnecting)

/-- A step that shows no connection any more, and has the session settled otherwise. -/
theorem Inv.hide (h : s.Inv) (ha : s.Advance s' id next issued) (hhidden : ¬s'.store.Shows)
    (hconnects : s'.connects = s.connects)
    (hsettled : s'.HoldsReturned → s'.TearsDown ∨ s'.Has Waiting.IsConnecting)
    (hissued : ∀ command ∈ issued, command.command.isTeardown = true → command.meant ≤ s.connects)
    (hnext : ∀ call, next = some call → call.waiting.IsTeardown → call.meant ≤ s.connects) :
    s'.Inv := by
  have hdates : ∀ meant, meant ≤ s.connects → s'.Dates meant := fun meant hmeant =>
    ⟨hconnects ▸ hmeant, fun _ => hhidden⟩
  refine ⟨h.wired.advance ha, ⟨fun hshows => absurd hshows hhidden, fun hholds => ?_⟩,
    h.dated.advance ha (fun meant hmeant => hdates meant hmeant.1)
      (fun command hmem hteardown => hdates _ (hissued command hmem hteardown))
      fun call hcall hteardown => hdates _ (hnext call hcall hteardown)⟩
  exact Or.inr (hsettled hholds)

end ConnectionScreen

end Gemacast.Phone
