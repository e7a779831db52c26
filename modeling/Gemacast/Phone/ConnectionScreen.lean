import Gemacast.Phone.ConnectionCalls
import Gemacast.Phone.ConnectionCommands

/-!
# What the screen shows and what the native side plays

In the runs in which no command meets a session that it does not reckon with, the screen shows a
connection exactly when there is a session, once every call has returned; and a connect that
comes through in the grace period of a disconnect outlives it.
-/

namespace Gemacast.Phone

open Gemacast.Core
open Gemacast.Streamer (DeviceId)

namespace ConnectionScreen

variable {s s' : ConnectionScreen} {id : ℕ} {next : Option ConnectionCall}
  {issued : List IssuedCommand} {call : ConnectionCall} {command : IssuedCommand}
  {rest : List IssuedCommand} {session : Option ℕ} {change : Waiting → Waiting}

/-! ### Runs -/

theorem Inv.step (h : s.Inv) (input : ConnectionInput) (hok : s.Reckons input) :
    (s.step input).Inv := by
  cases input with
  | connect streamer => exact h.connect s.store streamer
  | disconnect forgetStreamer => exact h.disconnect forgetStreamer
  | forceDisconnect forgetStreamer => exact h.forceDisconnect forgetStreamer
  | linkLost => exact h.linkLost
  | linkRecovered => exact h.linkRecovered
  | streamerTimedOut deviceId => exact h.streamerTimedOut deviceId
  | streamerDiscovered streamer => exact h.streamerDiscovered streamer hok
  | playback status => exact h.playback status
  | resume id => exact h.resume id hok
  | execute outcome => exact h.execute outcome hok

theorem Inv.new (store : AppStore) (listening : Bool) : (new store listening).Inv := by
  have hnone : ∀ kind, ¬(ConnectionScreen.new store listening).Has kind := by
    rintro kind ⟨id, call, hcall, -⟩
    nomatch hcall
  refine ⟨⟨nofun, nofun, nofun, fun hhas => absurd hhas (hnone _), nofun, List.nodup_nil⟩,
    ⟨fun hshows => absurd hshows (not_shows_of_none rfl), ?_⟩, ⟨nofun, nofun⟩⟩
  rintro ⟨k, hk, -⟩
  nomatch hk

/-- A disconnect whose grace period lasted while a connect came through: its commands were not
meant for the session there is. -/
structure Late (d : ℕ) (s : ConnectionScreen) : Prop where
  old : d < s.nextCall
  command : ∀ command ∈ s.queue, command.caller = d → command.command.isConnect = false ∧
    (command.command.isTeardown = true → command.meant < s.connects)
  call : ∀ call, s.calls.lookup d = some call → call.waiting.InGrace ∧ call.meant < s.connects

section Late

variable {d : ℕ} {meant : ℕ}

theorem Late.issue (h : s.Late d) (hid : id ≠ d) (command : NativeCommand) :
    (s.issue id meant command).Late d where
  old := h.old
  command issued hmem hcaller := by
    obtain hmem | hmem := List.mem_append.mp hmem
    · exact h.command issued hmem hcaller
    · rw [List.mem_singleton.mp hmem] at hcaller
      exact absurd hcaller hid
  call := h.call

theorem Late.await (h : s.Late d) (hid : id ≠ d) (waiting : Waiting) :
    (s.await id meant waiting).Late d where
  old := h.old
  command := h.command
  call call hcall := h.call call ((AList.lookup_insert_ne hid.symm).symm.trans hcall)

theorem Late.finish (h : s.Late d) : (s.finish id).Late d where
  old := h.old
  command := h.command
  call call hcall := by
    have hcall' := Table.lookup_erase_eq.symm.trans hcall
    split at hcall'
    · nomatch hcall'
    · exact h.call call hcall'

theorem Late.patch (h : s.Late d) (change : AppStore → AppStore) : (s.patch change).Late d :=
  ⟨h.old, h.command, h.call⟩

theorem Late.connect (h : s.Late d) (hid : id ≠ d) (streamer : DiscoveredStreamer) :
    (s.connect id streamer).Late d := ((h.patch _).issue hid _).await hid _

theorem Late.disconnect (h : s.Late d) (hid : id ≠ d) (forgetStreamer : Bool) :
    (s.disconnect id forgetStreamer).Late d := by
  unfold ConnectionScreen.disconnect
  dsimp only
  split
  · exact h
  · split
    · exact (h.patch _).issue hid _
    · have hflag : ∀ {s : ConnectionScreen}, s.Late d → { s with disconnecting := true }.Late d :=
        fun h => ⟨h.old, h.command, h.call⟩
      exact ((hflag (h.patch _)).issue hid _).await hid _

theorem Late.forceDisconnect (h : s.Late d) (hid : id ≠ d) (forgetStreamer : Bool) :
    (s.forceDisconnect id forgetStreamer).Late d := by
  unfold ConnectionScreen.forceDisconnect
  split
  · exact h
  · exact ((h.patch _).issue hid _).issue hid _

theorem Late.linkLost (h : s.Late d) (hid : id ≠ d) : (s.linkLost id).Late d := by
  unfold ConnectionScreen.linkLost
  dsimp only
  split
  · exact h
  · exact ((h.patch _).issue hid _).await hid _

theorem Late.linkRecovered (h : s.Late d) (hid : id ≠ d) : (s.linkRecovered id).Late d := by
  unfold ConnectionScreen.linkRecovered
  split
  · exact h
  · split
    · exact h
    · exact h.connect hid _

theorem Late.streamerTimedOut (h : s.Late d) (hid : id ≠ d) (deviceId : DeviceId) :
    (s.streamerTimedOut id deviceId).Late d := by
  unfold ConnectionScreen.streamerTimedOut
  dsimp only
  split
  · exact ((h.patch _).patch _).issue hid _
  · exact h.patch _

theorem Late.streamerDiscovered (h : s.Late d) (hid : id ≠ d) (streamer : DiscoveredStreamer) :
    (s.streamerDiscovered id streamer).Late d := by
  unfold ConnectionScreen.streamerDiscovered
  dsimp only
  split
  · exact h.patch fun _ => _
  · exact (h.patch fun _ => _).connect hid _

theorem Late.playback (h : s.Late d) (status : Status) : (s.playback status).Late d := by
  unfold ConnectionScreen.playback
  dsimp only
  split
  · exact h.patch _
  · exact h

theorem Late.connectSucceeded (h : s.Late d) (streamer : DiscoveredStreamer)
    (mode : ConnectionMode) : (s.connectSucceeded id streamer mode).Late d := by
  have hpatched := h.patch fun store =>
    { store with
      connectedStreamer := some streamer
      lastConnectedStreamer := some streamer
      lastConnectedMode := some mode
      status := .connected }
  refine Late.finish ⟨hpatched.old, fun command hmem hcaller => ?_, fun call hcall => ?_⟩
  · exact (hpatched.command command hmem hcaller).imp_right fun hlt h => (hlt h).trans
      (Nat.lt_succ_self _)
  · exact (hpatched.call call hcall).imp_right fun hlt => hlt.trans (Nat.lt_succ_self _)

theorem Late.attemptFailed (h : s.Late d) (hid : id ≠ d) (streamer : DiscoveredStreamer)
    (mode : ConnectionMode) (retries : ℕ) (terminal : Bool) :
    (s.attemptFailed id meant streamer mode retries terminal).Late d := by
  unfold ConnectionScreen.attemptFailed
  split
  · exact h.await hid _
  · exact (h.patch _).finish

/-- The end of its grace period is all that is left of the disconnect. -/
theorem Late.resume_self (h : s.Late d) : (s.resume d).Late d := by
  unfold ConnectionScreen.resume
  cases hcall : s.calls.lookup d with
  | none => exact h
  | some call =>
    obtain ⟨waiting, meant⟩ := call
    obtain ⟨hgrace, hmeant⟩ := h.call _ hcall
    cases waiting with
    | grace retainedStreamer forgetStreamer =>
      have hissued : (s.issue d meant .killPlayback).Late d := by
        refine ⟨h.old, fun command hmem hcaller => ?_, h.call⟩
        obtain hmem | hmem := List.mem_append.mp hmem
        · exact h.command command hmem hcaller
        · rw [List.mem_singleton.mp hmem]
          exact ⟨rfl, fun _ => hmeant⟩
      exact Late.finish ⟨hissued.old, hissued.command, hissued.call⟩
    | _ => exact hgrace.elim

theorem Late.resume (h : s.Late d) (id : ℕ) : (s.resume id).Late d := by
  by_cases hid : id = d
  · exact hid ▸ h.resume_self
  · unfold ConnectionScreen.resume
    cases hcall : s.calls.lookup id with
    | none => exact h
    | some call =>
      obtain ⟨waiting, meant⟩ := call
      dsimp only
      split
      · exact h.connectSucceeded _ _
      · exact h.attemptFailed hid _ _ _ _
      · exact h.attemptFailed hid _ _ _ _
      · exact (h.issue hid _).await hid _
      · exact h.await hid _
      · have hissued : (s.issue id meant .killPlayback).Late d := h.issue hid .killPlayback
        exact Late.finish ⟨hissued.old, hissued.command, hissued.call⟩
      · exact (h.issue hid _).await hid _
      · exact (h.issue hid _).await hid _
      · exact h.finish
      · exact h.finish
      · exact h

theorem Late.execute (h : s.Late d) (outcome : Outcome) : (s.execute outcome).Late d := by
  cases hqueue : s.queue with
  | nil =>
    rw [ConnectionScreen.execute, hqueue]
    exact h
  | cons command rest =>
    have he := executed_execute hqueue outcome
    refine ⟨he.names.symm ▸ h.old, fun issued hmem hcaller => ?_, fun call hcall => ?_⟩
    · rw [he.queue] at hmem
      rw [he.connects]
      exact h.command issued (hqueue ▸ List.mem_cons_of_mem _ hmem) hcaller
    · rw [he.calls, Option.map_eq_some_iff] at hcall
      obtain ⟨call', hcall', rfl⟩ := hcall
      obtain ⟨hgrace, hmeant⟩ := h.call call' hcall'
      rw [he.connects]
      split
      · exact ⟨hgrace.answer, hmeant⟩
      · exact ⟨hgrace, hmeant⟩

theorem Late.step (h : s.Late d) (input : ConnectionInput) : (s.step input).Late d := by
  have hid : s.nextCall ≠ d := h.old.ne'
  have hnamed : { s with nextCall := s.nextCall + 1 }.Late d :=
    ⟨h.old.trans (Nat.lt_succ_self _), h.command, h.call⟩
  cases input with
  | connect streamer => exact hnamed.connect hid streamer
  | disconnect forgetStreamer => exact hnamed.disconnect hid forgetStreamer
  | forceDisconnect forgetStreamer => exact hnamed.forceDisconnect hid forgetStreamer
  | linkLost => exact hnamed.linkLost hid
  | linkRecovered => exact hnamed.linkRecovered hid
  | streamerTimedOut deviceId => exact hnamed.streamerTimedOut hid deviceId
  | streamerDiscovered streamer => exact hnamed.streamerDiscovered hid streamer
  | playback status => exact h.playback status
  | resume id => exact h.resume id
  | execute outcome => exact h.execute outcome

end Late

/-- One executed step of the screen. -/
abbrev ConnectionEvent := Event ConnectionScreen ConnectionInput Unit

/-- The connect learns that it has come through. -/
def Completes (e : ConnectionEvent) (c : ℕ) : Prop :=
  e.input = .resume c ∧ ∃ call, e.before.calls.lookup c = some call ∧ call.waiting.IsStarted

/-- The step is one of the call, or of a command that it issued. -/
def Belongs (e : ConnectionEvent) (d : ℕ) : Prop :=
  e.input = .resume d ∨ ∃ outcome command, e.input = .execute outcome ∧
    e.before.queue.head? = some command ∧ command.caller = d

/-- Whenever every call has returned, a connection is shown exactly when there is a session; and a
disconnect neither ends the session of a connect that completes in its grace period nor takes a
connection off the screen after that. -/
def Settles (events : List ConnectionEvent) : Prop :=
  (∀ e ∈ events, e.after.Quiescent → e.after.Agrees) ∧
    ∀ pre e mid e' post c d, events = pre ++ e :: mid ++ e' :: post → Completes e c →
      (∃ call, e.before.calls.lookup d = some call ∧ call.waiting.InGrace) → Belongs e' d →
        (e'.before.session = some c → e'.after.session = some c) ∧
          (e'.before.store.Shows → e'.after.store.Shows)

/-- A connect that completes leaves the disconnects late that are in their grace period. -/
theorem Inv.late (h : s.Inv) {c d : ℕ} {call call' : ConnectionCall}
    (hcall : s.calls.lookup c = some call) (hstarted : call.waiting.IsStarted)
    (hcall' : s.calls.lookup d = some call') (hgrace : call'.waiting.InGrace) :
    (s.resume c).Late d := by
  have hteardown : call'.waiting.IsTeardown ∧ ¬call'.waiting.Asks := by
    unfold Waiting.InGrace at hgrace
    split at hgrace
    next hwaiting =>
      rw [hwaiting]
      exact ⟨trivial, not_false⟩
    next => exact hgrace.elim
  have hmeant := (h.dated.call d call' hcall' hteardown.1).1
  obtain ⟨waiting, meant⟩ := call
  unfold Waiting.IsStarted at hstarted
  split at hstarted
  next streamer mode retries hwaiting =>
    dsimp only at hwaiting
    subst hwaiting
    have hresume : s.resume c = s.connectSucceeded c streamer mode := by
      rw [ConnectionScreen.resume, hcall]
    rw [hresume]
    refine Late.finish ⟨h.wired.call_lt d call' hcall', fun command hmem hcaller => ⟨?_, ?_⟩,
      fun call hcall => ?_⟩
    · by_contra hconnect
      have hasks : d ∈ askers s.queue := by
        refine List.mem_map.mpr ⟨command, List.mem_filter.mpr ⟨hmem, ?_⟩, hcaller⟩
        exact Bool.not_eq_false _ ▸ hconnect
      obtain ⟨call, hcall, hasks⟩ := h.wired.asked d hasks
      obtain rfl := Option.some.inj (hcall.symm.trans hcall')
      exact hteardown.2 hasks
    · exact fun hends => Nat.lt_succ_of_le (h.dated.command command hmem hends).1
    · obtain rfl := Option.some.inj (hcall.symm.trans hcall')
      exact ⟨hgrace, Nat.lt_succ_of_le hmeant⟩
  next => exact hstarted.elim

/-- A late disconnect ends nothing any more, and takes nothing off the screen. -/
theorem Late.spared {d : ℕ} (h : s.Late d) {input : ConnectionInput} (hok : s.Reckons input)
    (hinput : input = .resume d ∨ ∃ outcome command, input = .execute outcome ∧
      s.queue.head? = some command ∧ command.caller = d) (c : ℕ) :
    (s.session = some c → (s.step input).session = some c) ∧
      (s.store.Shows → (s.step input).store.Shows) := by
  obtain rfl | ⟨outcome, command, rfl, hhead, hcaller⟩ := hinput
  · cases hcall : s.calls.lookup d with
    | none =>
      have hstay : s.step (.resume d) = s := by
        change s.resume d = s
        rw [ConnectionScreen.resume, hcall]
      rw [hstay]
      exact ⟨fun h => h, fun h => h⟩
    | some call =>
      obtain ⟨waiting, meant⟩ := call
      have hgrace := (h.call _ hcall).1
      cases waiting with
      | grace retainedStreamer forgetStreamer =>
        have hresume : s.step (.resume d) =
            s.endGrace d meant retainedStreamer forgetStreamer := by
          change s.resume d = _
          rw [ConnectionScreen.resume, hcall]
        rw [hresume]
        exact ⟨fun h => h, fun hshows => absurd hshows (hok _ hcall)⟩
      | _ => exact hgrace.elim
  · obtain ⟨rest, hqueue⟩ : ∃ rest, s.queue = command :: rest := by
      cases hqueue : s.queue with
      | nil =>
        rw [hqueue] at hhead
        nomatch hhead
      | cons first rest =>
        rw [hqueue] at hhead
        exact ⟨rest, congrArg (· :: rest) (Option.some.inj hhead)⟩
    have he := executed_execute hqueue outcome
    obtain ⟨hconnect, hmeant⟩ := h.command command (hqueue ▸ List.mem_cons_self) hcaller
    have hspares := hok command hhead
    refine ⟨fun hsession => ?_, fun hshows => he.store.symm ▸ hshows⟩
    change (s.execute outcome).session = some c
    rw [he.session]
    have hmissed : command.command.isTeardown = true →
        ¬(s.session.isSome = true → command.meant = s.connects ∧ ¬s.Has Waiting.IsStarted) :=
      fun hends hmeant' => (hmeant hends).ne (hmeant' (hsession ▸ rfl)).1
    unfold Spares at hspares
    cases hname : command.command with
    | connectToStreamer ip mode =>
      rw [hname] at hconnect
      exact absurd hconnect nofun
    | disconnectFromStreamer ip =>
      rw [hname] at hspares hmissed
      cases outcome with
      | ok => exact absurd hspares (hmissed rfl)
      | refused terminal => exact hsession
      | lost terminal => exact absurd hspares (hmissed rfl)
    | killPlayback =>
      rw [hname] at hspares hmissed
      cases outcome with
      | ok => exact absurd hspares (hmissed rfl)
      | refused terminal => exact hsession
      | lost terminal => exact absurd hspares (hmissed rfl)
    | notifyStreamingStopped => cases outcome <;> exact hsession
    | startLinkRecovery ip => cases outcome <;> exact hsession

/-- In every run whose steps reckon with the session there is, the screen and the native side
agree once every call has returned, and no disconnect touches a connect that completes in its
grace period. -/
theorem settles_of_run (store : AppStore) (listening : Bool) (inputs : List ConnectionInput)
    (hok : ∀ e ∈ (machine store listening).events inputs, e.before.Reckons e.input) :
    Settles ((machine store listening).events inputs) := by
  have hinv := (machine store listening).invariant (Inv.new store listening)
    (fun s input h hok => h.step input hok) hok
  refine ⟨fun e he => (hinv.1 e he).2.agrees, ?_⟩
  rintro pre e mid e' post c d hsplit ⟨hinput, call, hcall, hstarted⟩ ⟨call', hcall', hgrace⟩
    hbelongs
  have hmem : e ∈ (machine store listening).events inputs := by
    rw [hsplit]
    simp
  have hmem' : e' ∈ (machine store listening).events inputs := by
    rw [hsplit]
    simp
  obtain ⟨as, bs, cs, -, -, -, he, -, hbefore, he'⟩ := Machine.eventsFrom_between _ hsplit
  have hlate : e.after.Late d := by
    rw [he, hinput]
    exact (hinv.1 e hmem).1.late hcall hstarted hcall' hgrace
  have hlate' : e'.before.Late d := by
    rw [hbefore]
    exact ((machine store listening).invariant_from (p := fun _ _ => True)
      (fun s input h _ => h.step input) hlate fun _ _ => trivial).2
  have hafter : e'.after = e'.before.step e'.input := congrArg Event.after he'
  rw [hafter]
  exact hlate'.spared (hok e' hmem') hbelongs c

/-- A store at the start, with Wi-Fi selected. -/
def startStore : AppStore := ⟨.idle, none, none, none, [], false, .wifi, true⟩

/-- A PC in the living room. -/
def livingRoom : DiscoveredStreamer := ⟨"pc-1", "Living room", "192.168.1.5:9000", false⟩

/-- A PC in the study. -/
def study : DiscoveredStreamer := ⟨"pc-2", "Study", "192.168.1.6:9000", false⟩

/-- A connection and its disconnect, one after the other. -/
def orderlyRun : List ConnectionInput :=
  [.connect livingRoom, .execute .ok, .resume 0, .disconnect true, .execute .ok, .resume 1,
    .resume 1, .execute .ok]

theorem not_has_of_entries {kind : Waiting → Prop}
    (h : ∀ entry ∈ s.calls.entries, ¬kind entry.2.waiting) : ¬s.Has kind := by
  rintro ⟨id, call, hcall, hkind⟩
  exact h _ (Table.lookup_eq_some_iff.mp hcall) hkind

theorem settles_orderlyRun : Settles ((machine startStore true).events orderlyRun) := by
  refine settles_of_run startStore true orderlyRun ?_
  refine List.forall_mem_cons.mpr ⟨trivial, List.forall_mem_cons.mpr ⟨?_,
    List.forall_mem_cons.mpr ⟨?_, List.forall_mem_cons.mpr ⟨trivial,
    List.forall_mem_cons.mpr ⟨?_, List.forall_mem_cons.mpr ⟨?_, List.forall_mem_cons.mpr ⟨?_,
    List.forall_mem_cons.mpr ⟨?_, fun _ hmem => absurd hmem List.not_mem_nil⟩⟩⟩⟩⟩⟩⟩⟩
  · intro command hhead
    obtain rfl := Option.some.inj hhead
    trivial
  · intro call hcall
    obtain rfl := Option.some.inj hcall
    trivial
  · intro command hhead
    obtain rfl := Option.some.inj hhead
    refine fun _ => ⟨rfl, not_has_of_entries fun entry hmem => ?_⟩
    rw [List.mem_singleton.mp hmem]
    exact not_false
  · intro call hcall
    obtain rfl := Option.some.inj hcall
    trivial
  · intro call hcall
    obtain rfl := Option.some.inj hcall
    exact not_shows_of_status (Or.inl rfl)
  · intro command hhead
    obtain rfl := Option.some.inj hhead
    exact fun hsome => absurd hsome Bool.false_ne_true

/-- A disconnect is in its grace period when the user connects to another PC: the native side
connects and then executes the kill of the disconnect, and only then the connect goes on. -/
def issuedInGrace : List ConnectionInput :=
  [.connect livingRoom, .execute .ok, .resume 0, .disconnect true, .execute .ok, .resume 1,
    .connect study, .resume 1, .execute .ok, .execute .ok, .resume 2]

/-- The connect completes before the grace period ends. -/
def completedInGrace : List ConnectionInput :=
  [.connect livingRoom, .execute .ok, .resume 0, .disconnect true, .execute .ok, .resume 1,
    .connect study, .execute .ok, .resume 2, .resume 1, .execute .ok]

theorem not_settles_graceConnect :
    ¬Settles ((machine startStore true).events issuedInGrace) ∧
      ¬Settles ((machine startStore true).events completedInGrace) := by
  constructor
  · rintro ⟨hagrees, -⟩
    have hlast := hagrees _ (List.getLast_mem (List.cons_ne_nil _ _))
      ⟨Table.isEmpty_iff.mp rfl, rfl⟩
    exact absurd (hlast.mp ⟨rfl, Or.inl rfl⟩) Bool.false_ne_true
  · rintro ⟨-, hspared⟩
    have hlost := (hspared (((machine startStore true).events completedInGrace).take 8) _ [] _ _ 2 1
      rfl ⟨rfl, _, rfl, trivial⟩ ⟨_, rfl, trivial⟩ (Or.inl rfl)).2 ⟨rfl, Or.inl rfl⟩
    exact not_shows_of_none rfl hlost

end ConnectionScreen

end Gemacast.Phone
