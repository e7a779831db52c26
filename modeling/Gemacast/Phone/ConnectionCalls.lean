import Gemacast.Phone.ConnectionInvariant

/-!
# The calls keep the invariant

One lemma for each call as it begins, and one for each wait of a call that goes on.
-/

namespace Gemacast.Phone

open Gemacast.Core
open Gemacast.Streamer (DeviceId)

namespace ConnectionScreen

variable {s s' : ConnectionScreen} {id : ℕ} {next : Option ConnectionCall}
  {issued : List IssuedCommand}

/-! ### The calls begin -/

theorem not_shows_of_status {store : AppStore}
    (h : store.status = .listening ∨ store.status = .connecting) : ¬store.Shows := by
  rintro ⟨-, hstatus⟩
  obtain h | h := h
  · rw [h] at hstatus
    exact absurd hstatus (by decide)
  · rw [h] at hstatus
    exact absurd hstatus (by decide)

theorem not_shows_of_none {store : AppStore} (h : store.connectedStreamer = none) :
    ¬store.Shows := by
  rintro ⟨hconnected, -⟩
  rw [h] at hconnected
  exact Bool.false_ne_true hconnected

theorem Wired.lookup_nextCall (h : s.Wired) : s.calls.lookup s.nextCall = none := by
  cases hcall : s.calls.lookup s.nextCall with
  | none => rfl
  | some call => exact absurd (h.call_lt _ call hcall) (lt_irrefl _)

/-- A call under a new name advances. -/
theorem Wired.advance_begin (h : s.Wired) (hsession : s'.session = s.session)
    (hnames : s'.nextCall = s.nextCall + 1)
    (hcalls : ∀ k, s'.calls.lookup k = if k = s.nextCall then next else s.calls.lookup k)
    (hqueue : s'.queue = s.queue ++ issued)
    (hnext : ∀ call, next = some call → ¬call.waiting.IsStarted)
    (hasks : askers issued = [] ∨
      askers issued = [s.nextCall] ∧ ∃ call, next = some call ∧ call.waiting.Asks) :
    s.Advance s' s.nextCall next issued where
  session := hsession
  names := hnames ▸ Nat.le_succ _
  calls := hcalls
  queue := hqueue
  named _ := hnames ▸ Nat.lt_succ_self _
  idle call hcall := by
    rw [h.lookup_nextCall] at hcall
    nomatch hcall
  fresh call hcall :=
    ⟨hnext call hcall, fun hsession => absurd (h.session_lt _ hsession) (lt_irrefl _)⟩
  asks := hasks

/-- A new call takes nothing along. -/
theorem Wired.keeps_begin (h : s.Wired) : s.Keeps s.nextCall next issued := by
  have hnone : ∀ {P : ConnectionCall → Prop} (call : ConnectionCall),
      s.calls.lookup s.nextCall = some call → P call := by
    intro P call hcall
    rw [h.lookup_nextCall] at hcall
    nomatch hcall
  exact ⟨hnone, hnone, hnone⟩

theorem Wired.lookup_eq (h : s.Wired) (k : ℕ) :
    s.calls.lookup k = if k = s.nextCall then none else s.calls.lookup k := by
  split
  next hk => rw [hk, h.lookup_nextCall]
  next => rfl

/-- A change of the store leaves the calls alone. -/
theorem Wired.advance_store (h : s.Wired) {store : AppStore} {nextCall : ℕ}
    (hnames : s.nextCall ≤ nextCall) : s.Advance { s with store, nextCall } s.nextCall none [] where
  session := rfl
  names := hnames
  calls := h.lookup_eq
  queue := (List.append_nil _).symm
  named := nofun
  idle call hcall := by
    rw [h.lookup_nextCall] at hcall
    nomatch hcall
  fresh := nofun
  asks := Or.inl rfl

/-- A change of the store that shows what was shown. -/
theorem Inv.restore (h : s.Inv) {store : AppStore} {nextCall : ℕ} (hnames : s.nextCall ≤ nextCall)
    (hshows : store.Shows ↔ s.store.Shows) : { s with store, nextCall }.Inv :=
  h.keep (h.wired.advance_store hnames) h.wired.keeps_begin hshows rfl
    (fun _ hmem => absurd hmem List.not_mem_nil) nofun

/-- A change of the store that takes a connection without a session off the screen. -/
theorem Inv.drop (h : s.Inv) {store : AppStore} {nextCall : ℕ} (hnames : s.nextCall ≤ nextCall)
    (hhidden : ¬store.Shows) (hnone : ¬s.HoldsReturned) : { s with store, nextCall }.Inv :=
  h.hide (h.wired.advance_store hnames) hhidden rfl (fun hholds => absurd hholds hnone)
    (fun _ hmem => absurd hmem List.not_mem_nil) nofun

/-- A call that returns at once and issues commands. -/
theorem Inv.issue (h : s.Inv) (store : AppStore) (issued : List IssuedCommand)
    (hhidden : ¬store.Shows) (hasks : askers issued = [])
    (hmeant : ∀ command ∈ issued, command.meant = s.connects)
    (hsettled : s.store.Shows → ∃ command ∈ issued, command.command = .killPlayback) :
    { s with store, nextCall := s.nextCall + 1, queue := s.queue ++ issued }.Inv := by
  have ha : s.Advance { s with store, nextCall := s.nextCall + 1, queue := s.queue ++ issued }
      s.nextCall none issued :=
    h.wired.advance_begin rfl rfl h.wired.lookup_eq rfl nofun (Or.inl hasks)
  by_cases hshows : s.store.Shows
  · obtain ⟨command, hmem, hkill⟩ := hsettled hshows
    exact h.hide ha hhidden rfl
      (fun _ => Or.inl (Or.inr ⟨command, List.mem_append_right _ hmem, hkill⟩))
      (fun command hmem _ => (hmeant command hmem).le) nofun
  · exact h.keep ha h.wired.keeps_begin ⟨fun h => absurd h hhidden, fun h => absurd h hshows⟩ rfl
      (fun command hmem _ => ⟨(hmeant command hmem).le, fun _ => hshows⟩) nofun

theorem Inv.connect (h : s.Inv) (store : AppStore) (streamer : DiscoveredStreamer) :
    ({ s with store, nextCall := s.nextCall + 1 }.connect s.nextCall streamer).Inv := by
  have ha : s.Advance ({ s with store, nextCall := s.nextCall + 1 }.connect s.nextCall streamer)
      s.nextCall _ _ :=
    h.wired.advance_begin rfl rfl (fun k => Table.lookup_insert_eq) rfl
      (fun call hcall => by
        obtain rfl := Option.some.inj hcall
        exact id)
      (Or.inr ⟨rfl, ⟨.connect _ _ _ none, _⟩, rfl, trivial⟩)
  refine h.hide ha (not_shows_of_status (Or.inr rfl)) rfl
    (fun _ => Or.inr (ha.has_next rfl trivial)) ?_ ?_
  · intro command hmem hteardown
    obtain rfl := List.mem_singleton.mp hmem
    exact absurd hteardown nofun
  · intro call hcall hteardown
    obtain rfl := Option.some.inj hcall
    exact hteardown.elim

theorem Inv.disconnect (h : s.Inv) (forgetStreamer : Bool) :
    (s.begin fun s id => s.disconnect id forgetStreamer).Inv := by
  unfold begin ConnectionScreen.disconnect
  dsimp only
  by_cases hguard : s.store.status = .listening ∨ s.store.status = .idle ∨ s.disconnecting = true
  · rw [if_pos hguard]
    exact h.restore (Nat.le_succ _) Iff.rfl
  rw [if_neg hguard]
  cases hconnected : s.store.connectedStreamer with
  | none =>
    refine h.issue (s.showDisconnected _ forgetStreamer).store
      [⟨s.nextCall, .notifyStreamingStopped, s.connects⟩] (not_shows_of_none rfl) rfl ?_
      fun hshows => absurd hshows (not_shows_of_none hconnected)
    intro command hmem
    rw [List.mem_singleton.mp hmem]
  | some streamer =>
    refine h.hide (h.wired.advance_begin rfl rfl (fun k => Table.lookup_insert_eq) rfl
      (fun call hcall => ?_) (Or.inl rfl)) (not_shows_of_status (Or.inl rfl)) rfl ?_ ?_ ?_
    · obtain rfl := Option.some.inj hcall
      exact id
    · exact fun _ => Or.inl (Or.inl ⟨s.nextCall, _, AList.lookup_insert _, trivial⟩)
    · intro command hmem _
      obtain rfl := List.mem_singleton.mp hmem
      exact le_rfl
    · intro call hcall _
      obtain rfl := Option.some.inj hcall
      exact le_rfl

theorem Inv.forceDisconnect (h : s.Inv) (forgetStreamer : Bool) :
    (s.begin fun s id => s.forceDisconnect id forgetStreamer).Inv := by
  unfold begin ConnectionScreen.forceDisconnect
  dsimp only
  split
  · exact h.restore (Nat.le_succ _) Iff.rfl
  · have hissued := h.issue
      (s.showDisconnected s.store.lastConnectedStreamer forgetStreamer).store
      [⟨s.nextCall, .notifyStreamingStopped, s.connects⟩,
        ⟨s.nextCall, .killPlayback, s.connects⟩] (not_shows_of_none rfl) rfl
      (fun command hmem => ?_) fun _ => ⟨_, List.mem_cons_of_mem _ List.mem_cons_self, rfl⟩
    · rw [List.append_cons] at hissued
      exact hissued
    · obtain rfl | hmem := List.mem_cons.mp hmem
      · rfl
      · rw [List.mem_singleton.mp hmem]

theorem Inv.linkLost (h : s.Inv) : (s.begin fun s id => s.linkLost id).Inv := by
  unfold begin ConnectionScreen.linkLost
  dsimp only
  split
  · exact h.restore (Nat.le_succ _) Iff.rfl
  · refine h.hide (h.wired.advance_begin rfl rfl (fun k => Table.lookup_insert_eq) rfl
      (fun call hcall => ?_) (Or.inl rfl)) (not_shows_of_none rfl) rfl ?_ ?_ ?_
    · obtain rfl := Option.some.inj hcall
      exact id
    · exact fun _ => Or.inl (Or.inl ⟨s.nextCall, _, AList.lookup_insert _, trivial⟩)
    · intro command hmem _
      rw [List.mem_singleton.mp hmem]
    · intro call hcall _
      obtain rfl := Option.some.inj hcall
      exact le_rfl

theorem Inv.linkRecovered (h : s.Inv) : (s.begin fun s id => s.linkRecovered id).Inv := by
  unfold begin ConnectionScreen.linkRecovered
  dsimp only
  split
  · exact h.restore (Nat.le_succ _) Iff.rfl
  · split
    · exact h.restore (Nat.le_succ _) Iff.rfl
    · exact h.connect s.store _

theorem Inv.streamerTimedOut (h : s.Inv) (deviceId : DeviceId) :
    (s.begin fun s id => s.streamerTimedOut id deviceId).Inv := by
  unfold begin ConnectionScreen.streamerTimedOut
  dsimp only
  split
  · refine h.issue _ [⟨s.nextCall, .killPlayback, s.connects⟩]
      (not_shows_of_none rfl) rfl ?_ fun _ => ⟨_, List.mem_cons_self, rfl⟩
    intro command hmem
    rw [List.mem_singleton.mp hmem]
  · exact h.restore (Nat.le_succ _) Iff.rfl

theorem Inv.playback (h : s.Inv) (status : Status) : (s.playback status).Inv := by
  unfold ConnectionScreen.playback
  dsimp only
  split
  next hlive =>
    rw [Bool.and_eq_true, decide_eq_true_iff, decide_eq_true_iff] at hlive
    exact h.restore le_rfl (and_congr Iff.rfl ⟨fun _ => hlive.1, fun _ => hlive.2⟩)
  next => exact h

/-- A presence shows what was shown, unless the PC connected to is leaving. -/
theorem updateDiscoveredStreamer_cases (store : AppStore) (streamer : DiscoveredStreamer) :
    ((store.updateDiscoveredStreamer streamer).1.Shows ↔ store.Shows) ∨
      (streamer.isOffline = true ∧ (∃ connected, store.connectedStreamer = some connected ∧
          connected.deviceId = streamer.deviceId) ∧
        (store.updateDiscoveredStreamer streamer).2 = none ∧
        ¬(store.updateDiscoveredStreamer streamer).1.Shows) := by
  unfold AppStore.updateDiscoveredStreamer
  dsimp only
  by_cases hoffline : streamer.isOffline = true
  · rw [if_pos hoffline]
    by_cases hit : store.connectedStreamer.any (fun s => decide (s.deviceId = streamer.deviceId))
    · rw [if_pos hit]
      refine Or.inr ⟨hoffline, ?_, rfl, not_shows_of_none rfl⟩
      cases hconnected : store.connectedStreamer with
      | none =>
        rw [hconnected] at hit
        exact absurd hit Bool.false_ne_true
      | some connected =>
        rw [hconnected] at hit
        exact ⟨connected, rfl, of_decide_eq_true hit⟩
    · rw [if_neg hit]
      exact Or.inl Iff.rfl
  · rw [if_neg hoffline]
    refine Or.inl (and_congr ?_ Iff.rfl)
    dsimp only
    cases store.connectedStreamer with
    | none => exact Iff.rfl
    | some connected =>
      split
      · exact Iff.rfl
      · exact Iff.rfl

theorem Inv.streamerDiscovered (h : s.Inv) (streamer : DiscoveredStreamer)
    (hok : s.Reckons (.streamerDiscovered streamer)) :
    (s.begin fun s id => s.streamerDiscovered id streamer).Inv := by
  have hcases := updateDiscoveredStreamer_cases s.store streamer
  unfold begin ConnectionScreen.streamerDiscovered
  dsimp only
  revert hcases
  generalize s.store.updateDiscoveredStreamer streamer = r
  obtain ⟨store, target⟩ := r
  rintro (hshows | ⟨hoffline, hconnected, htarget, hhidden⟩)
  · cases target with
    | none => exact h.restore (Nat.le_succ _) hshows
    | some target => exact h.connect store target
  · dsimp only at htarget hhidden
    rw [htarget]
    exact h.drop (Nat.le_succ _) hhidden (hok hoffline hconnected)

/-! ### The calls go on -/

variable {call : ConnectionCall}

/-- A call in progress advances. -/
theorem Wired.advance_resume (h : s.Wired) (hcall : s.calls.lookup id = some call)
    (hidle : ¬call.waiting.Asks) (hsession : s'.session = s.session)
    (hnames : s'.nextCall = s.nextCall)
    (hcalls : ∀ k, s'.calls.lookup k = if k = id then next else s.calls.lookup k)
    (hqueue : s'.queue = s.queue ++ issued)
    (hnext : ∀ call', next = some call' → ¬call.waiting.IsStarted ∧ ¬call'.waiting.IsStarted)
    (hasks : askers issued = [] ∨
      askers issued = [id] ∧ ∃ call, next = some call ∧ call.waiting.Asks) :
    s.Advance s' id next issued where
  session := hsession
  names := hnames.ge
  calls := hcalls
  queue := hqueue
  named _ := hnames ▸ h.call_lt id call hcall
  idle call' hcall' := by
    obtain rfl := Option.some.inj (hcall.symm.trans hcall')
    exact hidle
  fresh call' hcall' :=
    ⟨(hnext call' hcall').2, fun hsession =>
      (hnext call' hcall').1 (h.owner id call hsession hcall)⟩
  asks := hasks

/-- What the call that goes on takes along. -/
theorem keeps_resume (hcall : s.calls.lookup id = some call) (hstarted : ¬call.waiting.IsStarted)
    (hconnecting : call.waiting.IsConnecting →
      ∃ call, next = some call ∧ call.waiting.IsConnecting)
    (hteardown : call.waiting.IsTeardown → (∃ call, next = some call ∧ call.waiting.IsTeardown) ∨
      ∃ command ∈ issued, command.command = .killPlayback) : s.Keeps id next issued where
  started call' hcall' := by
    obtain rfl := Option.some.inj (hcall.symm.trans hcall')
    exact hstarted
  connecting call' hcall' := by
    obtain rfl := Option.some.inj (hcall.symm.trans hcall')
    exact hconnecting
  teardown call' hcall' := by
    obtain rfl := Option.some.inj (hcall.symm.trans hcall')
    exact hteardown

theorem Inv.connectSucceeded (h : s.Inv) (hcall : s.calls.lookup id = some call)
    (hstarted : call.waiting.IsStarted) (streamer : DiscoveredStreamer) (mode : ConnectionMode) :
    (s.connectSucceeded id streamer mode).Inv := by
  have ha : s.Advance (s.connectSucceeded id streamer mode) id none [] :=
    h.wired.advance_resume hcall hstarted.not_asks rfl rfl (fun k => Table.lookup_erase_eq)
      (List.append_nil _).symm nofun (Or.inl rfl)
  have hshows : (s.connectSucceeded id streamer mode).store.Shows := ⟨rfl, Or.inl rfl⟩
  have hdates : ∀ meant, s.Dates meant → (s.connectSucceeded id streamer mode).Dates meant := by
    intro meant hmeant
    have hlt : meant < s.connects + 1 := Nat.lt_succ_of_le hmeant.1
    exact ⟨hlt.le, fun heq => absurd heq hlt.ne⟩
  refine ⟨h.wired.advance ha, ⟨fun _ => Or.inl ?_, fun _ => Or.inl hshows⟩,
    h.dated.advance ha hdates (fun _ hmem => absurd hmem List.not_mem_nil) nofun⟩
  exact h.wired.started ⟨id, call, hcall, hstarted⟩

theorem Inv.connectFailed (h : s.Inv) (hcall : s.calls.lookup id = some call)
    (hidle : ¬call.waiting.Asks) (hstarted : ¬call.waiting.IsStarted) (hnone : ¬s.HoldsReturned)
    (terminal : Bool) : (s.connectFailed id terminal).Inv := by
  have ha : s.Advance (s.connectFailed id terminal) id none [] :=
    h.wired.advance_resume hcall hidle rfl rfl (fun k => Table.lookup_erase_eq)
      (List.append_nil _).symm nofun (Or.inl rfl)
  refine h.hide ha (not_shows_of_status (Or.inl rfl)) rfl (fun hholds => absurd ?_ hnone)
    (fun _ hmem => absurd hmem List.not_mem_nil) nofun
  refine ha.holdsReturned (fun call' hcall' hsession => hstarted ?_) hholds
  exact h.wired.owner id call hsession hcall

/-- A call that issues a command, or none, and goes on to wait for something else. -/
theorem Inv.wait (h : s.Inv) {waiting : Waiting} {meant : ℕ}
    (hcall : s.calls.lookup id = some ⟨waiting, meant⟩) (waiting' : Waiting)
    (hidle : ¬waiting.Asks) (hstarted : ¬waiting.IsStarted)
    (hfresh : ¬waiting'.IsStarted) (command : Option NativeCommand)
    (hasks : ∀ c, command = some c → c.isConnect = true → waiting'.Asks)
    (hconnecting : waiting.IsConnecting → waiting'.IsConnecting)
    (hteardown : waiting.IsTeardown → waiting'.IsTeardown ∨ command = some .killPlayback)
    (hdated : waiting.IsTeardown ∨ ¬waiting'.IsTeardown ∧
      ∀ c, command = some c → c.isTeardown = false) :
    ({ s with
      queue := s.queue ++ (command.map fun c => IssuedCommand.mk id c meant).toList }.await id meant
        waiting').Inv := by
  have hissued : ∀ issued ∈ (command.map fun c => IssuedCommand.mk id c meant).toList,
      ∃ c, command = some c ∧ issued = ⟨id, c, meant⟩ := by
    intro issued hmem
    rw [Option.mem_toList, Option.map_eq_some_iff] at hmem
    obtain ⟨c, hc, rfl⟩ := hmem
    exact ⟨c, hc, rfl⟩
  have hdates : waiting.IsTeardown → s.Dates meant := h.dated.call id _ hcall
  refine h.keep (h.wired.advance_resume hcall hidle rfl rfl (fun k => Table.lookup_insert_eq) rfl
    (fun call' hcall' => ?_) ?_) (keeps_resume hcall hstarted
      (fun hkind => ⟨_, rfl, hconnecting hkind⟩) fun hkind => ?_) Iff.rfl rfl ?_ ?_
  · obtain rfl := Option.some.inj hcall'
    exact ⟨hstarted, hfresh⟩
  · cases command with
    | none => exact Or.inl rfl
    | some c =>
      cases hc : c.isConnect with
      | false => exact Or.inl (by simp [askers, hc])
      | true => exact Or.inr ⟨by simp [askers, hc], _, rfl, hasks c rfl hc⟩
  · obtain hkept | rfl := hteardown hkind
    · exact Or.inl ⟨_, rfl, hkept⟩
    · exact Or.inr ⟨_, List.mem_singleton_self _, rfl⟩
  · intro issued hmem hends
    obtain ⟨c, hc, rfl⟩ := hissued issued hmem
    obtain htears | ⟨-, hnone⟩ := hdated
    · exact hdates htears
    · exact absurd (hends.symm.trans (hnone c hc)) nofun
  · intro call' hcall' hends
    obtain rfl := Option.some.inj hcall'
    exact hdates (hdated.resolve_right fun hnot => hnot.1 hends)

/-- A call that has nothing left to do. -/
theorem Inv.finish (h : s.Inv) {waiting : Waiting} {meant : ℕ}
    (hcall : s.calls.lookup id = some ⟨waiting, meant⟩) (hconnecting : ¬waiting.IsConnecting)
    (hteardown : ¬waiting.IsTeardown) : (s.finish id).Inv := by
  refine h.keep (h.wired.advance_resume hcall (fun hasks => hconnecting hasks.isConnecting) rfl rfl
    (fun k => Table.lookup_erase_eq) (List.append_nil _).symm nofun (Or.inl rfl))
    (keeps_resume hcall (fun hstarted => hconnecting hstarted.isConnecting)
      (fun hkind => absurd hkind hconnecting) fun hkind => absurd hkind hteardown)
    Iff.rfl rfl (fun _ hmem => absurd hmem List.not_mem_nil) nofun

theorem Inv.attemptFailed (h : s.Inv) {meant : ℕ} {streamer : DiscoveredStreamer}
    {mode : ConnectionMode} {retries : ℕ} {answer : Outcome}
    (hcall : s.calls.lookup id = some ⟨.connect streamer mode retries (some answer), meant⟩)
    (hanswer : answer ≠ .ok) (terminal : Bool)
    (hok : terminal = true ∨ retries = 0 → ¬s.HoldsReturned) :
    (s.attemptFailed id meant streamer mode retries terminal).Inv := by
  have hstarted : ¬(Waiting.connect streamer mode retries (some answer)).IsStarted := by
    cases answer with
    | ok => exact absurd rfl hanswer
    | refused terminal => exact not_false
    | lost terminal => exact not_false
  cases terminal with
  | true => exact h.connectFailed hcall not_false hstarted (hok (Or.inl rfl)) true
  | false =>
    cases retries with
    | zero => exact h.connectFailed hcall not_false hstarted (hok (Or.inr rfl)) false
    | succ retries =>
      have hnext := h.wait hcall (.retry streamer mode retries) not_false hstarted
        not_false none nofun (fun _ => trivial) False.elim (Or.inr ⟨not_false, nofun⟩)
      dsimp only [Option.map_none, Option.toList_none] at hnext
      rw [List.append_nil] at hnext
      exact hnext

theorem Inv.endGrace (h : s.Inv) {meant : ℕ} {retainedStreamer : Option DiscoveredStreamer}
    {forgetStreamer : Bool}
    (hcall : s.calls.lookup id = some ⟨.grace retainedStreamer forgetStreamer, meant⟩) :
    (s.endGrace id meant retainedStreamer forgetStreamer).Inv := by
  have ha : s.Advance (s.endGrace id meant retainedStreamer forgetStreamer) id none
      [⟨id, .killPlayback, meant⟩] :=
    h.wired.advance_resume hcall not_false rfl rfl (fun k => Table.lookup_erase_eq) rfl nofun
      (Or.inl rfl)
  refine h.hide ha (not_shows_of_none rfl) rfl
    (fun _ => Or.inl (Or.inr ⟨_, List.mem_append_right _ List.mem_cons_self, rfl⟩)) ?_ nofun
  intro command hmem _
  rw [List.mem_singleton.mp hmem]
  exact (h.dated.call id _ hcall trivial).1

theorem Inv.resume (h : s.Inv) (id : ℕ) (hok : s.Reckons (.resume id)) : (s.resume id).Inv := by
  unfold ConnectionScreen.resume
  cases hcall : s.calls.lookup id with
  | none => exact h
  | some call =>
    obtain ⟨waiting, meant⟩ := call
    have hwell := hok _ hcall
    cases waiting with
    | connect streamer mode retries answer =>
      cases answer with
      | none => exact h
      | some answer =>
        cases answer with
        | ok => exact h.connectSucceeded hcall trivial streamer mode
        | refused terminal => exact h.attemptFailed hcall nofun terminal hwell
        | lost terminal => exact h.attemptFailed hcall nofun terminal hwell
    | retry streamer mode retries =>
      exact h.wait hcall (.connect streamer mode retries none) not_false not_false
        not_false (some (.connectToStreamer streamer.ip mode)) (fun _ _ _ => trivial)
        (fun _ => trivial) False.elim (Or.inr ⟨not_false, fun c hc => by cases hc; rfl⟩)
    | disconnect retainedStreamer forgetStreamer answered =>
      cases answered with
      | false => exact h
      | true =>
        have hnext := h.wait hcall (.grace retainedStreamer forgetStreamer) not_false not_false
          not_false none nofun False.elim
          (fun _ => Or.inl trivial) (Or.inl trivial)
        dsimp only [Option.map_none, Option.toList_none] at hnext
        rw [List.append_nil] at hnext
        exact hnext
    | grace retainedStreamer forgetStreamer => exact h.endGrace hcall
    | notify streamer answered =>
      cases answered with
      | false => exact h
      | true =>
        exact h.wait hcall (.kill streamer false) not_false not_false not_false
          (some .killPlayback) (fun c hc hconnect => by cases hc; cases hconnect) False.elim
          (fun _ => Or.inr rfl) (Or.inl trivial)
    | kill streamer answered =>
      cases answered with
      | false => cases streamer with
        | none => exact h
        | some streamer => exact h
      | true =>
        cases streamer with
        | none => exact h.finish hcall not_false not_false
        | some streamer =>
          exact h.wait hcall (.recovery false) not_false not_false not_false
            (some (.startLinkRecovery streamer.ip))
            (fun c hc hconnect => by cases hc; cases hconnect) False.elim False.elim
            (Or.inr ⟨not_false, fun c hc => by cases hc; rfl⟩)
    | recovery answered =>
      cases answered with
      | false => exact h
      | true => exact h.finish hcall not_false not_false

end ConnectionScreen

end Gemacast.Phone
