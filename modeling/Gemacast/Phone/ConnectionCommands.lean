import Gemacast.Phone.ConnectionInvariant

/-!
# The native side keeps the invariant

The native side takes a command off the queue, and the call that waits for it learns of the
outcome; nothing that is shown changes.
-/

namespace Gemacast.Phone

open Gemacast.Core
open Gemacast.Streamer (DeviceId)

namespace ConnectionScreen

variable {s s' : ConnectionScreen} {id : ℕ} {next : Option ConnectionCall}
  {issued : List IssuedCommand} {call : ConnectionCall}

/-! ### The native side executes -/

/-- A command is taken off the queue, and the call it belongs to learns of it. -/
structure Executed (s s' : ConnectionScreen) (command : IssuedCommand) (rest : List IssuedCommand)
    (session : Option ℕ) (change : Waiting → Waiting) : Prop where
  first : s.queue = command :: rest
  queue : s'.queue = rest
  session : s'.session = session
  store : s'.store = s.store
  connects : s'.connects = s.connects
  names : s'.nextCall = s.nextCall
  calls : ∀ k, s'.calls.lookup k = (s.calls.lookup k).map fun call =>
    if k = command.caller then { call with waiting := change call.waiting } else call

variable {command : IssuedCommand} {rest : List IssuedCommand} {session : Option ℕ}
  {change : Waiting → Waiting}

theorem executed_execute (hqueue : s.queue = command :: rest) (outcome : Outcome) :
    s.Executed (s.execute outcome) command rest
      (command.command.run command.caller outcome s.session)
      fun waiting => waiting.answer command.command outcome := by
  have hsame : ∀ k, s.calls.lookup command.caller = none → s.calls.lookup k =
      (s.calls.lookup k).map fun call => if k = command.caller then
        { call with waiting := call.waiting.answer command.command outcome } else call := by
    intro k hnone
    by_cases hk : k = command.caller
    · rw [hk, hnone]
      rfl
    · simp only [if_neg hk, Option.map_id']
  unfold execute
  rw [hqueue]
  dsimp only
  cases hcall : s.calls.lookup command.caller with
  | none => exact ⟨hqueue, rfl, rfl, rfl, rfl, rfl, fun k => hsame k hcall⟩
  | some call =>
    refine ⟨hqueue, rfl, rfl, rfl, rfl, rfl, fun k => Table.lookup_insert_eq.trans ?_⟩
    by_cases hk : k = command.caller
    · rw [if_pos hk, hk, hcall, Option.map_some, if_pos rfl]
    · simp only [if_neg hk, Option.map_id']

/-- What the calls of a kind do not learn leaves them of that kind. -/
theorem Executed.exists_call (he : s.Executed s' command rest session change)
    {kind : Waiting → Prop} (hkind : ∀ waiting, kind (change waiting) ↔ kind waiting) {k : ℕ} :
    (∃ call, s'.calls.lookup k = some call ∧ kind call.waiting) ↔
      ∃ call, s.calls.lookup k = some call ∧ kind call.waiting := by
  rw [he.calls]
  cases s.calls.lookup k with
  | none => simp
  | some call =>
    by_cases hk : k = command.caller
    · simp [hk, hkind]
    · simp [hk]

theorem Executed.has_iff (he : s.Executed s' command rest session change) {kind : Waiting → Prop}
    (hkind : ∀ waiting, kind (change waiting) ↔ kind waiting) : s'.Has kind ↔ s.Has kind :=
  exists_congr fun _ => he.exists_call hkind

theorem Executed.lookup_eq_none (he : s.Executed s' command rest session change) {k : ℕ} :
    s'.calls.lookup k = none ↔ s.calls.lookup k = none := by
  rw [he.calls, Option.map_eq_none_iff]

theorem Executed.call_lt (he : s.Executed s' command rest session change) (h : s.Wired) (k : ℕ)
    (call : ConnectionCall) (hcall : s'.calls.lookup k = some call) : k < s'.nextCall := by
  cases hcall' : s.calls.lookup k with
  | none =>
    rw [he.lookup_eq_none.mpr hcall'] at hcall
    nomatch hcall
  | some call' => exact he.names ▸ h.call_lt k call' hcall'

/-- What is left on its way was on its way. -/
theorem Executed.askers_eq (he : s.Executed s' command rest session change) :
    askers s.queue = (if command.command.isConnect then [command.caller] else []) ++
      askers s'.queue := by
  rw [he.first, he.queue]
  unfold askers
  rw [List.filter_cons]
  split
  · rfl
  · rfl

theorem Executed.dated (he : s.Executed s' command rest session change) (h : s.Dated)
    (hteardown : ∀ waiting, (change waiting).IsTeardown ↔ waiting.IsTeardown) : s'.Dated where
  command issued hmem hends := by
    have hmem' : issued ∈ s.queue := by
      rw [he.queue] at hmem
      exact he.first ▸ List.mem_cons_of_mem _ hmem
    exact (h.command issued hmem' hends).of_hidden he.connects fun hshows => he.store ▸ hshows
  call k call hcall hends := by
    rw [he.calls, Option.map_eq_some_iff] at hcall
    obtain ⟨call', hcall', rfl⟩ := hcall
    have hmeant : s.Dates call'.meant := by
      refine h.call k call' hcall' ?_
      split at hends
      · exact (hteardown _).mp hends
      · exact hends
    have hdates := hmeant.of_hidden he.connects fun hshows => he.store ▸ hshows
    split
    · exact hdates
    · exact hdates

/-- No connect is executed: the calls stay as they are wired. -/
theorem Executed.wired (he : s.Executed s' command rest session change) (h : s.Wired)
    (hcommand : command.command.isConnect = false)
    (hasks : ∀ waiting, (change waiting).Asks ↔ waiting.Asks)
    (hstarted : ∀ waiting, (change waiting).IsStarted ↔ waiting.IsStarted)
    (hsession : session = s.session ∨ session = none ∧ ¬s.Has Waiting.IsStarted) : s'.Wired := by
  have haskers : askers s.queue = askers s'.queue := by
    rw [he.askers_eq, hcommand]
    rfl
  have hkept : ∀ k, s'.session = some k → s.session = some k := by
    intro k hk
    rw [he.session] at hk
    obtain rfl | ⟨rfl, -⟩ := hsession
    · exact hk
    · nomatch hk
  refine ⟨he.call_lt h, fun k hk => he.names ▸ h.session_lt k (hkept k hk), ?_, ?_, ?_,
    haskers ▸ h.once⟩
  · intro k call hk hcall
    rw [he.calls, Option.map_eq_some_iff] at hcall
    obtain ⟨call', hcall', rfl⟩ := hcall
    have howner := h.owner k call' (hkept k hk) hcall'
    split
    · exact (hstarted _).mpr howner
    · exact howner
  · intro hhas
    have hhas' := (he.has_iff hstarted).mp hhas
    obtain rfl | ⟨-, hnone⟩ := hsession
    · rw [he.session]
      exact h.started hhas'
    · exact absurd hhas' hnone
  · intro k hk
    exact (he.exists_call hasks).mpr (h.asked k (haskers ▸ hk))

/-- The session stays: a command that was to end it found none. -/
theorem Executed.backed_of_kept (he : s.Executed s' command rest session change) (h : s.Backed)
    (hconnecting : ∀ waiting, (change waiting).IsConnecting ↔ waiting.IsConnecting)
    (hteardown : ∀ waiting, (change waiting).IsTeardown ↔ waiting.IsTeardown)
    (hsession : session = s.session)
    (hkill : command.command = .killPlayback → s.session = none) : s'.Backed where
  shows hshows := by
    rw [he.session, hsession]
    exact (h.shows (he.store ▸ hshows)).imp_right (he.has_iff hconnecting).mpr
  holds := by
    rintro ⟨k, hk, hcall⟩
    rw [he.session, hsession] at hk
    obtain hshows | htears | hhas := h.holds ⟨k, hk, he.lookup_eq_none.mp hcall⟩
    · exact Or.inl (he.store.symm ▸ hshows)
    · obtain hhas | ⟨issued, hmem, hends⟩ := htears
      · exact Or.inr (Or.inl (Or.inl ((he.has_iff hteardown).mpr hhas)))
      · rw [he.first] at hmem
        obtain rfl | hmem := List.mem_cons.mp hmem
        · rw [hkill hends] at hk
          nomatch hk
        · exact Or.inr (Or.inl (Or.inr ⟨issued, he.queue.symm ▸ hmem, hends⟩))
    · exact Or.inr (Or.inr ((he.has_iff hconnecting).mpr hhas))

/-- The session is ended, and was not shown. -/
theorem Executed.backed_of_ended (he : s.Executed s' command rest session change) (h : s.Backed)
    (hconnecting : ∀ waiting, (change waiting).IsConnecting ↔ waiting.IsConnecting)
    (hsession : session = none) (hhidden : s.session.isSome = true → ¬s.store.Shows) :
    s'.Backed where
  shows hshows := by
    have hshows' : s.store.Shows := he.store ▸ hshows
    refine Or.inr ((he.has_iff hconnecting).mpr ?_)
    exact (h.shows hshows').resolve_left fun hsome => hhidden hsome hshows'
  holds := by
    rintro ⟨k, hk, -⟩
    rw [he.session, hsession] at hk
    nomatch hk

/-- Another call than the one that waits for the connect learns of nothing. -/
theorem Executed.lookup_of_ne (he : s.Executed s' command rest session change) {k : ℕ}
    (hk : k ≠ command.caller) : s'.calls.lookup k = s.calls.lookup k := by
  rw [he.calls]
  simp only [if_neg hk, Option.map_id']

theorem Executed.lookup_caller (he : s.Executed s' command rest session change)
    (hcall : s.calls.lookup command.caller = some call) : s'.calls.lookup command.caller =
      some { call with waiting := change call.waiting } := by
  rw [he.calls, hcall, Option.map_some, if_pos rfl]

/-- A connect is executed: the call that waits for it learns of it. -/
theorem Executed.wired_connect (he : s.Executed s' command rest session change) (h : s.Wired)
    (hcommand : command.command.isConnect = true)
    (hasks : ∀ waiting, waiting.Asks →
      ((change waiting).IsStarted ↔ session = some command.caller))
    (hsession : session = some command.caller ∨ session = s.session ∨
      session = none ∧ ¬s.Has Waiting.IsStarted) : s'.Wired := by
  have haskers : askers s.queue = command.caller :: askers s'.queue := by
    rw [he.askers_eq, hcommand]
    rfl
  have honce : command.caller ∉ askers s'.queue ∧ (askers s'.queue).Nodup := by
    have honce := h.once
    rw [haskers] at honce
    exact List.nodup_cons.mp honce
  obtain ⟨call, hcall, hwaits⟩ := h.asked command.caller (haskers ▸ List.mem_cons_self)
  have hlearns := hasks call.waiting hwaits
  have hidle : s.session ≠ some command.caller := fun hid =>
    (h.owner _ call hid hcall).not_asks hwaits
  refine ⟨he.call_lt h, ?_, ?_, ?_, ?_, honce.2⟩
  · intro k hk
    rw [he.names]
    rw [he.session] at hk
    obtain rfl | rfl | ⟨rfl, -⟩ := hsession
    · exact Option.some.inj hk ▸ h.call_lt _ call hcall
    · exact h.session_lt k hk
    · nomatch hk
  · intro k call' hk hcall'
    rw [he.session] at hk
    by_cases hid : k = command.caller
    · rw [hid, he.lookup_caller hcall] at hcall'
      obtain rfl := Option.some.inj hcall'
      exact hlearns.mpr (hid ▸ hk)
    · rw [he.lookup_of_ne hid] at hcall'
      obtain rfl | rfl | ⟨rfl, -⟩ := hsession
      · exact absurd (Option.some.inj hk).symm hid
      · exact h.owner k call' hk hcall'
      · nomatch hk
  · rintro ⟨k, call', hcall', hstarted⟩
    rw [he.session]
    by_cases hid : k = command.caller
    · rw [hid, he.lookup_caller hcall] at hcall'
      obtain rfl := Option.some.inj hcall'
      rw [hlearns.mp hstarted]
      rfl
    · rw [he.lookup_of_ne hid] at hcall'
      obtain rfl | rfl | ⟨rfl, hnone⟩ := hsession
      · rfl
      · exact h.started ⟨k, call', hcall', hstarted⟩
      · exact absurd ⟨k, call', hcall', hstarted⟩ hnone
  · intro k hk
    have hid : k ≠ command.caller := fun hid => honce.1 (hid ▸ hk)
    rw [he.lookup_of_ne hid]
    exact h.asked k (haskers ▸ List.mem_cons_of_mem _ hk)

theorem Inv.execute_connect (h : s.Inv) {ip : String} {mode : ConnectionMode}
    (hqueue : s.queue = command :: rest) (hcommand : command.command = .connectToStreamer ip mode)
    {outcome : Outcome} (hok : s.Spares command outcome) : (s.execute outcome).Inv := by
  have he := executed_execute hqueue outcome
  have hconnect : command.command.isConnect = true := by
    rw [hcommand]
    rfl
  have hwaits : command.caller ∈ askers s.queue := by
    rw [he.askers_eq, hconnect]
    exact List.mem_cons_self
  obtain ⟨call, hcall, hasks⟩ := h.wired.asked _ hwaits
  have hconnecting : (s.execute outcome).Has Waiting.IsConnecting :=
    ⟨_, _, he.lookup_caller hcall, Waiting.isConnecting_answer.mpr hasks.isConnecting⟩
  have hidle : s.session ≠ some command.caller := fun hid =>
    (h.wired.owner _ call hid hcall).not_asks hasks
  have hsession : (command.command.run command.caller outcome s.session = some command.caller ↔
        outcome = .ok) ∧
      (command.command.run command.caller outcome s.session = some command.caller ∨
        command.command.run command.caller outcome s.session = s.session ∨
        command.command.run command.caller outcome s.session = none ∧
          ¬s.Has Waiting.IsStarted) := by
    unfold Spares at hok
    rw [hcommand] at hok ⊢
    cases outcome with
    | ok => exact ⟨⟨fun _ => rfl, fun _ => rfl⟩, Or.inl rfl⟩
    | refused terminal => exact ⟨⟨fun hid => absurd hid hidle, nofun⟩, Or.inr (Or.inl rfl)⟩
    | lost terminal => exact ⟨⟨nofun, nofun⟩, Or.inr (Or.inr ⟨rfl, hok⟩)⟩
  exact ⟨he.wired_connect h.wired hconnect
      (fun waiting hasks => (hasks.isStarted_answer hconnect).trans hsession.1.symm) hsession.2,
    ⟨fun _ => Or.inr hconnecting, fun _ => Or.inr (Or.inr hconnecting)⟩,
    he.dated h.dated fun _ => Waiting.isTeardown_answer⟩

/-- Another command is executed. -/
theorem Inv.execute_other (h : s.Inv) (hqueue : s.queue = command :: rest)
    (hcommand : command.command.isConnect = false) {outcome : Outcome}
    (hok : s.Spares command outcome) : (s.execute outcome).Inv := by
  have he := executed_execute hqueue outcome
  have hmem : command ∈ s.queue := hqueue ▸ List.mem_cons_self
  have hanswer : ∀ waiting : Waiting,
      ((waiting.answer command.command outcome).Asks ↔ waiting.Asks) ∧
        ((waiting.answer command.command outcome).IsStarted ↔ waiting.IsStarted) :=
    fun _ => Waiting.answer_of_not_connect hcommand
  have hdated := he.dated h.dated fun _ => Waiting.isTeardown_answer
  have hkept : command.command.run command.caller outcome s.session = s.session →
      (command.command = .killPlayback → s.session = none) → (s.execute outcome).Inv := by
    intro hsession hkill
    exact ⟨he.wired h.wired hcommand (fun w => (hanswer w).1) (fun w => (hanswer w).2)
      (Or.inl hsession), he.backed_of_kept h.backed (fun _ => Waiting.isConnecting_answer)
      (fun _ => Waiting.isTeardown_answer) hsession hkill, hdated⟩
  have hended : command.command.isTeardown = true →
      command.command.run command.caller outcome s.session = none →
      (s.session.isSome = true → command.meant = s.connects ∧ ¬s.Has Waiting.IsStarted) →
      (s.execute outcome).Inv := by
    intro hteardown hsession hmeant
    refine ⟨he.wired h.wired hcommand (fun w => (hanswer w).1) (fun w => (hanswer w).2)
      (Or.inr ⟨hsession, fun hhas => (hmeant (h.wired.started hhas)).2 hhas⟩),
      he.backed_of_ended h.backed (fun _ => Waiting.isConnecting_answer) hsession ?_, hdated⟩
    exact fun hsome => (h.dated.command command hmem hteardown).2 (hmeant hsome).1
  unfold Spares at hok
  cases hname : command.command with
  | connectToStreamer ip mode =>
    rw [hname] at hcommand
    exact absurd hcommand nofun
  | disconnectFromStreamer ip =>
    rw [hname] at hok hkept hended
    cases outcome with
    | ok => exact hended rfl rfl hok
    | refused terminal => exact hkept rfl nofun
    | lost terminal => exact hended rfl rfl hok
  | killPlayback =>
    rw [hname] at hok hkept hended
    cases outcome with
    | ok => exact hended rfl rfl hok
    | refused terminal => exact hkept rfl fun _ => hok
    | lost terminal => exact hended rfl rfl hok
  | notifyStreamingStopped =>
    rw [hname] at hkept
    cases outcome with
    | ok => exact hkept rfl nofun
    | refused terminal => exact hkept rfl nofun
    | lost terminal => exact hkept rfl nofun
  | startLinkRecovery ip =>
    rw [hname] at hkept
    cases outcome with
    | ok => exact hkept rfl nofun
    | refused terminal => exact hkept rfl nofun
    | lost terminal => exact hkept rfl nofun

theorem Inv.execute (h : s.Inv) (outcome : Outcome) (hok : s.Reckons (.execute outcome)) :
    (s.execute outcome).Inv := by
  cases hqueue : s.queue with
  | nil =>
    rw [ConnectionScreen.execute, hqueue]
    exact h
  | cons command rest =>
    have hspares := hok command (by rw [hqueue]; rfl)
    cases hconnect : command.command.isConnect with
    | false => exact h.execute_other hqueue hconnect hspares
    | true =>
      cases hcommand : command.command with
      | connectToStreamer ip mode => exact h.execute_connect hqueue hcommand hspares
      | _ =>
        rw [hcommand] at hconnect
        exact absurd hconnect nofun

end ConnectionScreen

end Gemacast.Phone
