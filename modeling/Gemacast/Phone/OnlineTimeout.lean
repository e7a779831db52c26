import Gemacast.Phone.Discovery

/-!
# The PCs shown as online and their timeout

The screen shows a PC as online from the word of the listener until it hears that the PC has left
or has timed out. The table of the watchdog follows what the PCs tell, the screen follows what the
listener passes on: the two agree as long as no PC that is shown is dropped without a word.
-/

namespace Gemacast.Phone

open Gemacast.Core
open Gemacast.Streamer (DeviceId SocketAddr IpAddr)
open Gemacast.Control (DiscoveredDevice TransportType isLoopback audioUdpPort seconds)

/-- The PC an event is about. -/
def FrontendEvent.streamerId : FrontendEvent → Option DeviceId
  | .streamerDiscovered device => some device.deviceId
  | .streamerTimeout streamerId => some streamerId
  | .forceDisconnect => none

/-- The event shows a PC as online. -/
def FrontendEvent.showsOnline : FrontendEvent → Bool
  | .streamerDiscovered device => !device.isOffline
  | _ => false

/-- The event is about this PC. -/
def FrontendEvent.isAbout (id : DeviceId) (event : FrontendEvent) : Bool :=
  decide (event.streamerId = some id)

/-- The last event about the PC shows it as online. -/
def Shown (id : DeviceId) (sent : List FrontendEvent) : Prop :=
  ∃ event, (sent.filter (FrontendEvent.isAbout id)).getLast? = some event ∧
    event.showsOnline = true

/-- An event about the PC decides, the others leave it as it was. -/
theorem shown_concat {id : DeviceId} (sent : List FrontendEvent) (event : FrontendEvent) :
    Shown id (sent ++ [event]) ↔
      if event.isAbout id then event.showsOnline = true else Shown id sent := by
  unfold Shown
  rw [List.filter_append]
  cases habout : event.isAbout id with
  | true =>
    rw [if_pos rfl, List.filter_cons_of_pos habout, List.filter_nil, List.getLast?_concat]
    exact ⟨fun ⟨_, hlast, hshows⟩ => Option.some.inj hlast ▸ hshows,
      fun hshows => ⟨event, rfl, hshows⟩⟩
  | false =>
    rw [if_neg Bool.false_ne_true, List.filter_cons_of_neg (Bool.not_eq_true _ ▸ habout),
      List.filter_nil, List.append_nil]

/-- A step of the listener, of the watchdog or of the time. -/
abbrev DiscoveryEvent := Event DiscoveryListener DiscoveryInput (Option FrontendEvent)

/-- What the screen was told. -/
def sent (h : List DiscoveryEvent) : List FrontendEvent := h.filterMap Event.output

theorem sent_concat (h : List DiscoveryEvent) (e : DiscoveryEvent) :
    sent (h ++ [e]) = sent h ++ e.output.toList := by
  unfold sent
  rw [List.filterMap_append]
  cases houtput : e.output <;> simp [houtput]

namespace DiscoveryListener

/-- A presence of the PC was handled that tells it is online. -/
def HearsOnline (id : DeviceId) (e : DiscoveryEvent) : Prop :=
  ∃ streamerName transport addr isUsbTetherIp,
    e.input = .dispatch (.presence id streamerName false transport) addr isUsbTetherIp

/-- The PC was not heard online during the timeout before `now`. -/
def SilentAt (h : List DiscoveryEvent) (id : DeviceId) (now : ℕ) : Prop :=
  ∀ d ∈ h, HearsOnline id d → d.before.now + seconds streamerHeartbeatTimeoutSecs ≤ now

/-- A tick starts with its look at the table. -/
def Snapshots (e : DiscoveryEvent) : Prop := e.before.eviction = none ∧ e.after.eviction ≠ none

/-- A tick ends with the removal. -/
def Removes (e : DiscoveryEvent) : Prop := e.before.eviction ≠ none ∧ e.after.eviction = none

/-- The PCs shown as online are in the table. -/
def Tracked (h : List DiscoveryEvent) (s : DiscoveryListener) : Prop :=
  ∀ id, Shown id (sent h) → id ∈ s.context.streamerLastSeen

/-- A tick reports every PC that is shown as online and silent when the tick starts. -/
def Reported (h : List DiscoveryEvent) : Prop :=
  ∀ pre snapshot mid removal post, h = pre ++ snapshot :: mid ++ removal :: post →
    Snapshots snapshot → (∀ e ∈ mid, e.after.eviction ≠ none) → Removes removal →
    ∀ id, Shown id (sent pre) → SilentAt pre id snapshot.before.now →
      .streamerTimeout id ∈ sent mid

/-- The PC was silent at the start of the tick that is under way. -/
def DueAt (h : List DiscoveryEvent) (id : DeviceId) : Prop :=
  ∃ pre snapshot mid, h = pre ++ snapshot :: mid ∧ Snapshots snapshot ∧
    (∀ e ∈ mid, e.after.eviction ≠ none) ∧ SilentAt pre id snapshot.before.now

/-- A timeout is reported only of a PC that was silent at the start of the tick. -/
def Justified (h : List DiscoveryEvent) : Prop :=
  ∀ pre e post id, h = pre ++ e :: post → e.output = some (.streamerTimeout id) → DueAt pre id

/-- The step drops no PC that is shown as online: no presence of a PC that leaves is kept from
the screen by the mode, and no removal drops a PC that has been shown since it was reported. -/
def DropsUnshown (mode : ConnectionMode) (h : List DiscoveryEvent) (e : DiscoveryEvent) : Prop :=
  match e.input with
  | .dispatch (.presence id _ true transport) addr isUsbTetherIp =>
    DispatchContext.accepts mode (DispatchContext.isUsb transport isUsbTetherIp)
      { addr with port := audioUdpPort } = false → ¬Shown id (sent h)
  | .remove => ∀ stale, e.before.eviction = some ⟨stale, []⟩ → ∀ id ∈ stale, ¬Shown id (sent h)
  | _ => True

variable {mode : ConnectionMode} {h : List DiscoveryEvent} {s : DiscoveryListener} {id : DeviceId}

/-! ### The entries and what was heard -/

/-- The entries of the table are the times at which the PCs were last heard online. -/
structure Timed (h : List DiscoveryEvent) (s : DiscoveryListener) : Prop where
  past : ∀ d ∈ h, d.before.now ≤ s.now
  heard : ∀ id ts, s.context.streamerLastSeen.lookup id = some ts →
    ∃ d ∈ h, HearsOnline id d ∧ d.before.now = ts
  latest : ∀ id ts, s.context.streamerLastSeen.lookup id = some ts →
    ∀ d ∈ h, HearsOnline id d → d.before.now ≤ ts

/-- A PC in the table is silent exactly if its entry is old. -/
theorem Timed.silentAt_iff (ht : Timed h s) {ts : ℕ}
    (hts : s.context.streamerLastSeen.lookup id = some ts) :
    SilentAt h id s.now ↔ seconds streamerHeartbeatTimeoutSecs ≤ s.now - ts := by
  obtain ⟨d, hd, hears, rfl⟩ := ht.heard id ts hts
  have hpast := ht.past d hd
  constructor
  · intro hsilent
    have hold := hsilent d hd hears
    omega
  · intro hold d' hd' hears'
    have hlatest := ht.latest id _ hts d' hd' hears'
    omega

/-- What a step changes in the table: a PC that was heard online has its time, the other entries
are those before it. -/
theorem lookup_step (s : DiscoveryListener) (i : DiscoveryInput) {ts : ℕ}
    (hts : (s.step mode i).1.context.streamerLastSeen.lookup id = some ts) :
    HearsOnline id ((machine mode).eventAt s i) ∧ ts = s.now ∨
      ¬HearsOnline id ((machine mode).eventAt s i) ∧
        s.context.streamerLastSeen.lookup id = some ts := by
  cases i with
  | elapse duration => exact Or.inr ⟨nofun, hts⟩
  | dispatch message addr isUsbTetherIp =>
    cases message with
    | presence deviceId streamerName isOffline transport =>
      have hlookup := (DispatchContext.lookup_track isOffline).symm.trans
        ((congrArg _ (DispatchContext.streamerLastSeen_handlePresence _ _ _ _ _ _)).symm.trans hts)
      by_cases hid : id = deviceId
      · subst hid
        rw [if_pos rfl] at hlookup
        cases isOffline with
        | true => exact absurd hlookup nofun
        | false =>
          refine Or.inl ⟨⟨streamerName, transport, addr, isUsbTetherIp, rfl⟩, ?_⟩
          exact (Option.some.inj hlookup).symm
      · rw [if_neg hid] at hlookup
        refine Or.inr ⟨?_, hlookup⟩
        rintro ⟨_, _, _, _, heq⟩
        cases heq
        exact hid rfl
    | disconnect deviceId => exact Or.inr ⟨nofun, hts⟩
    | other => exact Or.inr ⟨nofun, hts⟩
  | snapshot order =>
    refine Or.inr ⟨nofun, ?_⟩
    unfold step at hts
    dsimp only at hts
    repeat' split at hts
    all_goals exact hts
  | notify =>
    refine Or.inr ⟨nofun, ?_⟩
    unfold step at hts
    dsimp only at hts
    split at hts
    all_goals exact hts
  | remove =>
    refine Or.inr ⟨nofun, ?_⟩
    unfold step at hts
    dsimp only at hts
    split at hts
    · next stale _ =>
      rw [DispatchContext.lookup_remove] at hts
      split at hts
      · exact absurd hts nofun
      · exact hts
    · exact hts

theorem now_le_step (s : DiscoveryListener) (i : DiscoveryInput) :
    s.now ≤ (s.step mode i).1.now := by
  cases i with
  | elapse duration => exact Nat.le_add_right _ _
  | dispatch message addr isUsbTetherIp => exact le_refl _
  | snapshot order =>
    unfold step
    dsimp only
    repeat' split
    all_goals exact le_refl _
  | notify =>
    unfold step
    dsimp only
    split
    all_goals exact le_refl _
  | remove =>
    unfold step
    dsimp only
    split
    all_goals exact le_refl _

/-- Every step keeps the entries at these times. -/
theorem Timed.step (ht : Timed h s) (i : DiscoveryInput) :
    Timed (h ++ [(machine mode).eventAt s i]) (s.step mode i).1 := by
  have hmono : s.now ≤ (s.step mode i).1.now := now_le_step s i
  refine ⟨?_, ?_, ?_⟩
  · intro d hd
    obtain hd | hd := List.mem_append.mp hd
    · exact (ht.past d hd).trans hmono
    · obtain rfl := List.mem_singleton.mp hd
      exact hmono
  · intro id ts hts
    obtain ⟨hears, rfl⟩ | ⟨-, hbefore⟩ := lookup_step s i hts
    · exact ⟨_, List.mem_append_right _ List.mem_cons_self, hears, rfl⟩
    · obtain ⟨d, hd, hheard⟩ := ht.heard id ts hbefore
      exact ⟨d, List.mem_append_left _ hd, hheard⟩
  · intro id ts hts d hd hears
    obtain ⟨-, rfl⟩ | ⟨hquiet, hbefore⟩ := lookup_step s i hts
    · obtain hd | hd := List.mem_append.mp hd
      · exact ht.past d hd
      · obtain rfl := List.mem_singleton.mp hd
        exact le_refl _
    · obtain hd | hd := List.mem_append.mp hd
      · exact ht.latest id ts hbefore d hd hears
      · obtain rfl := List.mem_singleton.mp hd
        exact absurd hears hquiet

/-! ### The ticks -/

/-- A tick starts with the PCs whose entries are old. -/
theorem snapshots_step {i : DiscoveryInput} (h : Snapshots ((machine mode).eventAt s i)) :
    ∃ order, (s.step mode i).1.eviction =
      some ⟨s.context.staleStreamers order s.now, s.context.staleStreamers order s.now⟩ := by
  obtain ⟨hbefore, hafter⟩ := h
  change s.eviction = none at hbefore
  change (s.step mode i).1.eviction ≠ none at hafter
  cases i with
  | elapse duration => exact absurd hbefore hafter
  | dispatch message addr isUsbTetherIp => exact absurd hbefore hafter
  | snapshot order =>
    refine ⟨order, ?_⟩
    unfold step at hafter ⊢
    dsimp only at hafter ⊢
    rw [hbefore] at hafter ⊢
    dsimp only at hafter ⊢
    split
    · next hadb =>
      rw [if_pos hadb] at hafter
      exact absurd hbefore hafter
    · rfl
  | notify =>
    unfold step at hafter
    dsimp only at hafter
    rw [hbefore] at hafter
    exact absurd hbefore hafter
  | remove =>
    unfold step at hafter
    dsimp only at hafter
    rw [hbefore] at hafter
    exact absurd hbefore hafter

/-- As long as a tick is under way its PCs are left to be told of, or told of. -/
theorem eviction_step {i : DiscoveryInput} {stale left : List DeviceId}
    (hs : s.eviction = some ⟨stale, left⟩) (h : (s.step mode i).1.eviction ≠ none) :
    ∃ left', (s.step mode i).1.eviction = some ⟨stale, left'⟩ ∧ left' ⊆ left ∧
      ∀ id ∈ left, id ∈ left' ∨ (s.step mode i).2 = some (.streamerTimeout id) := by
  have hstays : (s.step mode i).1.eviction = s.eviction →
      ∃ left', (s.step mode i).1.eviction = some ⟨stale, left'⟩ ∧ left' ⊆ left ∧
        ∀ id ∈ left, id ∈ left' ∨ (s.step mode i).2 = some (.streamerTimeout id) := fun hsame =>
    ⟨left, hsame.trans hs, List.Subset.refl _, fun _ hid => Or.inl hid⟩
  cases i with
  | elapse duration => exact hstays rfl
  | dispatch message addr isUsbTetherIp => exact hstays rfl
  | snapshot order =>
    refine hstays ?_
    unfold step
    dsimp only
    rw [hs]
    exact hs
  | notify =>
    unfold step
    dsimp only
    rw [hs]
    cases left with
    | nil => exact ⟨[], hs, List.Subset.refl _, fun _ hid => Or.inl hid⟩
    | cons first left =>
      refine ⟨left, rfl, List.subset_cons_self _ _, fun id hid => ?_⟩
      obtain rfl | hid := List.mem_cons.mp hid
      · exact Or.inr rfl
      · exact Or.inl hid
  | remove =>
    cases left with
    | nil =>
      unfold step at h
      dsimp only at h
      rw [hs] at h
      exact absurd rfl h
    | cons first left =>
      refine hstays ?_
      unfold step
      dsimp only
      rw [hs]
      exact hs

/-- A tick ends once the screen has been told of all its PCs. -/
theorem removes_step {i : DiscoveryInput} {stale left : List DeviceId}
    (hs : s.eviction = some ⟨stale, left⟩) (h : (s.step mode i).1.eviction = none) : left = [] := by
  cases i with
  | elapse duration => exact absurd (hs.symm.trans h) nofun
  | dispatch message addr isUsbTetherIp => exact absurd (hs.symm.trans h) nofun
  | snapshot order =>
    unfold step at h
    dsimp only at h
    rw [hs] at h
    exact absurd (hs.symm.trans h) nofun
  | notify =>
    unfold step at h
    dsimp only at h
    rw [hs] at h
    cases left with
    | nil => rfl
    | cons first left => exact absurd h nofun
  | remove =>
    cases left with
    | nil => rfl
    | cons first left =>
      unfold step at h
      dsimp only at h
      rw [hs] at h
      exact absurd (hs.symm.trans h) nofun

/-- Whoever is told to have timed out was left to be told of. -/
theorem timeout_step {i : DiscoveryInput}
    (h : (s.step mode i).2 = some (.streamerTimeout id)) :
    ∃ stale left, s.eviction = some ⟨stale, left⟩ ∧ id ∈ left := by
  cases i with
  | elapse duration => exact absurd h nofun
  | dispatch message addr isUsbTetherIp =>
    cases message with
    | presence deviceId streamerName isOffline transport =>
      exact absurd (DispatchContext.event_handlePresence h) nofun
    | disconnect deviceId => exact absurd h nofun
    | other => exact absurd h nofun
  | snapshot order =>
    unfold step at h
    dsimp only at h
    repeat' split at h
    all_goals exact absurd h nofun
  | notify =>
    unfold step at h
    dsimp only at h
    split at h
    · next stale first left hs =>
      cases h
      exact ⟨stale, _, hs, List.mem_cons_self⟩
    · exact absurd h nofun
  | remove =>
    unfold step at h
    dsimp only at h
    split at h
    all_goals exact absurd h nofun

/-- During a tick the PCs it found are left to be told of, or have been told of. -/
theorem notified_from {is : List DiscoveryInput} {stale left : List DeviceId}
    (hs : s.eviction = some ⟨stale, left⟩)
    (hunder : ∀ e ∈ (machine mode).eventsFrom s is, e.after.eviction ≠ none) :
    ∃ left', ((machine mode).runFrom s is).eviction = some ⟨stale, left'⟩ ∧
      ∀ id ∈ left, id ∈ left' ∨ .streamerTimeout id ∈ sent ((machine mode).eventsFrom s is) := by
  induction is generalizing s left with
  | nil => exact ⟨left, hs, fun _ hid => Or.inl hid⟩
  | cons i is ih =>
    obtain ⟨next, hnext, -, hfirst⟩ := eviction_step hs (hunder _ List.mem_cons_self)
    obtain ⟨left', hlast, hrest⟩ := ih hnext fun e he => hunder e (List.mem_cons_of_mem _ he)
    have hsent : sent ((machine mode).eventsFrom s (i :: is)) =
        (s.step mode i).2.toList ++ sent ((machine mode).eventsFrom (s.step mode i).1 is) := by
      unfold sent
      rw [Machine.eventsFrom_cons, List.filterMap_cons]
      cases houtput : ((machine mode).eventAt s i).output with
      | none => exact congrArg (·.toList ++ _) houtput.symm
      | some event => exact congrArg (·.toList ++ _) houtput.symm
    refine ⟨left', hlast, fun id hid => ?_⟩
    rw [hsent]
    obtain hid | htold := hfirst id hid
    · exact (hrest id hid).imp_right (List.mem_append_right _)
    · rw [htold]
      exact Or.inr (List.mem_append_left _ List.mem_cons_self)

/-- What the steps before tell about a state: the entries are the times of the last presences,
and whoever is left to be told of was silent when the tick started. -/
structure Kept (h : List DiscoveryEvent) (s : DiscoveryListener) : Prop extends Timed h s where
  due : ∀ stale left, s.eviction = some ⟨stale, left⟩ → ∀ id ∈ left, DueAt h id

/-- A PC that is due stays so during the tick. -/
theorem DueAt.concat {e : DiscoveryEvent} (hdue : DueAt h id) (he : e.after.eviction ≠ none) :
    DueAt (h ++ [e]) id := by
  obtain ⟨pre, snapshot, mid, rfl, hsnapshot, hmid, hsilent⟩ := hdue
  refine ⟨pre, snapshot, mid ++ [e], by rw [List.append_assoc, List.cons_append], hsnapshot,
    fun e' he' => ?_, hsilent⟩
  obtain he' | he' := List.mem_append.mp he'
  · exact hmid e' he'
  · exact List.mem_singleton.mp he' ▸ he

/-- Every step keeps it. -/
theorem Kept.step (hk : Kept h s) (i : DiscoveryInput) :
    Kept (h ++ [(machine mode).eventAt s i]) (s.step mode i).1 := by
  refine ⟨hk.toTimed.step i, fun stale left hafter id hid => ?_⟩
  have hgoes : ((machine mode).eventAt s i).after.eviction ≠ none := by
    intro hnone
    exact absurd (hafter.symm.trans hnone) nofun
  cases hbefore : s.eviction with
  | none =>
    have hsnapshot : Snapshots ((machine mode).eventAt s i) := ⟨hbefore, hgoes⟩
    obtain ⟨order, hstale⟩ := snapshots_step hsnapshot
    cases Option.some.inj (hafter.symm.trans hstale)
    obtain ⟨ts, hts, hold⟩ := DispatchContext.mem_staleStreamers.mp hid
    have hsilent : SilentAt h id s.now := (hk.silentAt_iff hts).mpr hold
    exact ⟨h, (machine mode).eventAt s i, [], rfl, hsnapshot,
      fun e he => absurd he List.not_mem_nil, hsilent⟩
  | some eviction =>
    obtain ⟨stale', left'⟩ := eviction
    obtain ⟨next, hnext, hsubset, -⟩ := eviction_step hbefore hgoes
    cases Option.some.inj (hafter.symm.trans hnext)
    exact (hk.due _ _ hbefore id (hsubset hid)).concat hgoes

theorem kept_new : Kept [] new := by
  refine ⟨⟨?_, ?_, ?_⟩, ?_⟩
  · exact fun d hd => absurd hd List.not_mem_nil
  · exact fun id ts hts => absurd ((AList.lookup_empty id).symm.trans hts) nofun
  · exact fun id ts hts d hd => absurd hd List.not_mem_nil
  · exact fun stale left hnone => absurd hnone nofun

/-- It holds in front of every event of a run. -/
theorem kept_before {is : List DiscoveryInput} {pre post : List DiscoveryEvent} {e : DiscoveryEvent}
    (h : (machine mode).events is = pre ++ e :: post) : Kept pre e.before :=
  (machine mode).history_before (p := fun _ _ => True) kept_new (fun _ _ i hk _ => hk.step i)
    (fun _ _ _ _ => trivial) h

/-- Every timeout that is reported is justified. -/
theorem justified_events (is : List DiscoveryInput) : Justified ((machine mode).events is) := by
  intro pre e post id hsplit htimeout
  have hk := kept_before hsplit
  have he : e ∈ (machine mode).events is := hsplit ▸ List.mem_append_right _ List.mem_cons_self
  rw [(machine mode).eq_eventAt_of_mem he] at htimeout
  obtain ⟨stale, left, hs, hid⟩ := timeout_step htimeout
  exact hk.due stale left hs id hid

/-- A tick reports the PCs that are shown and silent, if those that are shown are in the table. -/
theorem reported_events {is : List DiscoveryInput}
    (htracked : ∀ pre e post, (machine mode).events is = pre ++ e :: post → Tracked pre e.before) :
    Reported ((machine mode).events is) := by
  intro pre snapshot mid removal post hsplit hsnapshot hmid hremoval id hshown hsilent
  obtain ⟨as, bs, cs, -, -, -, hfirst, hbetween, hreached, hlast⟩ :=
    (machine mode).eventsFrom_between hsplit
  rw [List.append_assoc, List.cons_append] at hsplit
  obtain ⟨ts, hts⟩ := Table.mem_iff.mp (htracked _ _ _ hsplit id hshown)
  have hold := ((kept_before hsplit).silentAt_iff hts).mp hsilent
  rw [hfirst] at hsnapshot
  obtain ⟨order, hstale⟩ := snapshots_step hsnapshot
  have hafter : snapshot.after.eviction = some
      ⟨snapshot.before.context.staleStreamers order snapshot.before.now,
        snapshot.before.context.staleStreamers order snapshot.before.now⟩ := by
    rw [congrArg Event.after hfirst]
    exact hstale
  rw [hbetween] at hmid ⊢
  obtain ⟨left, hleft, htold⟩ := notified_from hafter hmid
  rw [← hreached] at hleft
  have hnone : (removal.before.step mode removal.input).1.eviction = none := by
    have hgone := hremoval.2
    rw [congrArg Event.after hlast] at hgone
    exact hgone
  obtain rfl := removes_step hleft hnone
  exact (htold id (DispatchContext.mem_staleStreamers.mpr ⟨ts, hts, hold⟩)).resolve_left nofun

/-! ### The table and the screen -/

/-- A step that tells nothing and drops some entries leaves the screen and the table in agreement
exactly if none of these PCs is shown. -/
theorem tracked_dropped {e : DiscoveryEvent} {P : DeviceId → Prop} [DecidablePred P]
    (ht : Tracked h e.before) (hquiet : e.output = none)
    (hlookup : ∀ id, e.after.context.streamerLastSeen.lookup id =
      if P id then none else e.before.context.streamerLastSeen.lookup id) :
    Tracked (h ++ [e]) e.after ↔ ∀ id, P id → ¬Shown id (sent h) := by
  have hsent : sent (h ++ [e]) = sent h := by
    rw [sent_concat, hquiet, Option.toList_none, List.append_nil]
  unfold Tracked
  rw [hsent]
  refine forall_congr' fun id => ?_
  rw [Table.mem_iff, hlookup]
  by_cases hdropped : P id
  · rw [if_pos hdropped]
    exact ⟨fun hin _ hshown => absurd (hin hshown) nofun,
      fun hunshown hshown => absurd hshown (hunshown hdropped)⟩
  · rw [if_neg hdropped]
    exact ⟨fun _ hin => absurd hin hdropped, fun _ hshown => Table.mem_iff.mp (ht id hshown)⟩

/-- A step that drops at most a PC it tells the screen of, and does not show one that is not in
the table, leaves them in agreement. -/
theorem tracked_kept {e : DiscoveryEvent} (ht : Tracked h e.before)
    (hentries : ∀ id, id ∈ e.before.context.streamerLastSeen →
      id ∈ e.after.context.streamerLastSeen ∨ ∃ event ∈ e.output, event.isAbout id)
    (hshows : ∀ event ∈ e.output, event.showsOnline = true → ∀ id, event.isAbout id →
      id ∈ e.after.context.streamerLastSeen) : Tracked (h ++ [e]) e.after := by
  intro id hshown
  rw [sent_concat] at hshown
  cases houtput : e.output with
  | none =>
    rw [houtput, Option.toList_none, List.append_nil] at hshown
    refine (hentries id (ht id hshown)).resolve_right ?_
    rw [houtput]
    exact fun ⟨_, hnone, _⟩ => absurd hnone nofun
  | some event =>
    rw [houtput, Option.toList_some, shown_concat] at hshown
    split at hshown
    · next habout => exact hshows event houtput hshown id habout
    · next hother =>
      refine (hentries id (ht id hshown)).resolve_right ?_
      rintro ⟨event', hevent', habout⟩
      rw [houtput] at hevent'
      obtain rfl := Option.some.inj hevent'
      exact hother habout

/-- A step that leaves the table alone and shows nobody keeps them in agreement. -/
theorem tracked_quiet {e : DiscoveryEvent} (ht : Tracked h e.before)
    (hsame : e.after.context.streamerLastSeen = e.before.context.streamerLastSeen)
    (hquiet : ∀ event ∈ e.output, event.showsOnline = false) : Tracked (h ++ [e]) e.after := by
  refine tracked_kept ht (fun id hid => Or.inl (hsame ▸ hid)) fun event hevent hshows => ?_
  exact absurd (hshows.symm.trans (hquiet event hevent)) nofun

/-- A presence leaves them in agreement, unless the mode keeps from the screen that a PC leaves
that is shown. -/
theorem tracked_presence_iff (ht : Tracked h s) {deviceId : DeviceId} {streamerName : String}
    {isOffline : Bool} {transport : Option TransportType} {addr : SocketAddr}
    {isUsbTetherIp : Bool} {i : DiscoveryInput}
    (hi : i = .dispatch (.presence deviceId streamerName isOffline transport) addr isUsbTetherIp) :
    Tracked (h ++ [(machine mode).eventAt s i]) (s.step mode i).1 ↔
      DropsUnshown mode h ((machine mode).eventAt s i) := by
  have hlookup : ∀ id, (s.step mode i).1.context.streamerLastSeen.lookup id =
      if id = deviceId then (if isOffline then none else some s.now)
      else s.context.streamerLastSeen.lookup id := fun id => by
    rw [hi]
    exact (congrArg _ (DispatchContext.streamerLastSeen_handlePresence _ _ _ _ _ _)).trans
      (DispatchContext.lookup_track isOffline)
  have habout : ∀ event ∈ (s.step mode i).2, ∀ id, event.isAbout id ↔ deviceId = id := by
    intro event hevent id
    rw [hi] at hevent
    rw [DispatchContext.event_handlePresence hevent]
    exact decide_eq_true_iff.trans ⟨Option.some.inj, congrArg some⟩
  cases isOffline with
  | false =>
    have hin : ∀ id, id = deviceId ∨ id ∈ s.context.streamerLastSeen →
        id ∈ (s.step mode i).1.context.streamerLastSeen := by
      intro id hid
      rw [Table.mem_iff, hlookup]
      by_cases hsame : id = deviceId
      · exact ⟨s.now, if_pos hsame⟩
      · rw [if_neg hsame]
        exact Table.mem_iff.mp (hid.resolve_left hsame)
    refine iff_of_true (tracked_kept ht (fun id hid => Or.inl (hin id (Or.inr hid))) ?_)
      (by rw [hi]; trivial)
    exact fun event hevent _ id hid => hin id (Or.inl ((habout event hevent id).mp hid).symm)
  | true =>
    have hdrops : DropsUnshown mode h ((machine mode).eventAt s i) ↔
        ((s.step mode i).2 = none → ¬Shown deviceId (sent h)) := by
      rw [hi]
      exact imp_congr DispatchContext.event_offline.symm Iff.rfl
    rw [hdrops]
    cases houtput : (s.step mode i).2 with
    | none =>
      refine (tracked_dropped (P := fun id => id = deviceId) ht houtput hlookup).trans ?_
      exact ⟨fun hunshown _ => hunshown deviceId rfl, fun hunshown id hid => hid ▸ hunshown rfl⟩
    | some event =>
      refine iff_of_true (tracked_kept ht (fun id hid => ?_) ?_) nofun
      · by_cases hsame : id = deviceId
        · exact Or.inr ⟨event, houtput, (habout event houtput id).mpr hsame.symm⟩
        · refine Or.inl (Table.mem_iff.mpr ?_)
          obtain ⟨ts, hts⟩ := Table.mem_iff.mp hid
          exact ⟨ts, (hlookup id).trans ((if_neg hsame).trans hts)⟩
      · intro event' hevent' hshows
        rw [hi] at hevent'
        rw [DispatchContext.event_handlePresence hevent'] at hshows
        exact absurd hshows nofun

/-- A step leaves them in agreement exactly if it drops no PC that is shown. -/
theorem tracked_step_iff (ht : Tracked h s) (i : DiscoveryInput) :
    Tracked (h ++ [(machine mode).eventAt s i]) (s.step mode i).1 ↔
      DropsUnshown mode h ((machine mode).eventAt s i) := by
  cases hi : i with
  | elapse duration => exact iff_of_true (tracked_quiet ht rfl nofun) trivial
  | dispatch message addr isUsbTetherIp =>
    cases message with
    | presence deviceId streamerName isOffline transport => exact tracked_presence_iff ht rfl
    | disconnect deviceId =>
      refine iff_of_true (tracked_quiet ht rfl fun event hevent => ?_) trivial
      obtain rfl := Option.some.inj hevent
      rfl
    | other => exact iff_of_true (tracked_quiet ht rfl nofun) trivial
  | snapshot order =>
    have hsame : (s.step mode (.snapshot order)).1.context = s.context ∧
        (s.step mode (.snapshot order)).2 = none := by
      unfold step
      dsimp only
      repeat' split
      all_goals exact ⟨rfl, rfl⟩
    refine iff_of_true (tracked_quiet ht (congrArg _ hsame.1) fun event hevent => ?_) trivial
    exact absurd (hsame.2.symm.trans hevent) nofun
  | notify =>
    have hsame : (s.step mode .notify).1.context = s.context ∧
        ∀ event ∈ (s.step mode .notify).2, event.showsOnline = false := by
      unfold step
      dsimp only
      split
      · refine ⟨rfl, fun event hevent => ?_⟩
        obtain rfl := Option.some.inj hevent
        rfl
      · exact ⟨rfl, nofun⟩
    exact iff_of_true (tracked_quiet ht (congrArg _ hsame.1) hsame.2) trivial
  | remove =>
    have hquiet : (s.step mode .remove).2 = none := by
      unfold step
      dsimp only
      split
      all_goals rfl
    by_cases hends : ∃ stale, s.eviction = some ⟨stale, []⟩
    · obtain ⟨stale, hstale⟩ := hends
      have hafter : (s.step mode .remove).1.context = s.context.remove stale := by
        unfold step
        dsimp only
        rw [hstale]
      refine (tracked_dropped (P := fun id => id ∈ stale) ht hquiet fun id => ?_).trans ?_
      · exact (congrArg (fun context : DispatchContext => context.streamerLastSeen.lookup id)
          hafter).trans (DispatchContext.lookup_remove stale)
      · constructor
        · intro hunshown stale' hstale'
          cases Option.some.inj (hstale.symm.trans hstale')
          exact hunshown
        · exact fun hunshown => hunshown stale hstale
    · refine iff_of_true (tracked_quiet ht ?_ fun event hevent => ?_) fun stale hstale =>
        absurd ⟨stale, hstale⟩ hends
      · change (s.step mode .remove).1.context.streamerLastSeen = _
        unfold step
        dsimp only
        split
        · next stale hstale => exact absurd ⟨stale, hstale⟩ hends
        · rfl
      · exact absurd (hquiet.symm.trans hevent) nofun

/-- In a run of the listener every PC that is shown as online is in the table, the PCs that fall
silent are reported and only they, exactly if no step drops a PC that is shown. -/
theorem subject_of_run (mode : ConnectionMode) (is : List DiscoveryInput) :
    (∀ pre e post, (machine mode).events is = pre ++ e :: post → Tracked (pre ++ [e]) e.after) ∧
        Reported ((machine mode).events is) ∧ Justified ((machine mode).events is) ↔
      ∀ pre e post, (machine mode).events is = pre ++ e :: post → DropsUnshown mode pre e := by
  have hinit : Tracked [] (machine mode).init := fun id ⟨_, hnone, _⟩ => absurd hnone nofun
  have hstep : ∀ h s i, Tracked h s → (Tracked (h ++ [(machine mode).eventAt s i])
      ((machine mode).step s i).1 ↔ DropsUnshown mode h ((machine mode).eventAt s i)) :=
    fun _ _ i ht => tracked_step_iff ht i
  constructor
  · exact fun ⟨htracked, _⟩ => ((machine mode).history_kept_iff hinit hstep).mp htracked
  · intro hok
    have htracked := ((machine mode).history_kept_iff hinit hstep).mpr hok
    refine ⟨htracked, reported_events fun pre e post hsplit => ?_, justified_events is⟩
    exact (machine mode).history_before hinit (fun h s i ht => (hstep h s i ht).mpr) hok hsplit

/-- The address of a PC in the Wi-Fi. -/
def wifiAddr : SocketAddr := ⟨.v4 3232235781, 23555⟩

/-- A PC tells that it is there, and later over USB that it leaves. -/
def usbGoodbye : List DiscoveryInput :=
  [.dispatch (.presence "pc" "PC" false none) wifiAddr false,
    .dispatch (.presence "pc" "PC" true (some .usb)) wifiAddr false]

/-- In the Wi-Fi mode the screen goes on showing the PC, which will never time out. -/
theorem not_subject_usbGoodbye : ¬∀ mode : ConnectionMode, mode ≠ .adb →
    ∀ is : List DiscoveryInput,
      (∀ pre e post, (machine mode).events is = pre ++ e :: post →
          Tracked (pre ++ [e]) e.after) ∧
        Reported ((machine mode).events is) ∧ Justified ((machine mode).events is) := by
  intro h
  have hlast := (h .wifi nofun usbGoodbye).1 [_] _ [] rfl "pc" ⟨_, rfl, rfl⟩
  exact absurd hlast (by decide)

end DiscoveryListener

end Gemacast.Phone
