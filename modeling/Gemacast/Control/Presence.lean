import Gemacast.Control.Origins

/-!
# Who is present

The registry holds the devices that have registered and were not removed since, each with the
time it was last heard of, and nothing else; so the watchdog evicts a device when it has been
silent for too long, and only then.
-/

namespace Gemacast.Control

open Gemacast.Core Gemacast.Streamer TaskSystem

variable {crypto : Crypto} {self : ControlDispatcher} {start : ℕ}
  {trustedDevices : TrustedDeviceStore} {supportsProcessCapture : Bool}
  {turns : List (Turn World TaskId Job Change)} {world : World} {s t : Stores} {op : ControlOp}
  {answer : Answer op} {d : DeviceId} {seen : ℕ}

/-- The device registers or is heard of. -/
inductive Hears (d : DeviceId) : ControlCall → Prop
  | registered (deviceName : String) (isOffline : Bool) (addr : SocketAddr)
      (transport : Option TransportType) (outcome : RegistrationOutcome) :
      Hears d ⟨.register d deviceName isOffline addr transport, outcome⟩
  | updated : Hears d ⟨.updateLastSeen d, true⟩

/-- The device is heard of at a time. -/
def HeardAt (d : DeviceId) (seen : ℕ) (s : Stores) (call : ControlCall) : Prop :=
  seen = s.now ∧ Hears d call

/-- The device is removed, or heard of again. -/
inductive Renewed (d : DeviceId) : ControlCall → Prop
  | heard (call : ControlCall) (h : Hears d call) : Renewed d call
  | unregistered (removed : Option DiscoveredDevice) : Renewed d ⟨.unregister d, removed⟩
  | drained (all : List (DeviceId × DiscoveredDevice)) : Renewed d ⟨.drainAll, all⟩
  | evicted (timeout : ℕ) (stale : List (DeviceId × SocketAddr)) (addr : SocketAddr)
      (hstale : (d, addr) ∈ stale) : Renewed d ⟨.evictStale timeout, stale⟩

/-- When a registered device was last heard of. -/
def lastHeard (s : Stores) (d : DeviceId) : Option ℕ := (s.registry.lookup d).map (·.lastSeen)

theorem mem_select {registry : DeviceRegistry} {order : List DeviceId}
    {test : DiscoveredDevice → Bool} {device : DiscoveredDevice} :
    (d, device) ∈ DeviceRegistry.select registry order test ↔
      registry.lookup d = some device ∧ test device = true := by
  unfold DeviceRegistry.select
  rw [List.mem_filterMap]
  constructor
  · rintro ⟨k, -, hk⟩
    obtain ⟨device', hfilter, heq⟩ := Option.map_eq_some_iff.mp hk
    obtain ⟨rfl, rfl⟩ := Prod.mk.inj heq
    exact Option.filter_eq_some_iff.mp hfilter
  · intro h
    refine ⟨d, Table.mem_keysInOrder.mpr (Table.mem_iff.mpr ⟨device, h.1⟩), ?_⟩
    rw [Option.filter_eq_some_iff.mpr h, Option.map_some]

/-- The devices that are evicted are the silent ones. -/
theorem mem_evictStale {registry : DeviceRegistry} {order : List DeviceId} {now timeout : ℕ} :
    (∃ addr, (d, addr) ∈ (registry.evictStale order now timeout).2) ↔
      ∃ device, registry.lookup d = some device ∧ now - device.lastSeen > timeout := by
  unfold DeviceRegistry.evictStale
  dsimp only
  constructor
  · rintro ⟨addr, hmem⟩
    obtain ⟨⟨d', device⟩, hselected, heq⟩ := List.mem_map.mp hmem
    obtain ⟨rfl, -⟩ := Prod.mk.inj heq
    obtain ⟨hlookup, htest⟩ := mem_select.mp hselected
    exact ⟨device, hlookup, of_decide_eq_true htest⟩
  · rintro ⟨device, hlookup, hsilent⟩
    exact ⟨device.addr, List.mem_map.mpr
      ⟨(d, device), mem_select.mpr ⟨hlookup, decide_eq_true hsilent⟩, rfl⟩⟩

section Calls

variable {d' : DeviceId}

@[simp] theorem hears_register {deviceName : String} {isOffline : Bool} {addr : SocketAddr}
    {transport : Option TransportType} {outcome : RegistrationOutcome} :
    Hears d ⟨.register d' deviceName isOffline addr transport, outcome⟩ ↔ d = d' := by
  constructor
  · rintro ⟨⟩
    rfl
  · rintro rfl
    exact .registered ..

@[simp] theorem hears_updateLastSeen {known : Bool} :
    Hears d ⟨.updateLastSeen d', known⟩ ↔ d = d' ∧ known = true := by
  constructor
  · rintro ⟨⟩
    exact ⟨rfl, rfl⟩
  · rintro ⟨rfl, rfl⟩
    exact .updated

theorem renewed_iff {call : ControlCall} : Renewed d call ↔ Hears d call ∨
    (∃ removed, call = ⟨.unregister d, removed⟩) ∨ (∃ all, call = ⟨.drainAll, all⟩) ∨
    ∃ timeout stale addr, call = ⟨.evictStale timeout, stale⟩ ∧ (d, addr) ∈ stale := by
  constructor
  · rintro (⟨_, hheard⟩ | removed | all | ⟨timeout, stale, addr, hstale⟩)
    · exact .inl hheard
    · exact .inr (.inl ⟨removed, rfl⟩)
    · exact .inr (.inr (.inl ⟨all, rfl⟩))
    · exact .inr (.inr (.inr ⟨timeout, stale, addr, rfl, hstale⟩))
  · rintro (hheard | ⟨removed, rfl⟩ | ⟨all, rfl⟩ | ⟨timeout, stale, addr, rfl, hstale⟩)
    · exact .heard _ hheard
    · exact .unregistered removed
    · exact .drained all
    · exact .evicted timeout stale addr hstale

end Calls

/-- Only operations on the registry hear of a device or remove it. -/
theorem store_of_renewed {call : ControlCall} (h : Renewed d call) :
    call.op.store = .registry := by
  cases h with
  | heard call hheard => cases hheard <;> rfl
  | _ => rfl

/-- What an operation does to the time a device was last heard of. -/
theorem lastHeard_execute (h : s.execute crypto world op = some (t, answer)) :
    lastHeard t d = some seen ↔ HeardAt d seen s ⟨op, answer⟩ ∨
      lastHeard s d = some seen ∧ ¬Renewed d ⟨op, answer⟩ := by
  by_cases hstore : op.store = .registry
  · rw [renewed_iff, HeardAt]
    cases op with
    | register d' deviceName isOffline addr transport =>
      obtain ⟨rfl, -⟩ := Prod.mk.inj (Option.some.inj h)
      rw [lastHeard, DeviceRegistry.register, Table.lookup_insert_eq]
      by_cases hd : d = d' <;> simp [hd, lastHeard, eq_comm]
    | unregister d' =>
      obtain ⟨rfl, -⟩ := Prod.mk.inj (Option.some.inj h)
      have hnone : ∀ d, ¬Hears d ⟨.unregister d', answer⟩ := by rintro d ⟨⟩
      rw [lastHeard, DeviceRegistry.unregister, Table.lookup_erase_eq]
      by_cases hd : d = d' <;> simp [hd, hnone, lastHeard, eq_comm]
    | updateLastSeen d' =>
      obtain ⟨rfl, rfl⟩ := Prod.mk.inj (Option.some.inj h)
      rw [lastHeard, DeviceRegistry.updateLastSeen]
      cases hlookup : s.registry.lookup d' with
      | none => simp [lastHeard]
      | some device =>
        dsimp only
        rw [Table.lookup_insert_eq]
        by_cases hd : d = d' <;> simp [hd, lastHeard, eq_comm]
    | getAddr d' =>
      obtain ⟨rfl, -⟩ := Prod.mk.inj (Option.some.inj h)
      have hnone : ¬Hears d ⟨.getAddr d', answer⟩ := by rintro ⟨⟩
      simp [hnone]
    | drainAll =>
      obtain ⟨rfl, -⟩ := Prod.mk.inj (Option.some.inj h)
      have hnone : ¬Hears d ⟨.drainAll, answer⟩ := by rintro ⟨⟩
      simp [hnone, lastHeard, DeviceRegistry.drainAll]
    | evictStale timeout =>
      obtain ⟨rfl, rfl⟩ := Prod.mk.inj (Option.some.inj h)
      have hnone : ∀ stale, ¬Hears d ⟨.evictStale timeout, stale⟩ := by rintro _ ⟨⟩
      have hevicted : (∃ timeout' stale addr, (⟨.evictStale timeout,
          (s.registry.evictStale world.order s.now timeout).2⟩ : ControlCall) =
            ⟨.evictStale timeout', stale⟩ ∧ (d, addr) ∈ stale) ↔
          ∃ device, s.registry.lookup d = some device ∧ s.now - device.lastSeen > timeout := by
        have hiff : (∃ addr, (d, addr) ∈
            (s.registry.evictStale world.order s.now timeout).2) ↔ _ := mem_evictStale
        rw [← hiff]
        constructor
        · rintro ⟨timeout', stale, addr, heq, hmem⟩
          obtain rfl := ControlOp.evictStale.inj (Called.mk.inj heq).1
          obtain rfl := eq_of_heq (Called.mk.inj heq).2
          exact ⟨addr, hmem⟩
        · rintro ⟨addr, hmem⟩
          exact ⟨timeout, _, addr, rfl, hmem⟩
      rw [hevicted, lastHeard, lastHeard, DeviceRegistry.evictStale, Table.lookup_retain]
      cases hlookup : s.registry.lookup d with
      | none => simp [hnone]
      | some device =>
        by_cases hsilent : timeout < s.now - device.lastSeen <;>
          simp [hsilent, hnone, Option.filter]
    | _ => cases hstore
  · have hnone : ¬Renewed d ⟨op, answer⟩ := fun hrenewed => hstore (store_of_renewed hrenewed)
    rw [lastHeard, lastHeard, (execute_untouched h).registry hstore]
    exact ⟨fun hseen => .inr ⟨hseen, hnone⟩, fun hor => hor.elim
      (fun hheard => absurd (.heard _ hheard.2) hnone) And.left⟩

/-- The registry is what the calls made so far say: a device is in it, last heard of at a time,
just when it was heard of then and was neither removed nor heard of again since. -/
theorem registry_history : lastHeard ((startedPc crypto self start trustedDevices
      supportsProcessCapture).machine.run turns).shared d = some seen ↔
    Since (fun _ => Made fun s _ => HeardAt d seen s) (Made fun _ _ => Renewed d)
      ((startedPc crypto self start trustedDevices supportsProcessCapture).machine.events
        turns) := by
  have hpassive : ∀ {s t : Stores}, Passive s t → lastHeard t = lastHeard s := by
    intro s t h
    funext d
    rw [lastHeard, lastHeard, h.registry]
  constructor
  · exact since_of_entry (startedPc crypto self start trustedDevices supportsProcessCapture)
      lastHeard (fun d seen s _ => HeardAt d seen s) (fun d _ => Renewed d) (fun _ => rfl)
      (fun _ _ _ _ d _ haccept hlater => (congrFun (hpassive (accept_passive haccept)) d) ▸ hlater)
      (fun s change d _ hlater => (congrFun (hpassive (outside_passive s change)) d) ▸ hlater)
      fun _ _ _ _ _ _ _ hexecute hlater => (lastHeard_execute hexecute).mp hlater
  · exact entry_of_since (startedPc crypto self start trustedDevices supportsProcessCapture)
      lastHeard (fun d seen s _ => HeardAt d seen s) (fun d _ => Renewed d)
      (fun _ _ _ _ haccept => hpassive (accept_passive haccept))
      (fun s change => hpassive (outside_passive s change))
      (fun _ _ _ _ _ _ _ hexecute hmade => (lastHeard_execute hexecute).mpr (.inl hmade))
      fun _ _ _ _ _ _ _ hexecute hbefore hkept =>
        (lastHeard_execute hexecute).mpr (.inr ⟨hbefore, hkept⟩)

/-- The watchdog evicts the devices that have been silent for too long. -/
def EvictsSilent (events : List ControlEvent) : Prop :=
  ∀ pre e post id job timeout stale d, events = pre ++ e :: post →
    e.output = .called id job ⟨.evictStale timeout, stale⟩ →
    ((∃ addr, (d, addr) ∈ stale) ↔ ∃ seen, e.before.shared.now - seen > timeout ∧
      Since (fun _ => Made fun s _ => HeardAt d seen s) (Made fun _ _ => Renewed d) pre)

/-- No device is evicted too early, and none that is silent is left: whatever the tasks do in
between, a pass of the watchdog evicts just the devices that were last heard of too long ago. -/
theorem evicts_silent (crypto : Crypto) (self : ControlDispatcher) (start : ℕ)
    (trustedDevices : TrustedDeviceStore) (supportsProcessCapture : Bool)
    (turns : List (Turn World TaskId Job Change)) :
    EvictsSilent ((startedPc crypto self start trustedDevices
      supportsProcessCapture).machine.events turns) := by
  intro pre e post id job timeout stale d hrun hcalled
  obtain ⟨as, rfl, hbefore⟩ := Machine.run_of_split _ hrun
  obtain ⟨-, world, -, hexecute⟩ :=
    called_of_mem (hrun ▸ List.mem_append_right _ List.mem_cons_self) hcalled
  obtain ⟨-, rfl⟩ := Prod.mk.inj (Option.some.inj hexecute)
  rw [mem_evictStale]
  simp only [← registry_history, ← hbefore, lastHeard, Option.map_eq_some_iff]
  constructor
  · rintro ⟨device, hlookup, hsilent⟩
    exact ⟨device.lastSeen, hsilent, device, hlookup, rfl⟩
  · rintro ⟨seen, hsilent, device, hlookup, rfl⟩
    exact ⟨device, hlookup, hsilent⟩

end Gemacast.Control
