import Gemacast.Core.Machine
import Gemacast.Control.TrustStore

/-!
# Trusted devices, in memory and in the file

What a run of the store keeps when any write may fail: a grant that cannot be written is
undone, a device stays untrusted from its withdrawal on, and the file holds the devices in
memory, except while a withdrawal waits to be written.
-/

namespace Gemacast.Control

open Gemacast.Core Gemacast.Streamer

/-- An operation of the store, with the outcome of the write it may make. -/
inductive TrustOp
  | bindPcIdentity (write : Except String Unit) (fingerprint : String)
  | isTrusted (deviceId : DeviceId) (publicKey : String)
  | trust (write : Except String Unit) (deviceId : DeviceId) (deviceName publicKey : String)
  | forget (write : Except String Unit) (deviceId : DeviceId)

/-- What an operation returns. -/
inductive TrustAnswer
  | bound (result : Except String Unit)
  | checked (trusted : Bool)
  | granted (result : Except String Unit)
  | forgotten (result : Except String Bool)

/-- The operation returned no error. -/
def TrustAnswer.succeeded : TrustAnswer → Bool
  | .bound result => result.isOk
  | .checked _ => true
  | .granted result => result.isOk
  | .forgotten result => result.isOk

/-- An event of a run of the store. -/
abbrev TrustEvent := Event TrustedDeviceStore TrustOp TrustAnswer

namespace TrustedDeviceStore

/-- One operation. -/
def step (s : TrustedDeviceStore) : TrustOp → TrustedDeviceStore × TrustAnswer
  | .bindPcIdentity write fingerprint =>
    let next := s.bindPcIdentity write fingerprint
    (next.1, .bound next.2)
  | .isTrusted deviceId publicKey => (s, .checked (s.isTrusted deviceId publicKey))
  | .trust write deviceId deviceName publicKey =>
    let next := s.trust write deviceId deviceName publicKey
    (next.1, .granted next.2)
  | .forget write deviceId =>
    let next := s.forget write deviceId
    (next.1, .forgotten next.2)

/-- The store under any operations, from what its file holds at the start. -/
def machine (disk : Option TrustedDeviceFile) : Machine TrustedDeviceStore TrustOp TrustAnswer :=
  ⟨load disk, step⟩

/-- The devices in the file, as the next start reads them. -/
def onDisk (s : TrustedDeviceStore) : Table DeviceId TrustedDevice := (load s.disk).devices

/-- The file holds the devices in memory. -/
def Synced (s : TrustedDeviceStore) : Prop := ∀ d, s.onDisk.lookup d = s.devices.lookup d

/-- What is in memory is the same. -/
structure SameMemory (s t : TrustedDeviceStore) : Prop where
  /-- The certificate. -/
  fingerprint : t.pcCertificateFingerprint = s.pcCertificateFingerprint
  /-- The devices. -/
  devices : ∀ d, t.devices.lookup d = s.devices.lookup d
  /-- The withdrawals that wait to be written. -/
  revoked : t.revoked = s.revoked

/-- The operation has something to write. -/
def Writes (s : TrustedDeviceStore) : TrustOp → Prop
  | .bindPcIdentity _ fingerprint => s.pcCertificateFingerprint ≠ some fingerprint
  | .isTrusted _ _ => False
  | .trust .. => s.pcCertificateFingerprint ≠ none
  | .forget _ deviceId => s.devices.lookup deviceId ≠ none ∨ deviceId ∈ s.revoked

/-- The file was written in the event. -/
def Wrote (e : TrustEvent) : Prop := e.before.Writes e.input ∧ e.output.succeeded = true

/-- A device was granted trust in the event. -/
def Grants (d : DeviceId) (e : TrustEvent) : Prop :=
  ∃ write name key, e.input = .trust write d name key ∧ e.output.succeeded = true

/-- The trust of a device was withdrawn in the event, whether or not this was written. -/
def Forgets (d : DeviceId) (e : TrustEvent) : Prop := ∃ write, e.input = .forget write d

/-- A withdrawal failed to be written, and nothing was written since. -/
def Unwritten (h : List TrustEvent) : Prop :=
  ∃ pre e post d, h = pre ++ e :: post ∧ Forgets d e ∧ e.output.succeeded = false ∧
    ∀ e' ∈ post, ¬Wrote e'

/-- A table names every device by its own identity, and there is a file. -/
structure Keyed (s : TrustedDeviceStore) : Prop where
  /-- There is a file. -/
  hasPath : s.hasPath = true
  /-- An entry is found under the device it is about. -/
  deviceId : ∀ d device, s.devices.lookup d = some device → device.deviceId = d

section File

variable {s t : TrustedDeviceStore} {d : DeviceId}

/-- Reading devices of distinct identities finds each of them, over what was there. -/
theorem lookup_foldl_insert {l : List TrustedDevice} (hnodup : (l.map (·.deviceId)).Nodup)
    {devices : Table DeviceId TrustedDevice} {device : TrustedDevice} :
    (l.foldl (fun devices device => devices.insert device.deviceId device) devices).lookup d =
      some device ↔ device ∈ l ∧ device.deviceId = d ∨
        (∀ other ∈ l, other.deviceId ≠ d) ∧ devices.lookup d = some device := by
  induction l generalizing devices with
  | nil => simp
  | cons first l ih =>
    obtain ⟨hfirst, hrest⟩ := List.nodup_cons.mp hnodup
    have hfresh (other : TrustedDevice) (hmem : other ∈ l) : other.deviceId ≠ first.deviceId :=
      fun heq => hfirst (List.mem_map.mpr ⟨other, hmem, heq⟩)
    rw [List.foldl_cons, ih hrest, Table.lookup_insert_eq, List.forall_mem_cons, List.mem_cons]
    by_cases hd : d = first.deviceId
    · subst hd
      rw [if_pos rfl, Option.some_inj]
      constructor
      · rintro (⟨hmem, heq⟩ | ⟨-, rfl⟩)
        · exact absurd heq (hfresh device hmem)
        · exact .inl ⟨.inl rfl, rfl⟩
      · rintro (⟨rfl | hmem, heq⟩ | ⟨⟨hne, -⟩, -⟩)
        · exact .inr ⟨hfresh, rfl⟩
        · exact absurd heq (hfresh device hmem)
        · exact absurd rfl hne
    · rw [if_neg hd]
      constructor
      · rintro (⟨hmem, heq⟩ | ⟨hnone, hlookup⟩)
        · exact .inl ⟨.inr hmem, heq⟩
        · exact .inr ⟨⟨fun heq => hd heq.symm, hnone⟩, hlookup⟩
      · rintro (⟨rfl | hmem, heq⟩ | ⟨⟨-, hnone⟩, hlookup⟩)
        · exact absurd heq.symm hd
        · exact .inl ⟨hmem, heq⟩
        · exact .inr ⟨hnone, hlookup⟩

/-- A file written from memory is read back as it was. -/
theorem Keyed.load_toFile (h : s.Keyed) (d : DeviceId) :
    (load (some s.toFile)).devices.lookup d = s.devices.lookup d := by
  have hperm : s.toFile.devices.Perm (s.devices.entries.map (·.2)) := List.mergeSort_perm _ _
  have hmem (device : TrustedDevice) :
      device ∈ s.toFile.devices ↔ ∃ key, ⟨key, device⟩ ∈ s.devices.entries := by
    rw [hperm.mem_iff, List.mem_map]
    exact ⟨fun ⟨⟨key, _⟩, hentry, heq⟩ => ⟨key, heq ▸ hentry⟩, fun ⟨key, hentry⟩ =>
      ⟨_, hentry, rfl⟩⟩
  have hkeys : (s.devices.entries.map (·.2)).map (·.deviceId) = s.devices.keys := by
    rw [List.map_map]
    refine List.map_congr_left fun entry hentry => ?_
    exact h.deviceId entry.1 entry.2 (Table.lookup_eq_some_iff.mpr hentry)
  have hnodup : (s.toFile.devices.map (·.deviceId)).Nodup := by
    rw [(hperm.map _).nodup_iff, hkeys]
    exact s.devices.keys_nodup
  ext device
  rw [load, Option.getD_some]
  dsimp only
  rw [lookup_foldl_insert hnodup]
  simp only [AList.lookup_empty, reduceCtorEq, and_false, or_false, hmem, Table.lookup_eq_some_iff]
  constructor
  · rintro ⟨⟨key, hentry⟩, rfl⟩
    rwa [h.deviceId key device (Table.lookup_eq_some_iff.mpr hentry)]
  · intro hentry
    exact ⟨⟨d, hentry⟩, h.deviceId d device (Table.lookup_eq_some_iff.mpr hentry)⟩

end File

section Operations

variable {s t : TrustedDeviceStore} {write : Except String Unit} {d : DeviceId}

theorem SameMemory.refl (s : TrustedDeviceStore) : SameMemory s s := ⟨rfl, fun _ => rfl, rfl⟩

theorem SameMemory.isTrusted (h : SameMemory s t) {key : String} :
    t.isTrusted d key = s.isTrusted d key := by
  unfold TrustedDeviceStore.isTrusted
  rw [h.revoked, h.devices]

/-- A store that has the file and the devices of a synced one is synced. -/
theorem Synced.of_same (hs : s.Synced) (h : SameMemory s t) (hdisk : t.disk = s.disk) :
    t.Synced := by
  intro d
  rw [h.devices, ← hs d, onDisk, onDisk, hdisk]

theorem Keyed.of_same (hs : s.Keyed) (h : SameMemory s t) (hpath : t.hasPath = s.hasPath) :
    t.Keyed :=
  ⟨hpath.trans hs.hasPath, fun d device hlookup => hs.deviceId d device (h.devices d ▸ hlookup)⟩

theorem Keyed.drop (h : s.Keyed) (hpath : t.hasPath = s.hasPath)
    (hdevices : t.devices = s.devices.erase d) : t.Keyed := by
  refine ⟨hpath.trans h.hasPath, fun d' device hlookup => ?_⟩
  rw [hdevices, Table.lookup_erase_eq] at hlookup
  split at hlookup
  · nomatch hlookup
  · exact h.deviceId d' device hlookup

theorem Keyed.put (h : s.Keyed) (device : TrustedDevice) (hpath : t.hasPath = s.hasPath)
    (hdevices : t.devices = s.devices.insert device.deviceId device) : t.Keyed := by
  refine ⟨hpath.trans h.hasPath, fun d' device' hlookup => ?_⟩
  rw [hdevices, Table.lookup_insert_eq] at hlookup
  split at hlookup
  · obtain rfl := Option.some.inj hlookup
    exact Eq.symm ‹_›
  · exact h.deviceId d' device' hlookup

/-- A store has just been written. -/
theorem Keyed.synced (h : t.Keyed) (hdisk : t.disk = some t.toFile) : t.Synced := by
  intro d
  rw [onDisk, hdisk, h.load_toFile]

/-- A write that fails changes nothing, one that succeeds puts what is in memory in the file. -/
theorem Keyed.saveState_cases (h : s.Keyed) (write : Except String Unit) :
    (∃ error, s.saveState write = (s, .error error)) ∨
      s.saveState write = ({ s with disk := some s.toFile }, .ok ()) := by
  unfold saveState
  rw [if_pos h.hasPath]
  cases write with
  | error error => exact .inl ⟨error, rfl⟩
  | ok _ => exact .inr rfl

/-- What an operation does to memory and to the file. -/
inductive Effect (s : TrustedDeviceStore) (op : TrustOp) (t : TrustedDeviceStore)
    (answer : TrustAnswer) : Prop where
  /-- There was nothing to write, or the write failed and the operation is undone. -/
  | unchanged (hsame : SameMemory s t) (hdisk : t.disk = s.disk) (hpath : t.hasPath = s.hasPath)
      (hidle : answer.succeeded = true → ¬s.Writes op)
      (hforget : ∀ write d, op = .forget write d → answer.succeeded = true)
  /-- The write failed and the device stays withdrawn. -/
  | withheld (write : Except String Unit) (d : DeviceId) (hop : op = .forget write d)
      (hfailed : answer.succeeded = false) (hpath : t.hasPath = s.hasPath)
      (hdevices : t.devices = s.devices.erase d)
  /-- What is in memory now is in the file. -/
  | written (hkeyed : t.Keyed) (hdisk : t.disk = some t.toFile) (hwrites : s.Writes op)
      (hsucceeded : answer.succeeded = true)

theorem Keyed.bindPcIdentity_effect (h : s.Keyed) (fingerprint : String) :
    Effect s (.bindPcIdentity write fingerprint) (s.bindPcIdentity write fingerprint).1
      (.bound (s.bindPcIdentity write fingerprint).2) := by
  unfold bindPcIdentity
  by_cases hsame : s.pcCertificateFingerprint = some fingerprint
  · rw [if_pos hsame]
    exact .unchanged (.refl s) rfl rfl (fun _ hwrites => hwrites hsame) nofun
  · rw [if_neg hsame]
    have hkeyed : Keyed { s with
        pcCertificateFingerprint := some fingerprint
        devices := ∅
        revoked := ∅ } := ⟨h.hasPath, fun d device hlookup => nomatch hlookup⟩
    rcases hkeyed.saveState_cases write with ⟨error, heq⟩ | heq <;> rw [heq]
    · exact .unchanged ⟨rfl, fun _ => rfl, rfl⟩ rfl rfl nofun nofun
    · exact .written ⟨h.hasPath, hkeyed.deviceId⟩ rfl hsame rfl

/-- An entry that was put in is taken out again. -/
theorem restore_sameMemory {device : TrustedDevice} :
    SameMemory s (restore { s with
      revoked := s.revoked.erase d
      devices := s.devices.insert d device } d (d ∈ s.revoked) (s.devices.lookup d)) := by
  refine ⟨rfl, fun d' => ?_, ?_⟩
  · by_cases hd : d' = d
    · subst hd
      cases hold : s.devices.lookup d' <;> simp [restore, AList.lookup_erase]
    · cases hold : s.devices.lookup d <;> simp [restore, hd]
  · by_cases hmem : d ∈ s.revoked
    · simp [restore, hmem]
    · simp [restore, hmem]

theorem Keyed.trust_effect (h : s.Keyed) (name key : String) :
    Effect s (.trust write d name key) (s.trust write d name key).1
      (.granted (s.trust write d name key).2) := by
  unfold trust
  by_cases hbound : s.pcCertificateFingerprint = none
  · rw [if_pos hbound]
    exact .unchanged (.refl s) rfl rfl nofun nofun
  · rw [if_neg hbound]
    have hkeyed : Keyed { s with
        revoked := s.revoked.erase d
        devices := s.devices.insert d ⟨d, name, key⟩ } :=
      h.put ⟨d, name, key⟩ rfl rfl
    rcases hkeyed.saveState_cases write with ⟨error, heq⟩ | heq <;> rw [heq]
    · exact .unchanged restore_sameMemory rfl rfl nofun nofun
    · exact .written ⟨h.hasPath, hkeyed.deviceId⟩ rfl hbound rfl

theorem Keyed.forget_effect (h : s.Keyed) :
    Effect s (.forget write d) (s.forget write d).1 (.forgotten (s.forget write d).2) := by
  unfold forget
  dsimp only
  by_cases habsent : s.devices.lookup d = none ∧ decide (d ∈ s.revoked) = false
  · rw [if_pos habsent]
    obtain ⟨hnone, hrevoked⟩ := habsent
    have hrevoked := of_decide_eq_false hrevoked
    refine .unchanged ⟨rfl, fun d' => ?_, by simp [hrevoked]⟩ rfl rfl
      (fun _ hwrites => hwrites.elim (· hnone) hrevoked) (fun _ _ _ => rfl)
    rw [Table.lookup_erase_eq]
    split
    · rw [‹d' = d›, hnone]
    · rfl
  · rw [if_neg habsent]
    have hkeyed : Keyed { s with
        devices := s.devices.erase d
        revoked := insert d s.revoked } := h.drop rfl rfl
    rcases hkeyed.saveState_cases write with ⟨error, heq⟩ | heq <;> rw [heq]
    · exact .withheld write d rfl rfl rfl rfl
    · refine .written (h.drop rfl rfl) rfl ?_ rfl
      rw [not_and_or, Bool.not_eq_false, decide_eq_true_iff] at habsent
      exact habsent

theorem Keyed.step_effect (h : s.Keyed) (op : TrustOp) :
    Effect s op (s.step op).1 (s.step op).2 := by
  cases op with
  | bindPcIdentity write fingerprint => exact h.bindPcIdentity_effect fingerprint
  | isTrusted d key => exact .unchanged (.refl s) rfl rfl (fun _ => id) nofun
  | trust write d name key => exact h.trust_effect name key
  | forget write d => exact h.forget_effect

/-- A withdrawn device is not trusted, whether or not this could be written. -/
theorem forget_untrusted {key : String} : (s.forget write d).1.isTrusted d key = false := by
  rw [← Bool.not_eq_true, isTrusted_iff]
  rintro ⟨-, device, hlookup, -⟩
  unfold forget at hlookup
  dsimp only at hlookup
  split at hlookup
  · rw [AList.lookup_erase] at hlookup
    nomatch hlookup
  · rcases saveState_cases { s with
        devices := s.devices.erase d
        revoked := insert d s.revoked } write with
      ⟨error, heq⟩ | ⟨disk, heq⟩ <;> rw [heq] at hlookup <;> dsimp only at hlookup <;>
      rw [AList.lookup_erase] at hlookup <;> nomatch hlookup

/-- Binding the store to a certificate makes no key trusted. -/
theorem Keyed.bindPcIdentity_isTrusted (h : s.Keyed) {fingerprint key : String}
    (ht : (s.bindPcIdentity write fingerprint).1.isTrusted d key = true) :
    s.isTrusted d key = true := by
  unfold bindPcIdentity at ht
  split at ht
  · exact ht
  · have hkeyed : Keyed { s with
        pcCertificateFingerprint := some fingerprint
        devices := ∅
        revoked := ∅ } := ⟨h.hasPath, fun d device hlookup => nomatch hlookup⟩
    rcases hkeyed.saveState_cases write with ⟨error, heq⟩ | heq <;> rw [heq] at ht
    · exact ht
    · obtain ⟨-, device, hlookup, -⟩ := isTrusted_iff.mp ht
      nomatch hlookup

/-- A key becomes trusted by a successful grant to its device only. -/
theorem Keyed.step_isTrusted (h : s.Keyed) {disk : Option TrustedDeviceFile} {op : TrustOp}
    {key : String} (ht : (s.step op).1.isTrusted d key = true) :
    s.isTrusted d key = true ∨ Grants d ((machine disk).eventAt s op) := by
  cases op with
  | bindPcIdentity write fingerprint => exact .inl (h.bindPcIdentity_isTrusted ht)
  | isTrusted d key => exact .inl ht
  | trust write d' name key' =>
    rcases trust_isTrusted ht with hold | ⟨rfl, rfl, hok⟩
    · exact .inl hold
    · refine .inr ⟨write, name, key, rfl, ?_⟩
      show ((s.trust write d name key).2).isOk = true
      rw [hok]
      rfl
  | forget write d' => exact .inl (forget_isTrusted ht)

end Operations

section Runs

variable {disk : Option TrustedDeviceFile} {s : TrustedDeviceStore}

theorem keyed_load : (load disk).Keyed := by
  refine ⟨rfl, fun d device => ?_⟩
  have hinv (l : List TrustedDevice) (devices : Table DeviceId TrustedDevice)
      (hdevices : ∀ d device, devices.lookup d = some device → device.deviceId = d) :
      ∀ d device, (l.foldl (fun devices device => devices.insert device.deviceId device)
        devices).lookup d = some device → device.deviceId = d := by
    induction l generalizing devices with
    | nil => exact hdevices
    | cons first l ih =>
      refine ih _ fun d device hlookup => ?_
      rw [Table.lookup_insert_eq] at hlookup
      split at hlookup
      · exact Option.some.inj hlookup ▸ (Eq.symm ‹_›)
      · exact hdevices d device hlookup
  exact hinv _ ∅ (fun d device hlookup => nomatch hlookup) d device

theorem Keyed.step (h : s.Keyed) (op : TrustOp) : (s.step op).1.Keyed := by
  cases h.step_effect op with
  | unchanged hsame hdisk hpath => exact h.of_same hsame hpath
  | withheld write d hop hfailed hpath hdevices => exact h.drop hpath hdevices
  | written hkeyed => exact hkeyed

/-- The file holds the devices in memory, or a withdrawal waits to be written. -/
def SyncedOrUnwritten (h : List TrustEvent) (s : TrustedDeviceStore) : Prop :=
  s.Keyed ∧ (s.Synced ∨ Unwritten h)

theorem Unwritten.concat {h : List TrustEvent} {e : TrustEvent} (hh : Unwritten h)
    (he : ¬Wrote e) : Unwritten (h ++ [e]) := by
  obtain ⟨pre, f, post, d, rfl, hforgets, hfailed, hpost⟩ := hh
  refine ⟨pre, f, post ++ [e], d, by simp, hforgets, hfailed, fun e' hmem => ?_⟩
  rcases List.mem_append.mp hmem with hold | hnew
  · exact hpost e' hold
  · exact List.mem_singleton.mp hnew ▸ he

theorem SyncedOrUnwritten.step {h : List TrustEvent} (hs : SyncedOrUnwritten h s) (op : TrustOp) :
    SyncedOrUnwritten (h ++ [(machine disk).eventAt s op]) (s.step op).1 := by
  obtain ⟨hkeyed, hsync⟩ := hs
  refine ⟨hkeyed.step op, ?_⟩
  cases hkeyed.step_effect op with
  | unchanged hsame hdisk hpath hidle =>
    rcases hsync with hsynced | hunwritten
    · exact .inl (hsynced.of_same hsame hdisk)
    · exact .inr (hunwritten.concat fun hwrote => hidle hwrote.2 hwrote.1)
  | withheld write d hop hfailed =>
    exact .inr ⟨h, _, [], d, rfl, ⟨write, hop⟩, hfailed, by simp⟩
  | written hkeyed' hdisk' => exact .inl (hkeyed'.synced hdisk')

theorem syncedOrUnwritten_before {ops : List TrustOp} {pre post : List TrustEvent} {e : TrustEvent}
    (h : (machine disk).events ops = pre ++ e :: post) : SyncedOrUnwritten pre e.before :=
  (machine disk).history_before (p := fun _ _ => True)
    ⟨keyed_load, .inl fun _ => rfl⟩ (fun _ _ op hs _ => hs.step op) (fun _ _ _ _ => trivial) h

/-- A key that is not trusted stays so while its device is granted nothing. -/
theorem runFrom_untrusted {d : DeviceId} {key : String} {ops : List TrustOp} (hs : s.Keyed)
    (hnot : s.isTrusted d key = false) (hops : ∀ e ∈ (machine disk).eventsFrom s ops, ¬Grants d e) :
    ((machine disk).runFrom s ops).isTrusted d key = false := by
  refine ((machine disk).invariant_from (I := fun s => s.Keyed ∧ s.isTrusted d key = false)
    (p := fun s op => ¬Grants d ((machine disk).eventAt s op)) ?_ ⟨hs, hnot⟩ ?_).2.2
  · rintro s op ⟨hkeyed, hnot⟩ hgrants
    refine ⟨hkeyed.step op, Bool.eq_false_iff.mpr fun htrusted => ?_⟩
    rcases hkeyed.step_isTrusted htrusted with hold | hgranted
    · exact Bool.noConfusion (hnot.symm.trans hold)
    · exact hgrants hgranted
  · intro e hmem
    rw [← (machine disk).eq_eventAt_of_mem hmem]
    exact hops e hmem

/-- Whichever writes fail: a failed grant or binding leaves memory as it was; a device whose
trust was withdrawn is trusted by no key until it is granted again; and after an operation
that succeeds the file holds the devices in memory, unless the operation had nothing to write
and a withdrawal still waits to be written. -/
theorem trust_of_run (disk : Option TrustedDeviceFile) (ops : List TrustOp) :
    (∀ e ∈ (machine disk).events ops, e.output.succeeded = false →
      (∀ d, ¬Forgets d e) → SameMemory e.before e.after) ∧
    (∀ pre f post d key, (machine disk).events ops = pre ++ f :: post → Forgets d f →
      (∀ e ∈ post, ¬Grants d e) → ((machine disk).run ops).isTrusted d key = false) ∧
    ∀ pre e post, (machine disk).events ops = pre ++ e :: post → e.output.succeeded = true →
      e.after.Synced ∨ ¬Wrote e ∧ Unwritten pre := by
  refine ⟨fun e hmem hfailed hforgets => ?_, fun pre f post d key hrun hforgets hpost => ?_,
    fun pre e post hrun hsucceeded => ?_⟩
  · obtain ⟨pre, post, hrun⟩ := List.append_of_mem hmem
    rw [(machine disk).eq_eventAt_of_mem hmem] at hfailed ⊢
    cases (syncedOrUnwritten_before hrun).1.step_effect e.input with
    | unchanged hsame => exact hsame
    | withheld write d hop => exact absurd ⟨write, hop⟩ (hforgets d)
    | written hkeyed hdisk hwrites hsucceeded =>
      exact Bool.noConfusion (hsucceeded.symm.trans hfailed)
  · have hkeyed := (syncedOrUnwritten_before hrun).1
    obtain ⟨as, bs, rfl, rfl, hf, rfl⟩ := (machine disk).eventsFrom_split hrun
    obtain ⟨write, hop⟩ := hforgets
    have hbefore : f.before = (machine disk).runFrom (machine disk).init as :=
      congrArg Event.before hf
    have hafter : f.after = (f.before.step (.forget write d)).1 := by
      rw [hbefore, ← hop]
      exact congrArg Event.after hf
    have hlast : (machine disk).run (as ++ f.input :: bs) = (machine disk).runFrom f.after bs := by
      rw [Machine.run, Machine.runFrom_append, Machine.runFrom_cons, ← hbefore, hop, hafter]
      rfl
    rw [hlast]
    refine runFrom_untrusted ?_ ?_ hpost
    · rw [hafter]
      exact hkeyed.step _
    · rw [hafter]
      exact forget_untrusted
  · have hmem : e ∈ (machine disk).events ops := by simp [hrun]
    obtain ⟨hkeyed, hsync⟩ := syncedOrUnwritten_before hrun
    have he := (machine disk).eq_eventAt_of_mem hmem
    rw [he] at hsucceeded ⊢
    cases hkeyed.step_effect e.input with
    | unchanged hsame hdisk hpath hidle =>
      rcases hsync with hsynced | hunwritten
      · exact .inl (hsynced.of_same hsame hdisk)
      · exact .inr ⟨fun hwrote => hidle hwrote.2 hwrote.1, hunwritten⟩
    | withheld write d hop hfailed => exact Bool.noConfusion (hsucceeded.symm.trans hfailed)
    | written hkeyed' hdisk' => exact .inl (hkeyed'.synced hdisk')

/-- A file with one phone. -/
def phoneFile : TrustedDeviceFile := ⟨some "pc", [⟨"phone", "Phone", "key"⟩]⟩

/-- The withdrawal of the phone cannot be written, and then a device is withdrawn that was
never approved. -/
def lateWithdrawal : List TrustOp :=
  [.forget (.error "disk full") "phone", .forget (.ok ()) "tablet"]

theorem not_synced_lateWithdrawal : ¬∀ e ∈ (machine (some phoneFile)).events lateWithdrawal,
    e.output.succeeded = true → e.after.Synced := by
  intro h
  have hlast := h _ (List.mem_cons_of_mem _ List.mem_cons_self) rfl "phone"
  revert hlast
  decide

end Runs

end TrustedDeviceStore

end Gemacast.Control
