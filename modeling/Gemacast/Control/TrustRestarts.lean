import Gemacast.Core.Provenance
import Gemacast.Control.TrustFiles

/-!
# Trust across restarts

The store of the trusted devices over any number of starts, with calls that return, calls that
fail and kills in the middle of any of them. What was granted is kept until it is withdrawn,
and what is in the list was granted and not withdrawn since.
-/

namespace Gemacast.Control

open Gemacast.Core Gemacast.Streamer

/-- The key is the one of the device in a table. -/
def ListsKey (devices : Table DeviceId TrustedDevice) (d : DeviceId) (key : String) : Prop :=
  ∃ device, devices.lookup d = some device ∧ device.publicKey = key

namespace TrustedDeviceStore

variable {s : TrustedDeviceStore} {op : TrustOp} {write : Except String Unit} {d : DeviceId}
  {key : String}

/-- After an operation the file is the old one or holds the devices in memory. -/
theorem Keyed.step_disk (h : s.Keyed) (op : TrustOp) :
    (s.step op).1.disk = s.disk ∨
      (s.step op).1.disk = some (s.step op).1.toFile ∧ (s.step op).1.Synced := by
  cases h.step_effect op with
  | unchanged hsame hdisk => exact .inl hdisk
  | withheld write d hop hfailed =>
    subst hop
    refine .inl ?_
    change ((s.forget write d).2).isOk = false at hfailed
    change (s.forget write d).1.disk = s.disk
    unfold forget at hfailed ⊢
    dsimp only at hfailed ⊢
    split at hfailed
    · cases hfailed
    · next habsent =>
      rw [if_neg habsent]
      rcases TrustedDeviceStore.saveState_cases { s with
          devices := s.devices.erase d
          revoked := insert d s.revoked } write with
        ⟨error, heq⟩ | ⟨disk, heq⟩ <;> rw [heq] at hfailed ⊢
      cases hfailed
  | written hkeyed hdisk => exact .inr ⟨hdisk, hkeyed.synced hdisk⟩

/-- A key in the list was there before, or was granted in the operation. -/
theorem listsKey_of_step (h : ListsKey (s.step op).1.devices d key) :
    ListsKey s.devices d key ∨
      ∃ write name, op = .trust write d name key ∧ (s.step op).2.succeeded = true := by
  have herased (d' : DeviceId) (h : ListsKey (s.devices.erase d') d key) :
      ListsKey s.devices d key := by
    obtain ⟨device, hlookup, hkey⟩ := h
    rw [Table.lookup_erase_eq] at hlookup
    split at hlookup
    · cases hlookup
    · exact ⟨device, hlookup, hkey⟩
  cases op with
  | bindPcIdentity write fingerprint =>
    change ListsKey (s.bindPcIdentity write fingerprint).1.devices d key at h
    unfold bindPcIdentity at h
    split at h
    · exact .inl h
    · rcases saveState_cases { s with
          pcCertificateFingerprint := some fingerprint
          devices := ∅
          revoked := ∅ } write with
        ⟨error, heq⟩ | ⟨disk, heq⟩ <;> rw [heq] at h
      · exact .inl h
      · obtain ⟨device, hlookup, -⟩ := h
        cases hlookup
  | isTrusted d' key' => exact .inl h
  | trust write d' name key' =>
    change ListsKey (s.trust write d' name key').1.devices d key at h
    change _ ∨ ∃ write' name', _ ∧ (s.trust write d' name key').2.isOk = true
    unfold trust at h ⊢
    split at h
    · exact .inl h
    · next hbound =>
      rw [if_neg hbound]
      rcases saveState_cases { s with
          revoked := s.revoked.erase d'
          devices := s.devices.insert d' ⟨d', name, key'⟩ } write with
        ⟨error, heq⟩ | ⟨disk, heq⟩ <;> rw [heq] at h ⊢
      · obtain ⟨device, hlookup, hkey⟩ := h
        rw [show _ = s.devices.lookup d from restore_sameMemory.devices d] at hlookup
        exact .inl ⟨device, hlookup, hkey⟩
      · obtain ⟨device, hlookup, hkey⟩ := h
        rw [Table.lookup_insert_eq] at hlookup
        split at hlookup
        · next hd =>
          subst hd
          obtain rfl := Option.some.inj hlookup
          obtain rfl : key' = key := hkey
          exact .inr ⟨write, name, rfl, rfl⟩
        · exact .inl ⟨device, hlookup, hkey⟩
  | forget write d' =>
    change ListsKey (s.forget write d').1.devices d key at h
    refine .inl (herased d' ?_)
    unfold forget at h
    dsimp only at h
    split at h
    · exact h
    · rcases saveState_cases { s with
          devices := s.devices.erase d'
          revoked := insert d' s.revoked } write with
        ⟨error, heq⟩ | ⟨disk, heq⟩ <;> rw [heq] at h <;> exact h

/-- A withdrawal that says so has taken the device out of memory and file. -/
theorem Keyed.forget_listsKey (h : s.Keyed) (key : String)
    (hok : (s.forget write d).2 = .ok true) :
    ¬ListsKey (s.forget write d).1.devices d key ∧ (s.forget write d).1.Synced := by
  unfold forget at hok ⊢
  dsimp only at hok ⊢
  split at hok
  · cases hok
  · next habsent =>
    rw [if_neg habsent]
    have hkeyed : Keyed { s with
        devices := s.devices.erase d
        revoked := insert d s.revoked } := h.drop rfl rfl
    rcases hkeyed.saveState_cases write with ⟨error, heq⟩ | heq <;> rw [heq] at hok ⊢
    · cases hok
    · dsimp only
      refine ⟨?_, Keyed.synced (h.drop rfl rfl) rfl⟩
      rintro ⟨device, hlookup, -⟩
      rw [AList.lookup_erase] at hlookup
      cases hlookup

/-- A key in memory or file was in one of them before, or was granted in the operation. -/
theorem Keyed.known_of_step (h : s.Keyed)
    (hknown : ListsKey (s.step op).1.onDisk d key ∨ ListsKey (s.step op).1.devices d key) :
    (ListsKey s.onDisk d key ∨ ListsKey s.devices d key) ∨
      ∃ write name, op = .trust write d name key ∧ (s.step op).2.succeeded = true := by
  have hmemory (hlists : ListsKey (s.step op).1.devices d key) :
      (ListsKey s.onDisk d key ∨ ListsKey s.devices d key) ∨
        ∃ write name, op = .trust write d name key ∧ (s.step op).2.succeeded = true :=
    (listsKey_of_step hlists).imp .inr id
  obtain hfile | hlists := hknown
  · obtain hdisk | ⟨-, hsynced⟩ := h.step_disk op
    · rw [onDisk, hdisk] at hfile
      exact .inl (.inl hfile)
    · obtain ⟨device, hlookup, hkey⟩ := hfile
      exact hmemory ⟨device, (hsynced d).symm.trans hlookup, hkey⟩
  · exact hmemory hlists

end TrustedDeviceStore

/-- The call takes nothing from a device that is trusted with a key by the owner of a
certificate. -/
def TrustCall.Spares (fingerprint : String) (d : DeviceId) (key : String) : TrustCall → Prop
  | .bindPcIdentity fingerprint' => fingerprint' = fingerprint
  | .isTrusted _ _ => True
  | .trust d' _ key' => d' = d → key' = key
  | .forget d' => d' ≠ d

/-- The list is that of the certificate and has the key of the device. -/
structure TrustedDeviceFile.Holds (disk : Option TrustedDeviceFile) (fingerprint : String)
    (d : DeviceId) (key : String) : Prop where
  /-- The certificate. -/
  fingerprint : (TrustedDeviceStore.load disk).pcCertificateFingerprint = some fingerprint
  /-- The key. -/
  key : ListsKey (TrustedDeviceStore.load disk).devices d key

namespace TrustedDeviceStore

/-- The device is trusted with the key, in memory and in the file. -/
structure Secured (s : TrustedDeviceStore) (fingerprint : String) (d : DeviceId) (key : String) :
    Prop where
  /-- The store is well formed. -/
  keyed : s.Keyed
  /-- The certificate. -/
  bound : s.pcCertificateFingerprint = some fingerprint
  /-- In memory. -/
  trusted : s.isTrusted d key = true
  /-- In the file. -/
  held : TrustedDeviceFile.Holds s.disk fingerprint d key

variable {s : TrustedDeviceStore} {call : TrustCall} {write : Except String Unit} {d : DeviceId}
  {key fingerprint : String}

theorem listsKey_of_isTrusted (h : s.isTrusted d key = true) : ListsKey s.devices d key := by
  obtain ⟨-, device, hlookup, hkey⟩ := isTrusted_iff.mp h
  exact ⟨device, hlookup, hkey⟩

/-- What is written from memory holds what memory does. -/
theorem Synced.holds (hsynced : s.Synced) (hdisk : s.disk = some s.toFile)
    (hfingerprint : s.pcCertificateFingerprint = some fingerprint)
    (htrusted : s.isTrusted d key = true) : TrustedDeviceFile.Holds s.disk fingerprint d key := by
  constructor
  · rw [hdisk]
    exact hfingerprint
  · obtain ⟨device, hlookup, hkey⟩ := listsKey_of_isTrusted htrusted
    exact ⟨device, (hsynced d).trans hlookup, hkey⟩

/-- An operation that spares the device leaves it trusted in memory. -/
theorem isTrusted_of_spares (hfingerprint : s.pcCertificateFingerprint = some fingerprint)
    (htrusted : s.isTrusted d key = true) (hspares : call.Spares fingerprint d key)
    (write : Except String Unit) :
    (s.step (call.withWrite write)).1.isTrusted d key = true ∧
      (s.step (call.withWrite write)).1.pcCertificateFingerprint = some fingerprint := by
  cases call with
  | bindPcIdentity fingerprint' =>
    obtain rfl : fingerprint' = fingerprint := hspares
    rw [TrustCall.withWrite, step, bindPcIdentity, if_pos hfingerprint]
    exact ⟨htrusted, hfingerprint⟩
  | isTrusted d' key' => exact ⟨htrusted, hfingerprint⟩
  | trust d' name key' =>
    have hbound : s.pcCertificateFingerprint ≠ none := by simp [hfingerprint]
    rw [TrustCall.withWrite, step, trust, if_neg hbound]
    rcases saveState_cases { s with
        revoked := s.revoked.erase d'
        devices := s.devices.insert d' ⟨d', name, key'⟩ } write with
      ⟨error, heq⟩ | ⟨disk, heq⟩ <;> rw [heq] <;> refine ⟨?_, hfingerprint⟩
    · exact (restore_sameMemory.isTrusted).trans htrusted
    · obtain ⟨hrevoked, device, hlookup, hkey⟩ := isTrusted_iff.mp htrusted
      refine isTrusted_iff.mpr ⟨fun hmem => hrevoked (Finset.mem_of_mem_erase hmem), ?_⟩
      dsimp only
      rw [Table.lookup_insert_eq]
      split
      · next hd => exact ⟨_, rfl, hspares hd.symm⟩
      · exact ⟨device, hlookup, hkey⟩
  | forget d' =>
    have hne : d ≠ d' := fun heq => hspares heq.symm
    have hkept {t : TrustedDeviceStore} (hdevices : t.devices = s.devices.erase d')
        (hmem : d ∈ t.revoked → d ∈ s.revoked) : t.isTrusted d key = true := by
      obtain ⟨hrevoked, device, hlookup, hkey⟩ := isTrusted_iff.mp htrusted
      refine isTrusted_iff.mpr ⟨fun h => hrevoked (hmem h), device, ?_, hkey⟩
      rw [hdevices, Table.lookup_erase_eq, if_neg hne, hlookup]
    rw [TrustCall.withWrite, step, forget]
    dsimp only
    split
    · exact ⟨hkept rfl fun hmem => by simpa [hne] using hmem, hfingerprint⟩
    · rcases saveState_cases { s with
          devices := s.devices.erase d'
          revoked := insert d' s.revoked } write with
        ⟨error, heq⟩ | ⟨disk, heq⟩ <;> rw [heq] <;> refine ⟨?_, hfingerprint⟩
      · exact hkept rfl fun hmem => by simpa [hne] using hmem
      · exact hkept rfl fun hmem => by simpa [hne] using hmem

/-- So does it in the file, whether or not it writes it. -/
theorem Secured.step (h : s.Secured fingerprint d key) (hspares : call.Spares fingerprint d key)
    (write : Except String Unit) : (s.step (call.withWrite write)).1.Secured fingerprint d key := by
  obtain ⟨htrusted, hfingerprint⟩ := isTrusted_of_spares h.bound h.trusted hspares write
  refine ⟨h.keyed.step _, hfingerprint, htrusted, ?_⟩
  obtain hdisk | ⟨hdisk, hsynced⟩ := h.keyed.step_disk (call.withWrite write)
  · rw [hdisk]
    exact h.held
  · exact hsynced.holds hdisk hfingerprint htrusted

/-- A grant that says so is in memory and in the file. -/
theorem Keyed.secured_of_trust {name : String} (h : s.Keyed)
    (hfingerprint : s.pcCertificateFingerprint = some fingerprint)
    (hok : (s.trust write d name key).2 = .ok ()) :
    (s.trust write d name key).1.Secured fingerprint d key := by
  have hbound : s.pcCertificateFingerprint ≠ none := by simp [hfingerprint]
  have hkeyed : Keyed { s with
      revoked := s.revoked.erase d
      devices := s.devices.insert d ⟨d, name, key⟩ } := h.put ⟨d, name, key⟩ rfl rfl
  unfold trust at hok ⊢
  rw [if_neg hbound] at hok ⊢
  rcases hkeyed.saveState_cases write with ⟨error, heq⟩ | heq <;> rw [heq] at hok ⊢
  · cases hok
  · have hkeyed' : Keyed { s with
        disk := some (toFile { s with
          revoked := s.revoked.erase d
          devices := s.devices.insert d ⟨d, name, key⟩ })
        revoked := s.revoked.erase d
        devices := s.devices.insert d ⟨d, name, key⟩ } := h.put ⟨d, name, key⟩ rfl rfl
    have htrusted : isTrusted { s with
        disk := some (toFile { s with
          revoked := s.revoked.erase d
          devices := s.devices.insert d ⟨d, name, key⟩ })
        revoked := s.revoked.erase d
        devices := s.devices.insert d ⟨d, name, key⟩ } d key = true :=
      isTrusted_iff.mpr ⟨Finset.notMem_erase d s.revoked, ⟨d, name, key⟩,
        AList.lookup_insert _, rfl⟩
    exact ⟨hkeyed', hfingerprint, htrusted, (hkeyed'.synced rfl).holds rfl hfingerprint htrusted⟩

end TrustedDeviceStore

/-- What happens to the store. -/
inductive TrustHappening
  /-- The process starts; whether it can read the file. -/
  | started (read : Bool)
  /-- A call returns. -/
  | returned (call : TrustCall) (answer : TrustAnswer)
  /-- The process is killed in a call. -/
  | killed (call : TrustCall)
  /-- It ends between two calls. -/
  | ended

namespace TrustFiles

open TrustedDeviceState
open Program (Leaves)

/-- What may happen over any starts of the process, one after the other, with what is in the
files and in memory then. -/
inductive Lives (json : TrustJson) (files₀ : TrustFiles) (memory₀ : Option TrustedDeviceState) :
    List TrustHappening → TrustFiles → Option TrustedDeviceState → Prop
  | nothing : Lives json files₀ memory₀ [] files₀ memory₀
  | started {history files files'} {contents : Except String (List UInt8)}
      (hlives : Lives json files₀ memory₀ history files none)
      (hread : files.Serves (.readToString .list) contents files') :
      Lives json files₀ memory₀ (history ++ [.started contents.isOk]) files'
        (some (loaded json contents))
  | returned {history files state call result files'}
      (hlives : Lives json files₀ memory₀ history files (some state))
      (hleaves : Leaves service (perform json state call) files (some result) files') :
      Lives json files₀ memory₀ (history ++ [.returned call result.2]) files' (some result.1)
  | killed {history files state call files'}
      (hlives : Lives json files₀ memory₀ history files (some state))
      (hleaves : Leaves service (perform json state call) files none files') :
      Lives json files₀ memory₀ (history ++ [.killed call]) files' none
  | ended {history files state} (hlives : Lives json files₀ memory₀ history files (some state)) :
      Lives json files₀ memory₀ (history ++ [.ended]) files none

variable {json : TrustJson} {files₀ files : TrustFiles} {memory₀ memory : Option TrustedDeviceState}
  {history : List TrustHappening} {state : TrustedDeviceState} {d : DeviceId}
  {key fingerprint : String}

/-- What a start has in memory is well formed, whatever it read. -/
theorem keyed_loaded (contents : Except String (List UInt8)) (disk : Option TrustedDeviceFile) :
    ((loaded json contents).withDisk disk).Keyed := by
  have hkeyed : (TrustedDeviceStore.load (contents.toOption.bind json.fromStr)).Keyed :=
    TrustedDeviceStore.keyed_load
  exact ⟨rfl, hkeyed.deviceId⟩

/-- A start that can read the file has the list of the file in memory. -/
theorem withDisk_loaded (json : TrustJson) {bytes : List UInt8} (h : files .list = some bytes) :
    (loaded json (.ok bytes)).withDisk (disk json files) =
      TrustedDeviceStore.load (disk json files) := by
  rw [disk, h]
  rfl

/-- What is in memory is well formed while the store is called. -/
theorem Lives.keyed (hjson : json.Lawful) (h : Lives json files₀ memory₀ history files memory)
    (hfirst : ∀ state, memory₀ = some state → (state.withDisk (disk json files₀)).Keyed) :
    ∀ state, memory = some state → (state.withDisk (disk json files)).Keyed := by
  induction h with
  | nothing => exact hfirst
  | started _ _ _ =>
    rintro state heq
    obtain rfl := Option.some.inj heq
    exact keyed_loaded _ _
  | @returned history files state call result files' _ hleaves ih =>
    rintro state' heq
    obtain rfl := Option.some.inj heq
    obtain ⟨write, hstep⟩ := (perform_refines hjson hleaves).2 result rfl
    have hkeyed := (ih state rfl).step (call.withWrite write)
    rw [hstep] at hkeyed
    exact hkeyed
  | killed => rintro state ⟨⟩
  | ended => rintro state ⟨⟩

/-- What happens takes nothing from a device that is trusted with a key by the owner of a
certificate: no call withdraws it or gives it another key, the list gets no other owner, and
every start can read the file. -/
def Spares (fingerprint : String) (d : DeviceId) (key : String) : TrustHappening → Prop
  | .started read => read = true
  | .returned call _ | .killed call => call.Spares fingerprint d key
  | .ended => True

/-- The key of the device is in the file, and the store that runs trusts it. -/
structure Settled (json : TrustJson) (files : TrustFiles) (memory : Option TrustedDeviceState)
    (fingerprint : String) (d : DeviceId) (key : String) : Prop where
  /-- In the file. -/
  held : TrustedDeviceFile.Holds (disk json files) fingerprint d key
  /-- In memory. -/
  secured : ∀ state, memory = some state →
    (state.withDisk (disk json files)).Secured fingerprint d key

theorem settled_some
    (h : (state.withDisk (disk json files)).Secured fingerprint d key) :
    Settled json files (some state) fingerprint d key := by
  refine ⟨h.held, fun state' heq => ?_⟩
  obtain rfl := Option.some.inj heq
  exact h

theorem settled_none (h : TrustedDeviceFile.Holds (disk json files) fingerprint d key) :
    Settled json files none fingerprint d key :=
  ⟨h, by rintro state ⟨⟩⟩

/-- A grant that says so settles the key. -/
theorem settled_of_granted {name : String} {state' : TrustedDeviceState} {files' : TrustFiles}
    (hjson : json.Lawful) (hkeyed : (state.withDisk (disk json files)).Keyed)
    (hfingerprint : state.pcCertificateFingerprint = some fingerprint)
    (hgrant : Leaves service (perform json state (.trust d name key)) files
      (some (state', .granted (.ok ()))) files') :
    Settled json files' (some state') fingerprint d key := by
  obtain ⟨write, hstep⟩ := (perform_refines hjson hgrant).2 _ rfl
  have hok : ((state.withDisk (disk json files)).trust write d name key).2 = .ok () :=
    TrustAnswer.granted.inj (congrArg Prod.snd hstep)
  have hnext : ((state.withDisk (disk json files)).trust write d name key).1 =
      state'.withDisk (disk json files') := congrArg Prod.fst hstep
  have hsecured := hkeyed.secured_of_trust hfingerprint hok
  rw [hnext] at hsecured
  exact settled_some hsecured

/-- A start that can read the file trusts what is in it. -/
theorem Settled.started {contents : Except String (List UInt8)} {files' : TrustFiles}
    (h : Settled json files memory fingerprint d key)
    (hread : files.Serves (.readToString .list) contents files') (hok : contents.isOk = true) :
    Settled json files' (some (loaded json contents)) fingerprint d key := by
  cases contents with
  | error error => cases hok
  | ok bytes =>
    obtain ⟨rfl, hbytes⟩ := hread
    refine settled_some ?_
    rw [withDisk_loaded json hbytes]
    obtain ⟨device, hlookup, hkey⟩ := h.held.key
    exact ⟨TrustedDeviceStore.keyed_load, h.held.fingerprint,
      TrustedDeviceStore.isTrusted_iff.mpr ⟨Finset.notMem_empty d, device, hlookup, hkey⟩, h.held⟩

/-- A call that spares the device leaves the key settled when it returns. -/
theorem Settled.returned {call : TrustCall} {result : TrustedDeviceState × TrustAnswer}
    {files' : TrustFiles} (h : Settled json files (some state) fingerprint d key)
    (hjson : json.Lawful) (hspares : call.Spares fingerprint d key)
    (hleaves : Leaves service (perform json state call) files (some result) files') :
    Settled json files' (some result.1) fingerprint d key := by
  obtain ⟨write, hstep⟩ := (perform_refines hjson hleaves).2 _ rfl
  have hnext := (h.secured state rfl).step hspares write
  rw [hstep] at hnext
  exact settled_some hnext

/-- So does one that is killed. -/
theorem Settled.killed {call : TrustCall} {files' : TrustFiles}
    (h : Settled json files (some state) fingerprint d key) (hjson : json.Lawful)
    (hspares : call.Spares fingerprint d key)
    (hleaves : Leaves service (perform json state call) files none files') :
    Settled json files' none fingerprint d key := by
  obtain ⟨write, hdisk⟩ := (perform_refines hjson hleaves).1
  have hnext := (h.secured state rfl).step hspares write
  refine settled_none ?_
  rw [hdisk]
  exact hnext.held

/-- What is settled stays so while nothing takes it from the device. -/
theorem Settled.lives (h : Settled json files₀ memory₀ fingerprint d key) (hjson : json.Lawful)
    (hlives : Lives json files₀ memory₀ history files memory)
    (hspares : ∀ e ∈ history, Spares fingerprint d key e) :
    Settled json files memory fingerprint d key := by
  induction hlives with
  | nothing => exact h
  | started _ hread ih =>
    rw [List.forall_mem_append, List.forall_mem_singleton] at hspares
    exact (ih hspares.1).started hread hspares.2
  | returned _ hleaves ih =>
    rw [List.forall_mem_append, List.forall_mem_singleton] at hspares
    exact (ih hspares.1).returned hjson hspares.2 hleaves
  | killed _ hleaves ih =>
    rw [List.forall_mem_append, List.forall_mem_singleton] at hspares
    exact (ih hspares.1).killed hjson hspares.2 hleaves
  | ended _ ih =>
    rw [List.forall_mem_append] at hspares
    exact settled_none (ih hspares.1).held

/-- A grant that says so is kept: over any calls that return, fail or are killed and any
restarts, the file has the key of the device and the store trusts it, as long as nothing takes
it from the device. -/
theorem grant_kept {name : String} {state' : TrustedDeviceState} {files' files'' : TrustFiles}
    {before after : List TrustHappening} (hjson : json.Lawful)
    (hbefore : Lives json files₀ none before files (some state))
    (hfingerprint : state.pcCertificateFingerprint = some fingerprint)
    (hgrant : Leaves service (perform json state (.trust d name key)) files
      (some (state', .granted (.ok ()))) files')
    (hafter : Lives json files' (some state') after files'' memory)
    (hspares : ∀ e ∈ after, Spares fingerprint d key e) :
    TrustedDeviceFile.Holds (disk json files'') fingerprint d key ∧
      ∀ state'', memory = some state'' → state''.isTrusted d key = true := by
  have hkeyed := hbefore.keyed hjson (by rintro state ⟨⟩) state rfl
  have hgranted := settled_of_granted hjson hkeyed hfingerprint hgrant
  have hsettled := hgranted.lives hjson hafter hspares
  exact ⟨hsettled.held, fun state'' heq => (hsettled.secured state'' heq).trusted⟩

theorem loaded_boundText : loaded phoneJson (.ok boundText) = boundState := by
  have hfile : phoneJson.fromStr boundText = some boundFile := by
    unfold phoneJson
    dsimp only
    rw [if_pos rfl]
  rw [loaded, Except.toOption, Option.bind_some, hfile]
  rfl

/-- The process starts with a list that has no devices. -/
theorem bound_started :
    Lives phoneJson boundFiles none [.started true] boundFiles (some boundState) := by
  have hread : boundFiles.Serves (.readToString .list) (.ok boundText) boundFiles := ⟨rfl, rfl⟩
  rw [← loaded_boundText]
  exact .started .nothing hread

/-- It ends and starts again after the grant. -/
theorem phone_restarted :
    Lives phoneJson phoneFiles (some phoneState) [.ended, .started true] phoneFiles
      (some (loaded phoneJson (.ok phoneText))) := by
  have hread : phoneFiles.Serves (.readToString .list) (.ok phoneText) phoneFiles :=
    ⟨rfl, Function.update_self ..⟩
  exact .started (.ended .nothing) hread

theorem phone_grant_kept :
    TrustedDeviceFile.Holds (disk phoneJson phoneFiles) "pc" "phone" "key" ∧
      ∀ state, some (loaded phoneJson (.ok phoneText)) = some state →
        state.isTrusted "phone" "key" = true := by
  refine grant_kept phoneJson_lawful bound_started rfl phone_granted phone_restarted ?_
  rw [List.forall_mem_cons, List.forall_mem_singleton]
  exact ⟨trivial, rfl⟩

/-- A key is in the file or in memory. -/
def Known (json : TrustJson) (files : TrustFiles) (memory : Option TrustedDeviceState)
    (d : DeviceId) (key : String) : Prop :=
  ListsKey (TrustedDeviceStore.load (disk json files)).devices d key ∨
    ∃ state, memory = some state ∧ ListsKey state.devices d key

/-- A key is granted to a device, for all the PC can tell after a kill. -/
def GrantsKey (d : DeviceId) (key : String) (e : TrustHappening) : Prop :=
  ∃ name, e = .returned (.trust d name key) (.granted (.ok ())) ∨ e = .killed (.trust d name key)

/-- A withdrawal says that the device had been trusted and is not any more. -/
def Withdraws (d : DeviceId) (e : TrustHappening) : Prop :=
  e = .returned (.forget d) (.forgotten (.ok true))

/-- A call that returns puts no key in but the one it grants, and a withdrawal takes it out. -/
theorem known_of_returned (hjson : json.Lawful) {call : TrustCall}
    {result : TrustedDeviceState × TrustAnswer} {files' : TrustFiles}
    (hkeyed : (state.withDisk (disk json files)).Keyed)
    (hleaves : Leaves service (perform json state call) files (some result) files')
    (hknown : Known json files' (some result.1) d key) :
    Known json files (some state) d key ∧ ¬Withdraws d (.returned call result.2) ∨
      GrantsKey d key (.returned call result.2) := by
  obtain ⟨write, hstep⟩ := (perform_refines hjson hleaves).2 result rfl
  have hafter : ListsKey ((state.withDisk (disk json files)).step (call.withWrite write)).1.onDisk d
      key ∨ ListsKey ((state.withDisk (disk json files)).step (call.withWrite write)).1.devices d
        key := by
    rw [hstep]
    obtain hfile | ⟨state', heq, hlists⟩ := hknown
    · exact .inl hfile
    · obtain rfl := Option.some.inj heq
      exact .inr hlists
  obtain hbefore | ⟨write', name, hop, hsucceeded⟩ := hkeyed.known_of_step hafter
  · refine .inl ⟨hbefore.imp id fun hlists => ⟨state, rfl, hlists⟩, fun hwithdraws => ?_⟩
    obtain ⟨hcall, hanswer⟩ := TrustHappening.returned.inj hwithdraws
    subst hcall
    have hok : ((state.withDisk (disk json files)).forget write d).2 = .ok true :=
      TrustAnswer.forgotten.inj ((congrArg Prod.snd hstep).trans hanswer)
    obtain ⟨hnot, hsynced⟩ := hkeyed.forget_listsKey key hok
    obtain hfile | hlists := hafter
    · obtain ⟨device, hlookup, hkey⟩ := hfile
      exact hnot ⟨device, (hsynced d).symm.trans hlookup, hkey⟩
    · exact hnot hlists
  · rw [hstep] at hsucceeded
    cases call with
    | trust d' name' key' =>
      obtain ⟨-, rfl, rfl, rfl⟩ := TrustOp.trust.inj hop
      have hanswer : .granted ((state.withDisk (disk json files)).trust write d' name' key').2 =
          result.2 := congrArg Prod.snd hstep
      dsimp only at hsucceeded
      rw [← hanswer] at hsucceeded ⊢
      cases hresult : ((state.withDisk (disk json files)).trust write d' name' key').2 with
      | error error =>
        rw [hresult] at hsucceeded
        cases hsucceeded
      | ok _ => exact .inr ⟨name', .inl rfl⟩
    | bindPcIdentity _ => cases hop
    | isTrusted _ _ => cases hop
    | forget _ => cases hop

/-- A call that is killed puts no key in but the one it was to grant. -/
theorem known_of_killed (hjson : json.Lawful) {call : TrustCall} {files' : TrustFiles}
    (hkeyed : (state.withDisk (disk json files)).Keyed)
    (hleaves : Leaves service (perform json state call) files none files')
    (hknown : Known json files' none d key) :
    Known json files (some state) d key ∨ GrantsKey d key (.killed call) := by
  obtain ⟨write, hdisk⟩ := (perform_refines hjson hleaves).1
  obtain hfile | ⟨state', heq, -⟩ := hknown
  · rw [hdisk] at hfile
    obtain hbefore | ⟨write', name, hop, -⟩ := hkeyed.known_of_step (.inl hfile)
    · exact .inl (hbefore.imp id fun hlists => ⟨state, rfl, hlists⟩)
    · cases call with
      | trust d' name' key' =>
        obtain ⟨-, rfl, rfl, rfl⟩ := TrustOp.trust.inj hop
        exact .inr ⟨name', .inr rfl⟩
      | bindPcIdentity _ => cases hop
      | isTrusted _ _ => cases hop
      | forget _ => cases hop
  · cases heq

/-- A start has nothing in memory that is not in the file. -/
theorem known_of_started {contents : Except String (List UInt8)} {files' : TrustFiles}
    (hread : files.Serves (.readToString .list) contents files')
    (hknown : Known json files' (some (loaded json contents)) d key) :
    Known json files none d key := by
  cases contents with
  | error error =>
    obtain rfl : files' = files := hread
    obtain hfile | ⟨state', heq, device, hlookup, -⟩ := hknown
    · exact .inl hfile
    · obtain rfl := Option.some.inj heq
      cases hlookup
  | ok bytes =>
    obtain ⟨rfl, hbytes⟩ := hread
    obtain hfile | ⟨state', heq, hlists⟩ := hknown
    · exact .inl hfile
    · obtain rfl := Option.some.inj heq
      have hdevices := congrArg TrustedDeviceStore.devices (withDisk_loaded json hbytes)
      refine .inl ?_
      rw [← hdevices]
      exact hlists

/-- Whatever fails, is killed or restarted, a key that is in the file or in memory was in the
file at first or was granted, and its device has not been withdrawn since: a withdrawal that
says so is for good, and a grant that fails never takes effect. -/
theorem trust_vouched (hjson : json.Lawful) (h : Lives json files₀ none history files memory)
    (hknown : Known json files memory d key) :
    (ListsKey (TrustedDeviceStore.load (disk json files₀)).devices d key ∧
      ∀ e ∈ history, ¬Withdraws d e) ∨
    Since (fun _ => GrantsKey d key) (Withdraws d) history := by
  have hnext {past : List TrustHappening} {e : TrustHappening} {first : Prop}
      (hbefore : (first ∧ ∀ f ∈ past, ¬Withdraws d f) ∨
        Since (fun _ => GrantsKey d key) (Withdraws d) past) (he : ¬Withdraws d e) :
      (first ∧ ∀ f ∈ past ++ [e], ¬Withdraws d f) ∨
        Since (fun _ => GrantsKey d key) (Withdraws d) (past ++ [e]) := by
    obtain ⟨hfirst, hnone⟩ | hsince := hbefore
    · refine .inl ⟨hfirst, ?_⟩
      rw [List.forall_mem_append, List.forall_mem_singleton]
      exact ⟨hnone, he⟩
    · exact .inr (hsince.concat he)
  induction h with
  | nothing =>
    obtain hfile | ⟨state, heq, -⟩ := hknown
    · exact .inl ⟨hfile, fun e he => absurd he List.not_mem_nil⟩
    · cases heq
  | started _ hread ih => exact hnext (ih (known_of_started hread hknown)) (by rintro ⟨⟩)
  | @returned history files state call result files' hlives hleaves ih =>
    have hkeyed := hlives.keyed hjson (by rintro state ⟨⟩) state rfl
    obtain ⟨hbefore, hnot⟩ | hgrants := known_of_returned hjson hkeyed hleaves hknown
    · exact hnext (ih hbefore) hnot
    · exact .inr (since_concat hgrants)
  | @killed history files state call files' hlives hleaves ih =>
    have hkeyed := hlives.keyed hjson (by rintro state ⟨⟩) state rfl
    obtain hbefore | hgrants := known_of_killed hjson hkeyed hleaves hknown
    · exact hnext (ih hbefore) (by rintro ⟨⟩)
    · exact .inr (since_concat hgrants)
  | @ended history files state _ ih =>
    obtain hfile | ⟨state', heq, -⟩ := hknown
    · exact hnext (ih (.inl hfile)) (by rintro ⟨⟩)
    · cases heq

theorem phone_vouched :
    (ListsKey (TrustedDeviceStore.load (disk phoneJson boundFiles)).devices "phone" "key" ∧
      ∀ e ∈ [.started true, .returned (.trust "phone" "Phone" "key") (.granted (.ok ()))],
        ¬Withdraws "phone" e) ∨
    Since (fun _ => GrantsKey "phone" "key") (Withdraws "phone")
      [.started true, .returned (.trust "phone" "Phone" "key") (.granted (.ok ()))] :=
  trust_vouched phoneJson_lawful (.returned bound_started phone_granted)
    (.inr ⟨phoneState, rfl, ⟨"phone", "Phone", "key"⟩, AList.lookup_insert _, rfl⟩)

end TrustFiles

end Gemacast.Control
