import Mathlib.Data.Finset.Basic
import Gemacast.Control.Auth

/-!
# Trusted devices

The keys the user of the PC has approved, in memory and in a file. The file is replaced as
a whole; whether a write succeeds comes from outside. A grant that cannot be written is
taken back, a withdrawal that cannot be written stays in force in memory.
-/

namespace Gemacast.Control

open Gemacast.Core Gemacast.Streamer

/-- A device and the key approved for it. -/
structure TrustedDevice where
  /-- The device. -/
  deviceId : DeviceId
  /-- Its name. -/
  deviceName : String
  /-- Its key, an uncompressed point in Base64. -/
  publicKey : String
  deriving DecidableEq, Repr

/-- What the file holds. -/
structure TrustedDeviceFile where
  /-- The certificate the list belongs to. -/
  pcCertificateFingerprint : Option String := none
  /-- The devices. -/
  devices : List TrustedDevice := []
  deriving DecidableEq, Repr

/-- The trusted devices. -/
structure TrustedDeviceStore where
  /-- There is a file. -/
  hasPath : Bool
  /-- What the file holds; none where there is no readable file. -/
  disk : Option TrustedDeviceFile
  /-- The certificate the list belongs to. -/
  pcCertificateFingerprint : Option String
  /-- The devices in memory. -/
  devices : Table DeviceId TrustedDevice
  /-- The devices whose removal could not be written. -/
  revoked : Finset DeviceId

namespace TrustedDeviceStore

/-- Read the file. -/
def load (disk : Option TrustedDeviceFile) : TrustedDeviceStore :=
  let file := disk.getD {}
  { hasPath := true
    disk
    pcCertificateFingerprint := file.pcCertificateFingerprint
    devices := file.devices.foldl (fun devices device => devices.insert device.deviceId device) ∅
    revoked := ∅ }

/-- The file of what is in memory. -/
def toFile (s : TrustedDeviceStore) : TrustedDeviceFile where
  pcCertificateFingerprint := s.pcCertificateFingerprint
  devices := (s.devices.entries.map (·.2)).mergeSort fun left right =>
    decide (left.deviceId ≤ right.deviceId)

/-- Write the file. -/
def saveState (s : TrustedDeviceStore) (write : Except String Unit) :
    TrustedDeviceStore × Except String Unit :=
  if s.hasPath then
    match write with
    | .error error => (s, .error error)
    | .ok () => ({ s with disk := some s.toFile }, .ok ())
  else (s, .ok ())

/-- Make the list belong to a certificate; one that belongs to another is dropped. -/
def bindPcIdentity (s : TrustedDeviceStore) (write : Except String Unit) (fingerprint : String) :
    TrustedDeviceStore × Except String Unit :=
  if s.pcCertificateFingerprint = some fingerprint then (s, .ok ())
  else
    match { s with
        pcCertificateFingerprint := some fingerprint
        devices := ∅
        revoked := ∅ }.saveState write with
    | (t, .ok ()) => (t, .ok ())
    | (t, .error error) =>
      ({ t with
          pcCertificateFingerprint := s.pcCertificateFingerprint
          devices := s.devices
          revoked := s.revoked }, .error error)

/-- The key is the one approved for the device. -/
def isTrusted (s : TrustedDeviceStore) (deviceId : DeviceId) (publicKey : String) : Bool :=
  if deviceId ∈ s.revoked then false
  else (s.devices.lookup deviceId).any fun device =>
    constantTimeEq (asBytes device.publicKey) (asBytes publicKey)

/-- The key approved for the device. -/
def publicKey (s : TrustedDeviceStore) (deviceId : DeviceId) : Option String :=
  if deviceId ∈ s.revoked then none
  else (s.devices.lookup deviceId).map (·.publicKey)

/-- Put an entry back as it was. -/
def restore (s : TrustedDeviceStore) (deviceId : DeviceId) (wasRevoked : Bool)
    (previous : Option TrustedDevice) : TrustedDeviceStore :=
  { s with
    revoked := if wasRevoked then insert deviceId s.revoked else s.revoked
    devices :=
      match previous with
      | some device => s.devices.insert deviceId device
      | none => s.devices.erase deviceId }

/-- Approve a key for a device. -/
def trust (s : TrustedDeviceStore) (write : Except String Unit) (deviceId : DeviceId)
    (deviceName publicKey : String) : TrustedDeviceStore × Except String Unit :=
  if s.pcCertificateFingerprint = none then
    (s, .error "trusted-device store is not bound to a PC identity")
  else
    match { s with
        revoked := s.revoked.erase deviceId
        devices := s.devices.insert deviceId ⟨deviceId, deviceName, publicKey⟩ }.saveState
          write with
    | (t, .ok ()) => (t, .ok ())
    | (t, .error error) =>
      (t.restore deviceId (deviceId ∈ s.revoked) (s.devices.lookup deviceId), .error error)

/-- Withdraw the approval of a device; whether there was one. -/
def forget (s : TrustedDeviceStore) (write : Except String Unit) (deviceId : DeviceId) :
    TrustedDeviceStore × Except String Bool :=
  let removed := s.devices.lookup deviceId
  let alreadyRevoked := decide (deviceId ∈ s.revoked)
  let s := { s with
    devices := s.devices.erase deviceId
    revoked := insert deviceId s.revoked }
  if removed = none ∧ alreadyRevoked = false then
    ({ s with revoked := s.revoked.erase deviceId }, .ok false)
  else
    match s.saveState write with
    | (s, .error error) => (s, .error error)
    | (s, .ok ()) => ({ s with revoked := s.revoked.erase deviceId }, .ok true)

variable {s : TrustedDeviceStore} {write : Except String Unit} {d d' : DeviceId}
  {name key key' : String}

theorem isTrusted_iff : s.isTrusted d key = true ↔
    d ∉ s.revoked ∧ ∃ device, s.devices.lookup d = some device ∧ device.publicKey = key := by
  unfold isTrusted
  by_cases hrevoked : d ∈ s.revoked
  · simp [hrevoked]
  · simp [hrevoked, Option.any_eq_true, constantTimeEq_iff, asBytes_inj]

/-- Writing changes the file only. -/
theorem saveState_cases (s : TrustedDeviceStore) (write : Except String Unit) :
    (∃ error, s.saveState write = (s, .error error)) ∨
      ∃ disk, s.saveState write = ({ s with disk }, .ok ()) := by
  unfold saveState
  split
  · split
    · exact .inl ⟨_, rfl⟩
    · exact .inr ⟨_, rfl⟩
  · exact .inr ⟨s.disk, rfl⟩

/-- Approving a key makes that key of that device trusted, if it succeeds, and no other. -/
theorem trust_isTrusted (h : (s.trust write d name key).1.isTrusted d' key' = true) :
    s.isTrusted d' key' = true ∨ d' = d ∧ key' = key ∧ (s.trust write d name key).2 = .ok () := by
  unfold trust at h ⊢
  by_cases hbound : s.pcCertificateFingerprint = none
  · rw [if_pos hbound] at h
    exact .inl h
  · rw [if_neg hbound] at h ⊢
    rcases saveState_cases { s with
        revoked := s.revoked.erase d
        devices := s.devices.insert d ⟨d, name, key⟩ } write with
      ⟨error, heq⟩ | ⟨disk, heq⟩
    · rw [heq] at h
      refine .inl ?_
      rw [isTrusted_iff] at h ⊢
      obtain ⟨hrevoked, device, hlookup, hkey⟩ := h
      by_cases hd : d' = d
      · subst hd
        cases hold : s.devices.lookup d' with
        | none => simp [restore, hold, AList.lookup_erase] at hlookup
        | some previous =>
          simp only [restore, hold, AList.lookup_insert, Option.some_inj] at hlookup
          refine ⟨fun hmem => hrevoked ?_, device, by rw [hlookup], hkey⟩
          simp [restore, hmem]
      · refine ⟨fun hmem => hrevoked ?_, device, ?_, hkey⟩
        · by_cases hd' : d ∈ s.revoked <;> simp [restore, hd', hmem]
        · cases hold : s.devices.lookup d <;>
            simpa [restore, hold, Table.lookup_insert_eq, Table.lookup_erase_eq, hd] using hlookup
    · rw [heq] at h
      rw [heq]
      rw [isTrusted_iff] at h ⊢
      obtain ⟨hrevoked, device, hlookup, hkey⟩ := h
      by_cases hd : d' = d
      · subst hd
        simp only [AList.lookup_insert, Option.some_inj] at hlookup
        subst hlookup
        exact .inr ⟨rfl, hkey.symm, rfl⟩
      · refine .inl ⟨fun hmem => hrevoked (Finset.mem_erase.mpr ⟨hd, hmem⟩), device, ?_, hkey⟩
        rwa [Table.lookup_insert_eq, if_neg hd] at hlookup

/-- Withdrawing an approval makes no key trusted. -/
theorem forget_isTrusted (h : (s.forget write d).1.isTrusted d' key' = true) :
    s.isTrusted d' key' = true := by
  have herased {t : TrustedDeviceStore} (hdevices : t.devices = s.devices.erase d)
      (hrevoked : ∀ d', d' ≠ d → d' ∈ s.revoked → d' ∈ t.revoked)
      (ht : t.isTrusted d' key' = true) : s.isTrusted d' key' = true := by
    rw [isTrusted_iff] at ht ⊢
    obtain ⟨hnot, device, hlookup, hkey⟩ := ht
    rw [hdevices, Table.lookup_erase_eq] at hlookup
    by_cases hd : d' = d
    · rw [if_pos hd] at hlookup
      nomatch hlookup
    · rw [if_neg hd] at hlookup
      exact ⟨fun hmem => hnot (hrevoked d' hd hmem), device, hlookup, hkey⟩
  unfold forget at h
  dsimp only at h
  split at h
  · exact herased rfl (fun d' hne hmem => by simp [hne, hmem]) h
  · rcases saveState_cases { s with
        devices := s.devices.erase d
        revoked := insert d s.revoked } write with
      ⟨error, heq⟩ | ⟨disk, heq⟩ <;> rw [heq] at h
    · exact herased rfl (fun d' hne hmem => by simp [hmem]) h
    · exact herased rfl (fun d' hne hmem => by simp [hne, hmem]) h

end TrustedDeviceStore

end Gemacast.Control
