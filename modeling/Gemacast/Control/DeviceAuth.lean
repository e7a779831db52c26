import Gemacast.Core.Bytes
import Gemacast.Control.Auth

/-!
# Device authentication

A device proves that it holds a key by signing a transcript with a challenge of the PC in
it. A challenge answers one proof, whatever comes of it. Codecs, digests and signatures are
those of libraries and come as parameters, and so does what the random source returns.
-/

namespace Gemacast.Control

open Gemacast.Core Gemacast.Streamer

/-- What the libraries compute. -/
structure Crypto where
  /-- Standard Base64. -/
  base64Encode : List UInt8 → String
  /-- Standard Base64, or why a text is none. -/
  base64Decode : String → Except String (List UInt8)
  /-- Two hexadecimal digits a byte. -/
  hexEncode : List UInt8 → String
  /-- The SHA-256 digest. -/
  sha256 : List UInt8 → List UInt8
  /-- An ECDSA signature over P-256 with SHA-256: key, message and signature. -/
  ecdsaVerify : List UInt8 → List UInt8 → List UInt8 → Bool

/-- Two hexadecimal digits a byte. -/
def hexDigits (bytes : List UInt8) : String :=
  String.ofList (bytes.flatMap fun byte => [Nat.digitChar (byte.toNat / 16),
    Nat.digitChar (byte.toNat % 16)])

/-- Libraries of which only the hexadecimal encoding is called. -/
def hexCrypto : Crypto := ⟨hexDigits, fun _ => .ok [], hexDigits, id, fun _ _ _ => false⟩

/-- What a phone sends to prove who it is. -/
structure DeviceAuthRequest where
  /-- The key, an uncompressed point in Base64. -/
  publicKey : String
  /-- The nonce of the phone. -/
  phoneNonce : String
  /-- The challenge it answers. -/
  challengeId : Option String
  /-- The signature of the transcript. -/
  signature : Option String
  /-- Whether its user has confirmed the pairing code. -/
  phoneConfirmation : Option Bool
  deriving DecidableEq, Repr

/-- A challenge as it is sent to the phone. -/
structure DeviceAuthChallenge where
  /-- The identity of the challenge. -/
  challengeId : String
  /-- The challenge. -/
  challenge : String
  /-- The certificate of the PC. -/
  pcCertificateFingerprint : String
  /-- The code both users compare. -/
  pairingCode : String
  /-- The user of the PC will be asked. -/
  requiresApproval : Bool
  /-- How long the challenge is valid. -/
  expiresInSeconds : ℕ
  deriving DecidableEq, Repr

def deviceAuthDomain : List UInt8 := asBytes "gemacast-device-auth-v1"

def pairingCodeDomain : List UInt8 := asBytes "gemacast-pairing-code-v1"

/-- What the phone signs: every field behind its length in four bytes. -/
def buildDeviceAuthTranscript (deviceId pcId pcCertificateFingerprint publicKey phoneNonce
    challengeId challenge : String) : List UInt8 :=
  [deviceAuthDomain, asBytes deviceId, asBytes pcId, asBytes pcCertificateFingerprint,
    asBytes publicKey, asBytes phoneNonce, asBytes challengeId, asBytes challenge].flatMap
    fun field => beBytes 4 field.length ++ field

/-- Six decimal digits of the digest of a transcript. -/
def pairingCode (crypto : Crypto) (transcript : List UInt8) : String :=
  let digest := crypto.sha256 (pairingCodeDomain ++ transcript)
  let value := ofBeBytes (digest.take 4) % 1000000
  String.ofList ((Nat.toDigits 10 value).leftpad 6 '0')

def decodeDevicePublicKey (crypto : Crypto) (publicKey : String) : Except String (List UInt8) :=
  match crypto.base64Decode publicKey with
  | .error error => .error s!"device public key is not valid Base64: {error}"
  | .ok publicKey =>
    if publicKey.length ≠ 65 ∨ publicKey.head? ≠ some 0x04 then
      .error "device public key must be an uncompressed P-256 point"
    else .ok publicKey

def verifyDeviceAuthSignature (crypto : Crypto) (publicKey signature : String)
    (transcript : List UInt8) : Except String Unit :=
  match decodeDevicePublicKey crypto publicKey with
  | .error error => .error error
  | .ok publicKey =>
    match crypto.base64Decode signature with
    | .error error => .error s!"device signature is not valid Base64: {error}"
    | .ok signature =>
      if crypto.ecdsaVerify publicKey transcript signature then .ok ()
      else .error "device signature verification failed"

def validateDevicePublicKey (crypto : Crypto) (publicKey : String) : Except String Unit :=
  (decodeDevicePublicKey crypto publicKey).map fun _ => ()

def devicePublicKeyFingerprint (crypto : Crypto) (publicKey : String) : Except String String :=
  (decodeDevicePublicKey crypto publicKey).map fun publicKey =>
    crypto.hexEncode (crypto.sha256 publicKey)

/-- A random value in Base64. -/
def randomAuthValue (crypto : Crypto) (random : Except String (List UInt8)) :
    Except String String :=
  match random with
  | .error error => .error s!"failed to generate authentication randomness: {error}"
  | .ok bytes => .ok (crypto.base64Encode bytes)

/-- How long a challenge can be answered. -/
def challengeTtl : ℕ := seconds 90

/-- How long a proved key waits for the approval of its request. -/
def pendingPairingTtl : ℕ := seconds 65

/-- Largest number of open challenges. -/
def maxPendingChallenges : ℕ := 256

/-- A device that has proved to hold its key. -/
structure VerifiedDeviceIdentity where
  /-- The key. -/
  publicKey : String
  /-- The digest of the key. -/
  fingerprint : String
  /-- The code both users compare. -/
  pairingCode : String
  deriving DecidableEq, Repr

/-- An open challenge. -/
structure PendingChallenge where
  /-- The device it was made for. -/
  deviceId : DeviceId
  /-- The PC that made it. -/
  pcId : DeviceId
  /-- The certificate of the PC. -/
  pcCertificateFingerprint : String
  /-- The key to be proved. -/
  publicKey : String
  /-- The nonce of the phone. -/
  phoneNonce : String
  /-- The challenge. -/
  challenge : String
  /-- When it was made. -/
  createdAt : ℕ
  deriving DecidableEq, Repr

/-- A proved key that waits for the approval of its request. -/
structure PendingPairing where
  /-- The device. -/
  deviceId : DeviceId
  /-- What it has proved. -/
  identity : VerifiedDeviceIdentity
  /-- When it was put here. -/
  createdAt : ℕ
  deriving DecidableEq, Repr

/-- Open challenges and waiting keys. -/
structure DeviceAuthManager where
  /-- The challenges by their identity. -/
  challenges : Table String PendingChallenge
  /-- The waiting keys by the identity of their request. -/
  pendingPairings : Table String PendingPairing

/-- Check the answer to a challenge. -/
def PendingChallenge.check (pending : PendingChallenge) (crypto : Crypto) (now : ℕ)
    (deviceId pcId : DeviceId) (pcCertificateFingerprint : String) (auth : DeviceAuthRequest)
    (challengeId signature : String) : Except String VerifiedDeviceIdentity :=
  if now - pending.createdAt > challengeTtl then
    .error "device authentication challenge expired"
  else if pending.deviceId ≠ deviceId ∨ pending.pcId ≠ pcId ∨
      pending.pcCertificateFingerprint ≠ pcCertificateFingerprint ∨
      pending.publicKey ≠ auth.publicKey ∨ pending.phoneNonce ≠ auth.phoneNonce then
    .error "device authentication challenge does not match this device"
  else
    let transcript := buildDeviceAuthTranscript deviceId pcId pcCertificateFingerprint
      auth.publicKey auth.phoneNonce challengeId pending.challenge
    match verifyDeviceAuthSignature crypto auth.publicKey signature transcript with
    | .error error => .error error
    | .ok () =>
      match devicePublicKeyFingerprint crypto auth.publicKey with
      | .error error => .error error
      | .ok fingerprint => .ok ⟨auth.publicKey, fingerprint, pairingCode crypto transcript⟩

namespace DeviceAuthManager

/-- Nothing is open. -/
def new : DeviceAuthManager := ⟨∅, ∅⟩

/-- Drop what has waited too long. -/
def pruneExpired (m : DeviceAuthManager) (now : ℕ) : DeviceAuthManager where
  challenges := m.challenges.retain fun _ pending => decide (now - pending.createdAt ≤ challengeTtl)
  pendingPairings :=
    m.pendingPairings.retain fun _ pending => decide (now - pending.createdAt ≤ pendingPairingTtl)

/-- Make a challenge for a device and a key. -/
def begin (m : DeviceAuthManager) (crypto : Crypto) (now later : ℕ)
    (random : ℕ → Except String (List UInt8)) (deviceId pcId : DeviceId)
    (pcCertificateFingerprint : String) (requiresApproval : Bool) (publicKey phoneNonce : String) :
    DeviceAuthManager × Except String DeviceAuthChallenge :=
  match validateDevicePublicKey crypto publicKey with
  | .error error => (m, .error error)
  | .ok () =>
    match crypto.base64Decode phoneNonce with
    | .error error => (m, .error s!"device nonce is not valid Base64: {error}")
    | .ok decodedNonce =>
      if decodedNonce.length ≠ 32 then
        (m, .error "device nonce must contain exactly 32 bytes")
      else
        match randomAuthValue crypto (random 0) with
        | .error error => (m, .error error)
        | .ok challengeId =>
          match randomAuthValue crypto (random 1) with
          | .error error => (m, .error error)
          | .ok challenge =>
            let transcript := buildDeviceAuthTranscript deviceId pcId pcCertificateFingerprint
              publicKey phoneNonce challengeId challenge
            let m := m.pruneExpired now
            if m.challenges.size ≥ maxPendingChallenges then
              (m, .error "too many pending device-authentication requests")
            else
              ({ m with
                  challenges := m.challenges.insert challengeId ⟨deviceId, pcId,
                    pcCertificateFingerprint, publicKey, phoneNonce, challenge, later⟩ },
                .ok ⟨challengeId, challenge, pcCertificateFingerprint,
                  pairingCode crypto transcript, requiresApproval, challengeTtl / seconds 1⟩)

/-- Check a proof; its challenge is gone afterwards. -/
def verify (m : DeviceAuthManager) (crypto : Crypto) (now later : ℕ) (deviceId pcId : DeviceId)
    (pcCertificateFingerprint : String) (auth : DeviceAuthRequest) :
    DeviceAuthManager × Except String VerifiedDeviceIdentity :=
  match auth.challengeId with
  | none => (m, .error "device authentication challenge is missing")
  | some challengeId =>
    match auth.signature with
    | none => (m, .error "device authentication signature is missing")
    | some signature =>
      let m := m.pruneExpired now
      match m.challenges.lookup challengeId with
      | none => (m, .error "device authentication challenge is invalid or already used")
      | some pending =>
        ({ m with challenges := m.challenges.erase challengeId },
          pending.check crypto later deviceId pcId pcCertificateFingerprint auth challengeId
            signature)

/-- Keep a proved key until its request is approved. -/
def holdPendingPairing (m : DeviceAuthManager) (now later : ℕ) (requestId : String)
    (deviceId : DeviceId) (identity : VerifiedDeviceIdentity) : DeviceAuthManager :=
  let m := m.pruneExpired now
  { m with pendingPairings := m.pendingPairings.insert requestId ⟨deviceId, identity, later⟩ }

/-- The key that waits for a request, if it is this one of this device. -/
def pendingPairing (m : DeviceAuthManager) (now : ℕ) (requestId : String) (deviceId : DeviceId)
    (publicKey : String) : DeviceAuthManager × Option VerifiedDeviceIdentity :=
  let m := m.pruneExpired now
  (m, ((m.pendingPairings.lookup requestId).filter fun pending =>
    pending.deviceId = deviceId ∧ pending.identity.publicKey = publicKey).map (·.identity))

/-- Forget the key that waits for a request. -/
def removePendingPairing (m : DeviceAuthManager) (requestId : String) : DeviceAuthManager :=
  { m with pendingPairings := m.pendingPairings.erase requestId }

/-- Forget what is open for a device; how much it was. -/
def cancelPendingForDevice (m : DeviceAuthManager) (now : ℕ) (deviceId : DeviceId) :
    DeviceAuthManager × ℕ :=
  let m := m.pruneExpired now
  let pendingPairings := m.pendingPairings.retain fun _ pending => pending.deviceId ≠ deviceId
  let challenges := m.challenges.retain fun _ pending => pending.deviceId ≠ deviceId
  (⟨challenges, pendingPairings⟩,
    m.pendingPairings.size + m.challenges.size - pendingPairings.size - challenges.size)

/-- Forget everything that is open. -/
def clearPending (_ : DeviceAuthManager) : DeviceAuthManager := ⟨∅, ∅⟩

section Lookups

variable {m : DeviceAuthManager} {crypto : Crypto} {now later : ℕ} {d pc : DeviceId}
  {cert key nonce r r' x : String} {c : PendingChallenge} {p : PendingPairing}
  {auth : DeviceAuthRequest} {identity : VerifiedDeviceIdentity}
  {random : ℕ → Except String (List UInt8)} {requiresApproval : Bool}

theorem pruneExpired_challenge : (m.pruneExpired now).challenges.lookup x = some c ↔
    m.challenges.lookup x = some c ∧ now - c.createdAt ≤ challengeTtl := by
  rw [pruneExpired, Table.lookup_retain, Option.filter_eq_some_iff, decide_eq_true_iff]

theorem pruneExpired_pairing : (m.pruneExpired now).pendingPairings.lookup r = some p ↔
    m.pendingPairings.lookup r = some p ∧ now - p.createdAt ≤ pendingPairingTtl := by
  rw [pruneExpired, Table.lookup_retain, Option.filter_eq_some_iff, decide_eq_true_iff]

/-- Making a challenge does nothing, or only prunes, or adds the challenge it returns. -/
theorem begin_cases (m : DeviceAuthManager) (crypto : Crypto) (now later : ℕ)
    (random : ℕ → Except String (List UInt8)) (d pc : DeviceId) (cert : String)
    (requiresApproval : Bool) (key nonce : String) :
    (∃ error, m.begin crypto now later random d pc cert requiresApproval key nonce =
      (m, .error error)) ∨
    (∃ error, m.begin crypto now later random d pc cert requiresApproval key nonce =
      (m.pruneExpired now, .error error)) ∨
    ∃ challenge, m.begin crypto now later random d pc cert requiresApproval key nonce =
      ({ m.pruneExpired now with
          challenges := (m.pruneExpired now).challenges.insert challenge.challengeId
            ⟨d, pc, cert, key, nonce, challenge.challenge, later⟩ }, .ok challenge) := by
  unfold begin
  split
  · exact .inl ⟨_, rfl⟩
  · split
    · exact .inl ⟨_, rfl⟩
    · split
      · exact .inl ⟨_, rfl⟩
      · split
        · exact .inl ⟨_, rfl⟩
        · split
          · exact .inl ⟨_, rfl⟩
          · dsimp only
            split
            · exact .inr (.inl ⟨_, rfl⟩)
            · exact .inr (.inr ⟨⟨_, _, _, _, _, _⟩, rfl⟩)

/-- A challenge that is open after one was made is that one, or was open before. -/
theorem begin_challenge (h : (m.begin crypto now later random d pc cert requiresApproval key
      nonce).1.challenges.lookup x = some c) :
    m.challenges.lookup x = some c ∨ ∃ challenge, (m.begin crypto now later random d pc cert
      requiresApproval key nonce).2 = .ok challenge ∧ challenge.challengeId = x ∧
        c = ⟨d, pc, cert, key, nonce, challenge.challenge, later⟩ := by
  rcases begin_cases m crypto now later random d pc cert requiresApproval key nonce with
    ⟨error, heq⟩ | ⟨error, heq⟩ | ⟨challenge, heq⟩ <;> rw [heq] at h ⊢
  · exact .inl h
  · exact .inl (pruneExpired_challenge.mp h).1
  · rw [Table.lookup_insert_eq] at h
    by_cases hx : x = challenge.challengeId
    · rw [if_pos hx, Option.some_inj] at h
      exact .inr ⟨challenge, rfl, hx.symm, h.symm⟩
    · rw [if_neg hx] at h
      exact .inl (pruneExpired_challenge.mp h).1

theorem begin_pairing (h : (m.begin crypto now later random d pc cert requiresApproval key
      nonce).1.pendingPairings.lookup r = some p) : m.pendingPairings.lookup r = some p := by
  rcases begin_cases m crypto now later random d pc cert requiresApproval key nonce with
    ⟨error, heq⟩ | ⟨error, heq⟩ | ⟨challenge, heq⟩ <;> rw [heq] at h
  · exact h
  · exact (pruneExpired_pairing.mp h).1
  · exact (pruneExpired_pairing.mp h).1

/-- The check of an answer, passed. -/
theorem check_eq_ok {challengeId signature : String} (h : c.check crypto now d pc cert auth
      challengeId signature = .ok identity) : now - c.createdAt ≤ challengeTtl ∧
      c.deviceId = d ∧ c.pcId = pc ∧ c.pcCertificateFingerprint = cert ∧
      c.publicKey = auth.publicKey ∧ c.phoneNonce = auth.phoneNonce ∧
      verifyDeviceAuthSignature crypto auth.publicKey signature
        (buildDeviceAuthTranscript d pc cert auth.publicKey auth.phoneNonce challengeId
          c.challenge) = .ok () ∧
      identity.publicKey = auth.publicKey ∧
      devicePublicKeyFingerprint crypto auth.publicKey = .ok identity.fingerprint := by
  unfold PendingChallenge.check at h
  split at h
  · nomatch h
  · rename_i htime
    split at h
    · nomatch h
    · rename_i hmatch
      simp only [not_or, not_not] at hmatch
      obtain ⟨hd, hpc, hcert, hkey, hnonce⟩ := hmatch
      dsimp only at h
      split at h
      · nomatch h
      · rename_i hsig
        split at h
        · nomatch h
        · rename_i hprint
          cases h
          exact ⟨Nat.le_of_not_gt htime, hd, hpc, hcert, hkey, hnonce, hsig, rfl, hprint⟩

/-- A proof that passes answers an open challenge for this device and key, in time, with a
signature that verifies. -/
theorem verify_eq_ok (h : (m.verify crypto now later d pc cert auth).2 = .ok identity) :
    ∃ x signature c, auth.challengeId = some x ∧ auth.signature = some signature ∧
      m.challenges.lookup x = some c ∧ now - c.createdAt ≤ challengeTtl ∧
      c.check crypto later d pc cert auth x signature = .ok identity := by
  unfold verify at h
  split at h
  · nomatch h
  · split at h
    · nomatch h
    · rename_i x hx _ signature hsignature
      dsimp only at h
      split at h
      · nomatch h
      · rename_i c hc
        obtain ⟨hlookup, hrecent⟩ := pruneExpired_challenge.mp hc
        exact ⟨x, signature, c, hx, hsignature, hlookup, hrecent, h⟩

/-- What is open after a proof was open before, and is not the challenge it answered. -/
theorem verify_challenge (h : (m.verify crypto now later d pc cert auth).1.challenges.lookup x =
      some c) : m.challenges.lookup x = some c ∧
      (auth.challengeId = some x → auth.signature = none) := by
  unfold verify at h
  split at h
  · rename_i hnone
    exact ⟨h, by simp [hnone]⟩
  · split at h
    · rename_i hnone
      exact ⟨h, fun _ => hnone⟩
    · rename_i y hy _ signature _
      dsimp only at h
      split at h
      · rename_i hgone
        have hx := pruneExpired_challenge.mp h
        refine ⟨hx.1, fun heq => ?_⟩
        obtain rfl : y = x := Option.some.inj (hy.symm.trans heq)
        nomatch hgone.symm.trans h
      · rw [Table.lookup_erase_eq] at h
        split at h
        · nomatch h
        · rename_i hne
          refine ⟨(pruneExpired_challenge.mp h).1, fun heq => ?_⟩
          exact absurd (Option.some.inj (heq.symm.trans hy)) hne

theorem verify_pairing (h : (m.verify crypto now later d pc cert auth).1.pendingPairings.lookup r =
      some p) : m.pendingPairings.lookup r = some p := by
  unfold verify at h
  split at h
  · exact h
  · split at h
    · exact h
    · dsimp only at h
      split at h <;> exact (pruneExpired_pairing.mp h).1

theorem holdPendingPairing_pairing
    (h : (m.holdPendingPairing now later r' d identity).pendingPairings.lookup r = some p) :
    r = r' ∧ p = ⟨d, identity, later⟩ ∨ r ≠ r' ∧ m.pendingPairings.lookup r = some p := by
  rw [holdPendingPairing, Table.lookup_insert_eq] at h
  by_cases heq : r = r'
  · rw [if_pos heq, Option.some_inj] at h
    exact .inl ⟨heq, h.symm⟩
  · rw [if_neg heq] at h
    exact .inr ⟨heq, (pruneExpired_pairing.mp h).1⟩

theorem holdPendingPairing_challenge
    (h : (m.holdPendingPairing now later r d identity).challenges.lookup x = some c) :
    m.challenges.lookup x = some c :=
  (pruneExpired_challenge.mp h).1

/-- The waiting key is found for its own device and key only. -/
theorem pendingPairing_eq_some_iff :
    (m.pendingPairing now r d key).2 = some identity ↔ identity.publicKey = key ∧ ∃ createdAt,
      m.pendingPairings.lookup r = some ⟨d, identity, createdAt⟩ ∧
        now - createdAt ≤ pendingPairingTtl := by
  unfold pendingPairing
  rw [Option.map_eq_some_iff]
  constructor
  · rintro ⟨⟨device, _, createdAt⟩, hfilter, rfl⟩
    obtain ⟨hlookup, hmatch⟩ := Option.filter_eq_some_iff.mp hfilter
    obtain ⟨rfl, hkey⟩ := of_decide_eq_true hmatch
    exact ⟨hkey, createdAt, pruneExpired_pairing.mp hlookup⟩
  · rintro ⟨hkey, createdAt, hlookup, hrecent⟩
    refine ⟨⟨d, identity, createdAt⟩, ?_, rfl⟩
    exact Option.filter_eq_some_iff.mpr
      ⟨pruneExpired_pairing.mpr ⟨hlookup, hrecent⟩, decide_eq_true ⟨rfl, hkey⟩⟩

theorem removePendingPairing_pairing
    (h : (m.removePendingPairing r').pendingPairings.lookup r = some p) :
    m.pendingPairings.lookup r = some p := by
  rw [removePendingPairing, Table.lookup_erase_eq] at h
  split at h
  · nomatch h
  · exact h

theorem cancelPendingForDevice_challenge
    (h : (m.cancelPendingForDevice now d).1.challenges.lookup x = some c) :
    m.challenges.lookup x = some c := by
  rw [cancelPendingForDevice, Table.lookup_retain, Option.filter_eq_some_iff] at h
  exact (pruneExpired_challenge.mp h.1).1

theorem cancelPendingForDevice_pairing
    (h : (m.cancelPendingForDevice now d).1.pendingPairings.lookup r = some p) :
    m.pendingPairings.lookup r = some p := by
  rw [cancelPendingForDevice, Table.lookup_retain, Option.filter_eq_some_iff] at h
  exact (pruneExpired_pairing.mp h.1).1

end Lookups

end DeviceAuthManager

end Gemacast.Control
