import Gemacast.Core.Table
import Gemacast.Streamer.Pool

/-!
# Session authorization

The sessions of the devices, each with a bearer token and a number, and the connection
requests that wait for the user of the PC. Clock readings are nanoseconds of a monotonic
clock; an operation that reads the clock twice takes both readings.
-/

namespace Gemacast.Control

open Gemacast.Core Gemacast.Streamer

/-- Nanoseconds of a number of seconds. -/
def seconds (n : ℕ) : ℕ := n * 1000000000

/-- The bytes of a text. -/
def asBytes (s : String) : List UInt8 := s.toUTF8.data.toList

theorem asBytes_inj {s t : String} : asBytes s = asBytes t ↔ s = t := by
  unfold asBytes
  rw [← String.toByteArray_inj, ByteArray.ext_iff]
  exact Array.toList_inj

/-- Compare without stopping at the first difference. -/
def constantTimeEq (left right : List UInt8) : Bool :=
  if left.length ≠ right.length then false
  else (left.zip right).foldl
    (fun difference (pair : UInt8 × UInt8) => difference ||| (pair.1 ^^^ pair.2)) 0 == 0

/-- The comparison is equality. -/
theorem constantTimeEq_iff {left right : List UInt8} :
    constantTimeEq left right = true ↔ left = right := by
  have hfold (difference : UInt8) : left.length = right.length →
      ((left.zip right).foldl
        (fun difference (pair : UInt8 × UInt8) => difference ||| (pair.1 ^^^ pair.2))
        difference = 0 ↔ difference = 0 ∧ left = right) := by
    induction left generalizing right difference with
    | nil =>
      intro hlen
      rw [List.length_nil, eq_comm, List.length_eq_zero_iff] at hlen
      simp [hlen]
    | cons l left ih =>
      intro hlen
      cases right with
      | nil => nomatch hlen
      | cons r right =>
        rw [List.zip_cons_cons, List.foldl_cons, ih _ (Nat.succ.inj hlen), UInt8.or_eq_zero_iff,
          UInt8.xor_eq_zero_iff, List.cons.injEq, and_assoc]
  unfold constantTimeEq
  by_cases hlen : left.length = right.length
  · rw [if_neg (not_not.mpr hlen), beq_iff_eq, hfold 0 hlen]
    simp
  · rw [if_pos hlen]
    exact iff_of_false Bool.false_ne_true fun h => hlen (congrArg List.length h)

/-- The number of a session. -/
abbrev SessionGeneration := UInt64

/-- A session somebody has shown the token of. -/
structure AuthorizedSession where
  /-- The device. -/
  deviceId : DeviceId
  /-- The number of the session. -/
  generation : SessionGeneration
  deriving DecidableEq, Repr

/-- Credentials that are not valid yet. -/
structure PendingSession where
  /-- The device. -/
  deviceId : DeviceId
  /-- The token. -/
  token : String
  /-- The number of the session. -/
  generation : SessionGeneration
  deriving DecidableEq, Repr

/-- The session of a device. -/
structure SessionRecord where
  /-- The token. -/
  token : String
  /-- The number of the session. -/
  generation : SessionGeneration
  deriving DecidableEq, Repr

/-- How long a connection request waits for the user of the PC. -/
def pendingApprovalTtl : ℕ := seconds 65

/-- What the user of the PC has said to a request. -/
inductive PendingApprovalStatus
  | pending
  | approved
  | rejected
  deriving DecidableEq, Repr

/-- A connection request. -/
structure PendingApproval where
  /-- The device that asks. -/
  deviceId : DeviceId
  /-- What the user has said. -/
  status : PendingApprovalStatus
  /-- When it was asked. -/
  createdAt : ℕ
  deriving DecidableEq, Repr

/-- The authorization state. -/
structure SessionAuthorizer where
  /-- The session of every device. -/
  sessions : Table DeviceId SessionRecord
  /-- The connection requests by their identity. -/
  pending : Table String PendingApproval
  /-- The number given out last. -/
  nextGeneration : UInt64

namespace SessionAuthorizer

/-- Nobody has a session. -/
def new : SessionAuthorizer := ⟨∅, ∅, 0⟩

/-- Drop the requests that have waited too long. -/
def prunePending (a : SessionAuthorizer) (now : ℕ) : SessionAuthorizer :=
  { a with
    pending := a.pending.retain fun _ request =>
      decide (now - request.createdAt ≤ pendingApprovalTtl) }

/-- The identity of a request, from 16 random bytes. -/
def pendingRequestId (hexEncode : List UInt8 → String) (random : Except String (List UInt8)) :
    Except String String :=
  match random with
  | .error error => .error s!"failed to generate request id: {error}"
  | .ok bytes => .ok (hexEncode bytes)

/-- Ask for the user's approval; a device has one request at a time. -/
def createPending (a : SessionAuthorizer) (now later : ℕ) (requestId : Except String String)
    (deviceId : DeviceId) : SessionAuthorizer × Except String String :=
  match requestId with
  | .error error => (a, .error error)
  | .ok requestId =>
    let a := a.prunePending now
    let others := a.pending.retain fun _ request => request.deviceId ≠ deviceId
    ({ a with pending := others.insert requestId ⟨deviceId, .pending, later⟩ }, .ok requestId)

/-- What the user has said to a request of the device. -/
def pendingStatus (a : SessionAuthorizer) (now : ℕ) (requestId : String) (deviceId : DeviceId) :
    SessionAuthorizer × Option PendingApprovalStatus :=
  let a := a.prunePending now
  (a, ((a.pending.lookup requestId).filter fun request => request.deviceId = deviceId).map
    (·.status))

/-- Write down what the user has said, once. -/
def resolvePending (a : SessionAuthorizer) (now : ℕ) (requestId : String) (approved : Bool) :
    SessionAuthorizer × Bool :=
  let a := a.prunePending now
  match a.pending.lookup requestId with
  | none => (a, false)
  | some request =>
    if request.status ≠ .pending then (a, false)
    else
      let status := if approved then .approved else .rejected
      ({ a with pending := a.pending.insert requestId { request with status } }, true)

/-- Forget a request. -/
def removePending (a : SessionAuthorizer) (requestId : String) : SessionAuthorizer :=
  { a with pending := a.pending.erase requestId }

/-- Forget the requests of a device; how many there were. -/
def cancelPendingForDevice (a : SessionAuthorizer) (now : ℕ) (deviceId : DeviceId) :
    SessionAuthorizer × ℕ :=
  let a := a.prunePending now
  let others := a.pending.retain fun _ request => request.deviceId ≠ deviceId
  ({ a with pending := others }, a.pending.size - others.size)

/-- Make credentials of a new number; the session of the device stays valid. -/
def prepare (a : SessionAuthorizer) (hexEncode : List UInt8 → String)
    (random : Except String (List UInt8)) (deviceId : DeviceId) :
    SessionAuthorizer × Except String PendingSession :=
  match random with
  | .error error => (a, .error s!"failed to generate session token: {error}")
  | .ok bytes =>
    let generation := Streamer.nextGeneration a.nextGeneration
    ({ a with nextGeneration := generation }, .ok ⟨deviceId, hexEncode bytes, generation⟩)

/-- Make credentials the session of their device. -/
def commit (a : SessionAuthorizer) (pending : PendingSession) :
    SessionAuthorizer × Except String (String × SessionGeneration) :=
  ({ a with
      sessions := a.sessions.insert pending.deviceId ⟨pending.token, pending.generation⟩ },
    .ok (pending.token, pending.generation))

/-- The session of a device, for its token. -/
def authenticate (a : SessionAuthorizer) (deviceId : DeviceId) (token : String) :
    Option AuthorizedSession :=
  match a.sessions.lookup deviceId with
  | none => none
  | some record =>
    if constantTimeEq (asBytes record.token) (asBytes token) then
      some ⟨deviceId, record.generation⟩
    else none

/-- The first session with a token, in the order of a search. -/
def authenticateToken (a : SessionAuthorizer) (order : List DeviceId) (token : String) :
    Option AuthorizedSession :=
  (a.sessions.keysInOrder order).findSome? fun deviceId => a.authenticate deviceId token

/-- The device's session has this number. -/
def isCurrent (a : SessionAuthorizer) (deviceId : DeviceId) (generation : SessionGeneration) :
    Bool :=
  (a.sessions.lookup deviceId).map (·.generation) = some generation

/-- The device has a session. -/
def hasSession (a : SessionAuthorizer) (deviceId : DeviceId) : Bool :=
  (a.sessions.lookup deviceId).isSome

/-- End the session of a device, or only the one with a number; whether there was one. -/
def revoke (a : SessionAuthorizer) (deviceId : DeviceId) (generation : Option SessionGeneration) :
    SessionAuthorizer × Bool :=
  if generation.any fun generation => !a.isCurrent deviceId generation then (a, false)
  else ({ a with sessions := a.sessions.erase deviceId }, a.hasSession deviceId)

/-- End all sessions and forget all requests. -/
def revokeAll (a : SessionAuthorizer) : SessionAuthorizer :=
  { a with sessions := ∅, pending := ∅ }

section Lookups

variable {a : SessionAuthorizer} {now later : ℕ} {d d' : DeviceId} {r r' : String}
  {p : PendingApproval} {g : SessionGeneration} {token : String}

/-- A token opens the session it belongs to and no other. -/
theorem authenticate_eq_some_iff {session : AuthorizedSession} :
    a.authenticate d token = some session ↔
      session.deviceId = d ∧ a.sessions.lookup d = some ⟨token, session.generation⟩ := by
  obtain ⟨device, generation⟩ := session
  unfold authenticate
  cases hlookup : a.sessions.lookup d with
  | none => simp
  | some record =>
    obtain ⟨token', generation'⟩ := record
    simp only [constantTimeEq_iff, asBytes_inj]
    by_cases htoken : token' = token
    · simp [htoken, eq_comm]
    · simp [htoken]

theorem isCurrent_iff :
    a.isCurrent d g = true ↔ ∃ token, a.sessions.lookup d = some ⟨token, g⟩ := by
  unfold isCurrent
  rw [decide_eq_true_iff, Option.map_eq_some_iff]
  constructor
  · rintro ⟨⟨token, _⟩, hlookup, rfl⟩
    exact ⟨token, hlookup⟩
  · rintro ⟨token, hlookup⟩
    exact ⟨_, hlookup, rfl⟩

@[simp] theorem prunePending_sessions : (a.prunePending now).sessions = a.sessions := rfl

/-- What pruning leaves was there before, and is recent. -/
theorem prunePending_lookup : (a.prunePending now).pending.lookup r = some p ↔
    a.pending.lookup r = some p ∧ now - p.createdAt ≤ pendingApprovalTtl := by
  rw [prunePending, Table.lookup_retain, Option.filter_eq_some_iff, decide_eq_true_iff]

/-- Who has asked after one more request: the asker, and others that asked before. -/
theorem createPending_lookup
    (h : (a.createPending now later (.ok r') d).1.pending.lookup r = some p) :
    r = r' ∧ p = ⟨d, .pending, later⟩ ∨ r ≠ r' ∧ a.pending.lookup r = some p := by
  rw [createPending, Table.lookup_insert_eq] at h
  by_cases heq : r = r'
  · rw [if_pos heq, Option.some_inj] at h
    exact .inl ⟨heq, h.symm⟩
  · rw [if_neg heq, Table.lookup_retain, Option.filter_eq_some_iff] at h
    exact .inr ⟨heq, (prunePending_lookup.mp h.1).1⟩

/-- An answer of the user is read off a recent request of the device. -/
theorem pendingStatus_eq_some_iff {status : PendingApprovalStatus} :
    (a.pendingStatus now r d).2 = some status ↔ ∃ createdAt,
      a.pending.lookup r = some ⟨d, status, createdAt⟩ ∧ now - createdAt ≤ pendingApprovalTtl := by
  unfold pendingStatus
  rw [Option.map_eq_some_iff]
  constructor
  · rintro ⟨⟨device, _, createdAt⟩, hfilter, rfl⟩
    obtain ⟨hlookup, hdevice⟩ := (Option.filter_eq_some_iff).mp hfilter
    obtain rfl : device = d := of_decide_eq_true hdevice
    exact ⟨createdAt, prunePending_lookup.mp hlookup⟩
  · rintro ⟨createdAt, hlookup, hrecent⟩
    refine ⟨⟨d, status, createdAt⟩, ?_, rfl⟩
    exact Option.filter_eq_some_iff.mpr
      ⟨prunePending_lookup.mpr ⟨hlookup, hrecent⟩, decide_eq_true rfl⟩

/-- The user's answer changes the request it is about, and no other. -/
theorem resolvePending_lookup {approved : Bool}
    (h : (a.resolvePending now r' approved).1.pending.lookup r = some p) :
    a.pending.lookup r = some p ∨ r = r' ∧ (a.resolvePending now r' approved).2 = true ∧
      a.pending.lookup r = some { p with status := .pending } ∧
      p.status = if approved then .approved else .rejected := by
  unfold resolvePending at h ⊢
  cases hlookup : (a.prunePending now).pending.lookup r' with
  | none =>
    simp only [hlookup] at h
    exact .inl (prunePending_lookup.mp h).1
  | some request =>
    simp only [hlookup] at h ⊢
    by_cases hstatus : request.status = .pending
    · simp only [hstatus, ne_eq, not_true_eq_false, if_false] at h ⊢
      rw [Table.lookup_insert_eq] at h
      by_cases heq : r = r'
      · rw [if_pos heq, Option.some_inj] at h
        subst heq h
        refine .inr ⟨rfl, trivial, ?_, rfl⟩
        rw [(prunePending_lookup.mp hlookup).1, ← hstatus]
      · rw [if_neg heq] at h
        exact .inl (prunePending_lookup.mp h).1
    · simp only [hstatus, ne_eq, not_false_eq_true, if_true] at h
      exact .inl (prunePending_lookup.mp h).1

/-- Asking for approval leaves the sessions alone. -/
theorem createPending_sessions {requestId : Except String String} :
    (a.createPending now later requestId d).1.sessions = a.sessions ∧
      (a.createPending now later requestId d).1.nextGeneration = a.nextGeneration := by
  cases requestId <;> exact ⟨rfl, rfl⟩

/-- The user's answer leaves the sessions alone. -/
theorem resolvePending_sessions {approved : Bool} :
    (a.resolvePending now r approved).1.sessions = a.sessions ∧
      (a.resolvePending now r approved).1.nextGeneration = a.nextGeneration := by
  unfold resolvePending
  dsimp only
  split
  · exact ⟨rfl, rfl⟩
  · split <;> exact ⟨rfl, rfl⟩

theorem removePending_lookup :
    (a.removePending r').pending.lookup r = if r = r' then none else a.pending.lookup r :=
  Table.lookup_erase_eq

/-- Cancelling a device's requests leaves only requests that were there. -/
theorem cancelPendingForDevice_lookup
    (h : (a.cancelPendingForDevice now d).1.pending.lookup r = some p) :
    a.pending.lookup r = some p := by
  rw [cancelPendingForDevice, Table.lookup_retain, Option.filter_eq_some_iff] at h
  exact (prunePending_lookup.mp h.1).1

theorem commit_lookup {pending : PendingSession} :
    (a.commit pending).1.sessions.lookup d =
      if d = pending.deviceId then some ⟨pending.token, pending.generation⟩
      else a.sessions.lookup d :=
  Table.lookup_insert_eq

/-- Ending a session ends that of the device, or none. -/
theorem revoke_lookup {generation : Option SessionGeneration} :
    (a.revoke d' generation).1.sessions.lookup d =
      if d = d' ∧ generation.all (a.isCurrent d') then none else a.sessions.lookup d := by
  unfold revoke
  cases generation with
  | none => simp [Table.lookup_erase_eq]
  | some g => cases hcurrent : a.isCurrent d' g <;> simp [hcurrent, Table.lookup_erase_eq]

end Lookups

end SessionAuthorizer

end Gemacast.Control
