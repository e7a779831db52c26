import Gemacast.Core.Provenance
import Gemacast.Control.DelayedRequests
import Gemacast.Control.TrustRuns

/-!
# Where challenges, requests and sessions come from

What the stores of the PC hold at any time of any run, in terms of the calls that put it there
and of those that would have taken it away since: an open challenge, a key that waits for its
approval, a request and the answer of the user to it, a question to the user, a trusted key, a
session and the presence of a device.
-/

namespace Gemacast.Control

open Gemacast.Core Gemacast.Streamer TaskSystem

/-- The stores the tasks work on. -/
inductive StoreKind
  | authorizer
  | deviceAuth
  | trustedDevices
  | registry
  | queue
  | approvals
  | other
  deriving DecidableEq, Repr

/-- The store of an operation. -/
def ControlOp.store : ControlOp → StoreKind
  | .authenticate .. | .authenticateToken _ | .createPending _ | .pendingStatus ..
  | .resolvePending .. | .removePending _ | .cancelPendingForDevice _ | .prepare _ | .commit _
  | .isCurrent .. | .revoke .. | .revokeAll => .authorizer
  | .begin .. | .verify .. | .holdPendingPairing .. | .pendingPairing .. | .removePendingPairing _
  | .cancelPairingsForDevice _ | .clearPairings => .deviceAuth
  | .isTrusted .. | .publicKey _ | .trust .. | .forget _ => .trustedDevices
  | .register .. | .unregister _ | .updateLastSeen _ | .getAddr _ | .drainAll
  | .evictStale _ => .registry
  | .send _ => .queue
  | .requestApproval _ => .approvals
  | _ => .other

/-- Every other store is as it was. -/
structure Untouched (kind : StoreKind) (s t : Stores) : Prop where
  authorizer : kind ≠ .authorizer → t.authorizer = s.authorizer
  deviceAuth : kind ≠ .deviceAuth → t.deviceAuth = s.deviceAuth
  trustedDevices : kind ≠ .trustedDevices → t.trustedDevices = s.trustedDevices
  registry : kind ≠ .registry → t.registry = s.registry
  queue : kind ≠ .queue → t.queue = s.queue
  approvals : kind ≠ .approvals → t.approvals = s.approvals
  /-- Time does not run backwards. -/
  now : s.now ≤ t.now

/-- Nothing is put into the tables and the channels from outside. -/
structure Passive (s t : Stores) : Prop where
  authorizer : t.authorizer = s.authorizer
  deviceAuth : t.deviceAuth = s.deviceAuth
  trustedDevices : t.trustedDevices = s.trustedDevices
  registry : t.registry = s.registry
  queue : ∀ command ∈ t.queue, command ∈ s.queue
  approvals : ∀ request ∈ t.approvals, request ∈ s.approvals
  /-- Time does not run backwards. -/
  now : s.now ≤ t.now

section Frames

variable {crypto : Crypto} {world : World} {s t : Stores} {op : ControlOp} {answer : Answer op}

/-- All the stores are as they were. -/
theorem untouched_of_eq {kind : StoreKind} (hauthorizer : t.authorizer = s.authorizer)
    (hdeviceAuth : t.deviceAuth = s.deviceAuth)
    (htrusted : t.trustedDevices = s.trustedDevices) (hregistry : t.registry = s.registry)
    (hqueue : t.queue = s.queue) (happrovals : t.approvals = s.approvals) (hnow : s.now ≤ t.now) :
    Untouched kind s t :=
  ⟨fun _ => hauthorizer, fun _ => hdeviceAuth, fun _ => htrusted, fun _ => hregistry,
    fun _ => hqueue, fun _ => happrovals, hnow⟩

theorem untouched_refl (kind : StoreKind) (s : Stores) : Untouched kind s s :=
  untouched_of_eq rfl rfl rfl rfl rfl rfl le_rfl

theorem audioCommand_fst (command : AudioStreamCommand) : (s.audioCommand world command).1 =
    (s.engineStep (.command command world.platform)).1 := by
  unfold Stores.audioCommand
  dsimp only
  split <;> rfl

/-- An operation works on its own store. -/
theorem execute_untouched (h : s.execute crypto world op = some (t, answer)) :
    Untouched op.store s t := by
  have hafter : s.now ≤ s.after world := Nat.le_add_right _ _
  cases op with
  | audio command =>
    obtain rfl : (s.audioCommand world command).1 = t := congrArg Prod.fst (Option.some.inj h)
    rw [audioCommand_fst]
    exact untouched_of_eq rfl rfl rfl rfl rfl rfl le_rfl
  | openBroadcaster =>
    unfold Stores.execute at h
    dsimp only at h
    split at h
    · obtain ⟨rfl, -⟩ := Prod.mk.inj (Option.some.inj h)
      exact untouched_refl _ _
    · obtain ⟨rfl, -⟩ := Prod.mk.inj (Option.some.inj h)
      exact untouched_of_eq rfl rfl rfl rfl rfl rfl le_rfl
  | send command =>
    unfold Stores.execute at h
    dsimp only at h
    split at h
    · obtain ⟨rfl, -⟩ := Prod.mk.inj (Option.some.inj h)
      exact untouched_refl _ _
    · split at h
      · obtain ⟨rfl, -⟩ := Prod.mk.inj (Option.some.inj h)
        exact ⟨fun _ => rfl, fun _ => rfl, fun _ => rfl, fun _ => rfl, fun hne => absurd rfl hne,
          fun _ => rfl, le_rfl⟩
      · cases h
  | awaitResponse responseRx timeout =>
    unfold Stores.execute at h
    dsimp only at h
    split at h
    · obtain ⟨rfl, -⟩ := Prod.mk.inj (Option.some.inj h)
      exact untouched_refl _ _
    · split at h
      · obtain ⟨rfl, -⟩ := Prod.mk.inj (Option.some.inj h)
        exact untouched_refl _ _
      · split at h
        · obtain ⟨rfl, -⟩ := Prod.mk.inj (Option.some.inj h)
          exact untouched_refl _ _
        · cases h
  | _ =>
    obtain ⟨rfl, -⟩ := Prod.mk.inj (Option.some.inj h)
    constructor <;> first | exact fun _ => rfl | exact fun hne => absurd rfl hne | assumption |
      exact le_rfl

theorem passive_refl (s : Stores) : Passive s s :=
  ⟨rfl, rfl, rfl, rfl, fun _ h => h, fun _ h => h, le_rfl⟩

/-- A job is taken from the channels. -/
theorem accept_passive {id : TaskId} {job : Job} (h : s.accept id job = some t) : Passive s t := by
  unfold Stores.accept at h
  split at h
  · split at h
    · cases h
    · next hqueue =>
      split at h
      · obtain rfl := Option.some.inj h
        exact ⟨rfl, rfl, rfl, rfl, fun _ hmem => hqueue ▸ List.mem_cons_of_mem _ hmem,
          fun _ hmem => hmem, le_rfl⟩
      · cases h
  · split at h
    · cases h
    · obtain rfl := Option.some.inj h
      exact passive_refl _
  · obtain rfl := Option.some.inj h
    exact passive_refl _
  · split at h
    · cases h
    · split at h
      · obtain rfl := Option.some.inj h
        exact ⟨rfl, rfl, rfl, rfl, fun _ hmem => hmem, fun _ hmem => hmem, le_rfl⟩
      · cases h
  · obtain rfl := Option.some.inj h
    exact passive_refl _
  · split at h
    · obtain rfl := Option.some.inj h
      exact passive_refl _
    · cases h
  · split at h
    · obtain rfl := Option.some.inj h
      exact ⟨rfl, rfl, rfl, rfl, fun _ hmem => hmem, fun _ hmem => List.mem_of_mem_erase hmem,
        le_rfl⟩
    · cases h
  · cases h

theorem outside_passive (s : Stores) (change : Change) : Passive s (s.outside change) := by
  cases change with
  | elapse duration =>
    exact ⟨rfl, rfl, rfl, rfl, fun _ hmem => hmem, fun _ hmem => hmem, Nat.le_add_right _ _⟩
  | streamFailure failure order | transportClosed deviceId generation =>
    exact ⟨rfl, rfl, rfl, rfl, fun _ hmem => hmem, fun _ hmem => hmem, le_rfl⟩

end Frames

/-- The PC from its start. -/
abbrev startedPc (crypto : Crypto) (self : ControlDispatcher) (now : ℕ)
    (trustedDevices : TrustedDeviceStore) (supportsProcessCapture : Bool) :
    TaskSystem Stores World ControlOp Answer TaskId Job Change :=
  service crypto self (.boot now trustedDevices supportsProcessCapture)

variable {crypto : Crypto} {self : ControlDispatcher} {start : ℕ}
  {trustedDevices : TrustedDeviceStore} {supportsProcessCapture : Bool}
  {turns : List (Turn World TaskId Job Change)} {world : World} {s t : Stores} {op : ControlOp}
  {answer : Answer op} {x r : String} {d : DeviceId}

/-- What the tables of the PC hold was there at its start, or a call put it there, and no call has
removed it since. -/
theorem kept_or_stored {κ ν : Type} (entry : Stores → κ → Option ν)
    (Puts : κ → ν → Stores → Stores → ControlCall → Prop) (Removes : κ → ν → ControlCall → Prop)
    (hentry : ∀ s t : Stores, t.authorizer = s.authorizer → t.deviceAuth = s.deviceAuth →
      t.trustedDevices = s.trustedDevices → entry t = entry s)
    (hexecute : ∀ {world s op t answer k v}, s.execute crypto world op = some (t, answer) →
      entry t k = some v → Puts k v s t ⟨op, answer⟩ ∨
        entry s k = some v ∧ ¬Removes k v ⟨op, answer⟩) {k : κ} {v : ν}
    (h : entry ((startedPc crypto self start trustedDevices supportsProcessCapture).machine.run
      turns).shared k = some v) :
    (entry (.boot start trustedDevices supportsProcessCapture) k = some v ∧
      ∀ e ∈ (startedPc crypto self start trustedDevices supportsProcessCapture).machine.events
        turns, ¬Made (fun _ _ => Removes k v) e) ∨
      Since (fun _ => Made (Puts k v)) (Made fun _ _ => Removes k v)
        ((startedPc crypto self start trustedDevices supportsProcessCapture).machine.events
          turns) := by
  refine kept_or_since _ entry Puts Removes (fun s id job t k v haccept hlater => ?_)
    (fun s change k v hlater => ?_) (fun _ _ _ _ _ _ _ => hexecute) h
  · have hpassive := accept_passive haccept
    rwa [hentry s t hpassive.authorizer hpassive.deviceAuth hpassive.trustedDevices] at hlater
  · have hpassive := outside_passive s change
    rwa [← hentry s (s.outside change) hpassive.authorizer hpassive.deviceAuth
      hpassive.trustedDevices]

/-- What a table that is empty at the start holds, a call put there. -/
theorem stored_since {κ ν : Type} (entry : Stores → κ → Option ν)
    (Puts : κ → ν → Stores → Stores → ControlCall → Prop) (Removes : κ → ν → ControlCall → Prop)
    (hempty : ∀ k, entry (.boot start trustedDevices supportsProcessCapture) k = none)
    (hentry : ∀ s t : Stores, t.authorizer = s.authorizer → t.deviceAuth = s.deviceAuth →
      t.trustedDevices = s.trustedDevices → entry t = entry s)
    (hexecute : ∀ {world s op t answer k v}, s.execute crypto world op = some (t, answer) →
      entry t k = some v → Puts k v s t ⟨op, answer⟩ ∨
        entry s k = some v ∧ ¬Removes k v ⟨op, answer⟩) {k : κ} {v : ν}
    (h : entry ((startedPc crypto self start trustedDevices supportsProcessCapture).machine.run
      turns).shared k = some v) :
    Since (fun _ => Made (Puts k v)) (Made fun _ _ => Removes k v)
      ((startedPc crypto self start trustedDevices supportsProcessCapture).machine.events
        turns) := by
  obtain ⟨hfirst, -⟩ | hsince := kept_or_stored entry Puts Removes hentry hexecute h
  · cases (hempty k).symm.trans hfirst
  · exact hsince

section Challenges

variable {c : PendingChallenge}

/-- A challenge is made. -/
def Challenged (x : String) (c : PendingChallenge) (t : Stores) (call : ControlCall) : Prop :=
  c.createdAt = t.now ∧ ∃ requiresApproval challenge,
    call = ⟨.begin c.deviceId c.pcId c.pcCertificateFingerprint requiresApproval c.publicKey
      c.phoneNonce, .ok challenge⟩ ∧ challenge.challengeId = x ∧ challenge.challenge = c.challenge

/-- A challenge is answered, well or not. -/
def Spent (x : String) (call : ControlCall) : Prop :=
  ∃ d pc cert auth answer, call = ⟨.verify d pc cert auth, answer⟩ ∧ auth.challengeId = some x ∧
    auth.signature ≠ none

theorem execute_challenge (h : s.execute crypto world op = some (t, answer))
    (hlater : t.deviceAuth.challenges.lookup x = some c) : Challenged x c t ⟨op, answer⟩ ∨
      s.deviceAuth.challenges.lookup x = some c ∧ ¬Spent x ⟨op, answer⟩ := by
  by_cases hstore : op.store = .deviceAuth
  · cases op with
    | begin d pc cert requiresApproval key nonce =>
      obtain ⟨rfl, rfl⟩ := Prod.mk.inj (Option.some.inj h)
      obtain hbefore | ⟨challenge, hok, hid, rfl⟩ := DeviceAuthManager.begin_challenge hlater
      · exact .inr ⟨hbefore, by rintro ⟨_, _, _, _, _, ⟨⟩, -⟩⟩
      · exact .inl ⟨rfl, requiresApproval, challenge, by rw [← hok], hid, rfl⟩
    | verify d pc cert auth =>
      obtain ⟨rfl, rfl⟩ := Prod.mk.inj (Option.some.inj h)
      obtain ⟨hbefore, hunsigned⟩ := DeviceAuthManager.verify_challenge hlater
      refine .inr ⟨hbefore, ?_⟩
      rintro ⟨d', pc', cert', auth', answer', heq, hid, hsigned⟩
      obtain ⟨-, -, -, rfl⟩ := ControlOp.verify.inj (Called.mk.inj heq).1
      exact hsigned (hunsigned hid)
    | holdPendingPairing requestId d identity =>
      obtain ⟨rfl, -⟩ := Prod.mk.inj (Option.some.inj h)
      exact .inr ⟨DeviceAuthManager.holdPendingPairing_challenge hlater,
        by rintro ⟨_, _, _, _, _, ⟨⟩, -⟩⟩
    | pendingPairing requestId d key =>
      obtain ⟨rfl, -⟩ := Prod.mk.inj (Option.some.inj h)
      exact .inr ⟨(DeviceAuthManager.pruneExpired_challenge.mp hlater).1,
        by rintro ⟨_, _, _, _, _, ⟨⟩, -⟩⟩
    | removePendingPairing requestId =>
      obtain ⟨rfl, -⟩ := Prod.mk.inj (Option.some.inj h)
      exact .inr ⟨hlater, by rintro ⟨_, _, _, _, _, ⟨⟩, -⟩⟩
    | cancelPairingsForDevice d =>
      obtain ⟨rfl, -⟩ := Prod.mk.inj (Option.some.inj h)
      exact .inr ⟨DeviceAuthManager.cancelPendingForDevice_challenge hlater,
        by rintro ⟨_, _, _, _, _, ⟨⟩, -⟩⟩
    | clearPairings =>
      obtain ⟨rfl, -⟩ := Prod.mk.inj (Option.some.inj h)
      cases hlater
    | _ => cases hstore
  · rw [(execute_untouched h).deviceAuth (Ne.symm hstore |>.symm)] at hlater
    refine .inr ⟨hlater, ?_⟩
    rintro ⟨_, _, _, _, _, ⟨⟩, -⟩
    exact hstore rfl

/-- An open challenge was made for its device and key, and not answered since. -/
theorem challenge_origin
    (h : ((startedPc crypto self start trustedDevices supportsProcessCapture).machine.run
      turns).shared.deviceAuth.challenges.lookup x = some c) :
    Since (fun _ => Made fun _ => Challenged x c) (Made fun _ _ => Spent x)
      ((startedPc crypto self start trustedDevices supportsProcessCapture).machine.events turns) :=
  stored_since (fun s x => s.deviceAuth.challenges.lookup x) (fun x c _ => Challenged x c)
    (fun x _ => Spent x) (fun _ => rfl) (fun _ _ _ hdeviceAuth _ => by simp only [hdeviceAuth])
    execute_challenge h

end Challenges

section Pairings

variable {p : PendingPairing}

/-- A proved key is put aside for a request. -/
def Held (r : String) (p : PendingPairing) (t : Stores) (call : ControlCall) : Prop :=
  p.createdAt = t.now ∧ call = ⟨.holdPendingPairing r p.deviceId p.identity, ()⟩

/-- The key that waits for a request is given up. -/
inductive Released (r : String) (d : DeviceId) : ControlCall → Prop
  | removed : Released r d ⟨.removePendingPairing r, ()⟩
  | cancelled (n : ℕ) : Released r d ⟨.cancelPairingsForDevice d, n⟩
  | cleared : Released r d ⟨.clearPairings, ()⟩

theorem execute_pairing (h : s.execute crypto world op = some (t, answer))
    (hlater : t.deviceAuth.pendingPairings.lookup r = some p) : Held r p t ⟨op, answer⟩ ∨
      s.deviceAuth.pendingPairings.lookup r = some p ∧ ¬Released r p.deviceId ⟨op, answer⟩ := by
  by_cases hstore : op.store = .deviceAuth
  · cases op with
    | begin d pc cert requiresApproval key nonce =>
      obtain ⟨rfl, -⟩ := Prod.mk.inj (Option.some.inj h)
      exact .inr ⟨DeviceAuthManager.begin_pairing hlater, by rintro ⟨⟩⟩
    | verify d pc cert auth =>
      obtain ⟨rfl, -⟩ := Prod.mk.inj (Option.some.inj h)
      exact .inr ⟨DeviceAuthManager.verify_pairing hlater, by rintro ⟨⟩⟩
    | holdPendingPairing requestId d identity =>
      obtain ⟨rfl, -⟩ := Prod.mk.inj (Option.some.inj h)
      obtain ⟨rfl, rfl⟩ | ⟨-, hbefore⟩ := DeviceAuthManager.holdPendingPairing_pairing hlater
      · exact .inl ⟨rfl, rfl⟩
      · exact .inr ⟨hbefore, by rintro ⟨⟩⟩
    | pendingPairing requestId d key =>
      obtain ⟨rfl, -⟩ := Prod.mk.inj (Option.some.inj h)
      exact .inr ⟨(DeviceAuthManager.pruneExpired_pairing.mp hlater).1, by rintro ⟨⟩⟩
    | removePendingPairing requestId =>
      obtain ⟨rfl, -⟩ := Prod.mk.inj (Option.some.inj h)
      refine .inr ⟨DeviceAuthManager.removePendingPairing_pairing hlater, ?_⟩
      rintro ⟨⟩
      cases (AList.lookup_erase _ _).symm.trans hlater
    | cancelPairingsForDevice d =>
      obtain ⟨rfl, -⟩ := Prod.mk.inj (Option.some.inj h)
      refine .inr ⟨DeviceAuthManager.cancelPendingForDevice_pairing hlater, ?_⟩
      rintro ⟨⟩
      have hother := (Option.filter_eq_some_iff.mp ((Table.lookup_retain _).symm.trans hlater)).2
      exact of_decide_eq_true hother rfl
    | clearPairings =>
      obtain ⟨rfl, -⟩ := Prod.mk.inj (Option.some.inj h)
      cases hlater
    | _ => cases hstore
  · rw [(execute_untouched h).deviceAuth hstore] at hlater
    refine .inr ⟨hlater, ?_⟩
    rintro ⟨⟩ <;> exact hstore rfl

/-- A key that waits for a request was put aside for it, and not given up since. -/
theorem pairing_origin
    (h : ((startedPc crypto self start trustedDevices supportsProcessCapture).machine.run
      turns).shared.deviceAuth.pendingPairings.lookup r = some p) :
    Since (fun _ => Made fun _ => Held r p) (Made fun _ _ => Released r p.deviceId)
      ((startedPc crypto self start trustedDevices supportsProcessCapture).machine.events turns) :=
  stored_since (fun s r => s.deviceAuth.pendingPairings.lookup r) (fun r p _ => Held r p)
    (fun r p => Released r p.deviceId) (fun _ => rfl)
    (fun _ _ _ hdeviceAuth _ => by simp only [hdeviceAuth]) execute_pairing h

end Pairings

section Requests

variable {p : PendingApproval}

/-- A request is made. -/
def Requested (r : String) (d : DeviceId) (createdAt : ℕ) (t : Stores) (call : ControlCall) :
    Prop :=
  createdAt = t.now ∧ call = ⟨.createPending d, .ok r⟩

/-- The user approves a request that waits, in time. -/
def Approves (r : String) (p : PendingApproval) (s : Stores) (call : ControlCall) : Prop :=
  call = ⟨.resolvePending r true, true⟩ ∧
    s.authorizer.pending.lookup r = some { p with status := .pending } ∧
    s.now - p.createdAt ≤ pendingApprovalTtl

/-- A request of a device is withdrawn, or another one takes its place. -/
inductive Withdrawn (r : String) (d : DeviceId) : ControlCall → Prop
  | removed : Withdrawn r d ⟨.removePending r, ()⟩
  | cancelled (n : ℕ) : Withdrawn r d ⟨.cancelPendingForDevice d, n⟩
  | replaced (r' : String) : Withdrawn r d ⟨.createPending d, .ok r'⟩
  | overwritten (d' : DeviceId) : Withdrawn r d ⟨.createPending d', .ok r⟩
  | revoked : Withdrawn r d ⟨.revokeAll, ()⟩

theorem withdrawn_createPending {d' : DeviceId} {r' : String} :
    Withdrawn r d ⟨.createPending d', .ok r'⟩ ↔ d' = d ∨ r' = r := by
  constructor
  · rintro ⟨⟩
    · exact .inl rfl
    · exact .inr rfl
  · rintro (rfl | rfl)
    · exact .replaced r'
    · exact .overwritten d'

/-- Another request that is left is not of the device. -/
theorem createPending_other {a : SessionAuthorizer} {now later : ℕ} {r' : String} (hne : r ≠ r')
    (h : (a.createPending now later (.ok r') d).1.pending.lookup r = some p) : p.deviceId ≠ d := by
  rw [SessionAuthorizer.createPending, Table.lookup_insert_eq, if_neg hne, Table.lookup_retain,
    Option.filter_eq_some_iff] at h
  exact of_decide_eq_true h.2

/-- The user's answer counts for a recent request only. -/
theorem resolvePending_recent {a : SessionAuthorizer} {now : ℕ} {approved : Bool}
    (h : (a.resolvePending now r approved).2 = true) (hlookup : a.pending.lookup r = some p) :
    now - p.createdAt ≤ pendingApprovalTtl := by
  unfold SessionAuthorizer.resolvePending at h
  dsimp only at h
  split at h
  · cases h
  · next request hrequest =>
    obtain ⟨hbefore, hrecent⟩ := SessionAuthorizer.prunePending_lookup.mp hrequest
    rwa [Option.some.inj (hbefore.symm.trans hlookup)] at hrecent

/-- What has become of a request after an operation. -/
theorem execute_request (h : s.execute crypto world op = some (t, answer))
    (hlater : t.authorizer.pending.lookup r = some p) :
    p.status = .pending ∧ Requested r p.deviceId p.createdAt t ⟨op, answer⟩ ∨
      ¬Withdrawn r p.deviceId ⟨op, answer⟩ ∧
        (s.authorizer.pending.lookup r = some p ∨
          s.authorizer.pending.lookup r = some { p with status := .pending } ∧
            (p.status = .approved → Approves r p s ⟨op, answer⟩)) := by
  by_cases hstore : op.store = .authorizer
  · cases op with
    | authenticate | authenticateToken | isCurrent =>
      obtain ⟨rfl, -⟩ := Prod.mk.inj (Option.some.inj h)
      exact .inr ⟨by rintro ⟨⟩, .inl hlater⟩
    | createPending d =>
      obtain ⟨rfl, rfl⟩ := Prod.mk.inj (Option.some.inj h)
      dsimp only at hlater ⊢
      cases hid : SessionAuthorizer.pendingRequestId crypto.hexEncode (world.random 0) with
      | error error =>
        rw [hid] at hlater
        refine .inr ⟨?_, .inl hlater⟩
        rintro ⟨⟩
      | ok r' =>
        rw [hid] at hlater
        obtain ⟨rfl, rfl⟩ | ⟨hne, hbefore⟩ := SessionAuthorizer.createPending_lookup hlater
        · exact .inl ⟨rfl, rfl, rfl⟩
        · have hother := createPending_other hne hlater
          refine .inr ⟨?_, .inl hbefore⟩
          exact fun hgone => (withdrawn_createPending.mp hgone).elim (hother ∘ Eq.symm)
            (hne ∘ Eq.symm)
    | pendingStatus r' d =>
      obtain ⟨rfl, -⟩ := Prod.mk.inj (Option.some.inj h)
      exact .inr ⟨by rintro ⟨⟩, .inl (SessionAuthorizer.prunePending_lookup.mp hlater).1⟩
    | resolvePending r' approved =>
      obtain ⟨rfl, rfl⟩ := Prod.mk.inj (Option.some.inj h)
      refine .inr ⟨by rintro ⟨⟩, ?_⟩
      obtain hbefore | ⟨rfl, hanswer, hbefore, hstatus⟩ :=
        SessionAuthorizer.resolvePending_lookup hlater
      · exact .inl hbefore
      · refine .inr ⟨hbefore, fun happroved => ?_⟩
        cases approved with
        | true =>
          have hrecent := resolvePending_recent hanswer hbefore
          exact ⟨congrArg (Called.mk (ControlOp.resolvePending r true)) hanswer, hbefore, hrecent⟩
        | false => cases happroved.symm.trans hstatus
    | removePending r' =>
      obtain ⟨rfl, -⟩ := Prod.mk.inj (Option.some.inj h)
      rw [SessionAuthorizer.removePending_lookup] at hlater
      split at hlater
      · cases hlater
      · next hne =>
        refine .inr ⟨?_, .inl hlater⟩
        rintro ⟨⟩
        exact hne rfl
    | cancelPendingForDevice d =>
      obtain ⟨rfl, -⟩ := Prod.mk.inj (Option.some.inj h)
      refine .inr ⟨?_, .inl (SessionAuthorizer.cancelPendingForDevice_lookup hlater)⟩
      rintro ⟨⟩
      have hother := (Option.filter_eq_some_iff.mp ((Table.lookup_retain _).symm.trans hlater)).2
      exact of_decide_eq_true hother rfl
    | prepare d =>
      obtain ⟨rfl, -⟩ := Prod.mk.inj (Option.some.inj h)
      refine .inr ⟨by rintro ⟨⟩, .inl ?_⟩
      unfold SessionAuthorizer.prepare at hlater
      split at hlater <;> exact hlater
    | commit pending =>
      obtain ⟨rfl, -⟩ := Prod.mk.inj (Option.some.inj h)
      exact .inr ⟨by rintro ⟨⟩, .inl hlater⟩
    | revoke d generation =>
      obtain ⟨rfl, -⟩ := Prod.mk.inj (Option.some.inj h)
      refine .inr ⟨by rintro ⟨⟩, .inl ?_⟩
      unfold SessionAuthorizer.revoke at hlater
      dsimp only at hlater
      split at hlater <;> exact hlater
    | revokeAll =>
      obtain ⟨rfl, -⟩ := Prod.mk.inj (Option.some.inj h)
      cases hlater
    | _ => cases hstore
  · rw [(execute_untouched h).authorizer hstore] at hlater
    refine .inr ⟨?_, .inl hlater⟩
    rintro ⟨⟩ <;> exact hstore rfl

/-- A request that waits or has its answer was made by its device, and not withdrawn since. -/
theorem request_origin
    (h : ((startedPc crypto self start trustedDevices supportsProcessCapture).machine.run
      turns).shared.authorizer.pending.lookup r = some p) :
    Since (fun _ => Made fun _ => Requested r p.deviceId p.createdAt)
      (Made fun _ _ => Withdrawn r p.deviceId)
      ((startedPc crypto self start trustedDevices supportsProcessCapture).machine.events
        turns) := by
  refine stored_since
    (fun s r => (s.authorizer.pending.lookup r).map fun p => (p.deviceId, p.createdAt))
    (fun r v _ => Requested r v.1 v.2) (fun r v => Withdrawn r v.1) (fun _ => rfl)
    (fun _ _ hauthorizer _ _ => by simp only [hauthorizer]) (fun hexecute hlater => ?_)
    (v := (p.deviceId, p.createdAt)) (by simp only [h, Option.map_some])
  obtain ⟨p, hlookup, rfl⟩ := Option.map_eq_some_iff.mp hlater
  obtain ⟨-, hmade⟩ | ⟨hkept, hbefore | ⟨hbefore, -⟩⟩ := execute_request hexecute hlookup
  · exact .inl hmade
  · exact .inr ⟨by simp only [hbefore, Option.map_some], hkept⟩
  · exact .inr ⟨by simp only [hbefore, Option.map_some], hkept⟩

/-- A request that counts as approved was approved by the user while it waited, and not withdrawn
since. -/
theorem approval_origin
    (h : ((startedPc crypto self start trustedDevices supportsProcessCapture).machine.run
      turns).shared.authorizer.pending.lookup r = some p) (happroved : p.status = .approved) :
    Since (fun _ => Made fun s _ => Approves r p s) (Made fun _ _ => Withdrawn r p.deviceId)
      ((startedPc crypto self start trustedDevices supportsProcessCapture).machine.events
        turns) := by
  refine stored_since
    (fun s r => (s.authorizer.pending.lookup r).filter fun p => p.status = .approved)
    (fun r p s _ => Approves r p s) (fun r p => Withdrawn r p.deviceId) (fun _ => rfl)
    (fun _ _ hauthorizer _ _ => by simp only [hauthorizer]) (fun hexecute hlater => ?_)
    (Option.filter_eq_some_iff.mpr ⟨h, decide_eq_true happroved⟩)
  obtain ⟨hlookup, hstatus⟩ := Option.filter_eq_some_iff.mp hlater
  have hstatus := of_decide_eq_true hstatus
  obtain ⟨hwaits, -⟩ | ⟨hkept, hbefore | ⟨-, hmade⟩⟩ := execute_request hexecute hlookup
  · cases hwaits.symm.trans hstatus
  · exact .inr ⟨Option.filter_eq_some_iff.mpr ⟨hbefore, decide_eq_true hstatus⟩, hkept⟩
  · exact .inl (hmade hstatus)

end Requests

section Channels

variable {request : ConnectionApprovalRequest} {command : ControlCommand}

/-- A question to the user was asked by the dispatcher. -/
theorem question_origin
    (h : request ∈ ((startedPc crypto self start trustedDevices supportsProcessCapture).machine.run
      turns).shared.approvals) :
    Since (fun _ => Made fun _ _ call => call = ⟨.requestApproval request, ()⟩)
      (Made fun _ _ _ => False)
      ((startedPc crypto self start trustedDevices supportsProcessCapture).machine.events
        turns) := by
  refine since_of_entry (startedPc crypto self start trustedDevices supportsProcessCapture)
    (fun s request => if request ∈ s.approvals then some () else none)
    (fun request _ _ _ call => call = ⟨.requestApproval request, ()⟩) (fun _ _ _ => False)
    (fun _ => rfl) (fun s id job t request _ haccept hlater => ?_)
    (fun s change request _ hlater => ?_) (fun world s op t answer request _ hexecute hlater => ?_)
    (v := ()) (if_pos h)
  · exact if_pos ((accept_passive haccept).approvals _ (Option.ite_none_right_eq_some.mp hlater).1)
  · exact if_pos
      ((outside_passive s change).approvals _ (Option.ite_none_right_eq_some.mp hlater).1)
  · have hlater := (Option.ite_none_right_eq_some.mp hlater).1
    by_cases hstore : op.store = .approvals
    · cases op with
      | requestApproval asked =>
        obtain ⟨rfl, rfl⟩ := Prod.mk.inj (Option.some.inj hexecute)
        obtain hbefore | hnew := List.mem_append.mp hlater
        · exact .inr ⟨if_pos hbefore, id⟩
        · obtain rfl := List.mem_singleton.mp hnew
          exact .inl rfl
      | _ => cases hstore
    · rw [(execute_untouched hexecute).approvals hstore] at hlater
      exact .inr ⟨if_pos hlater, id⟩

/-- A command in the queue of the dispatcher was put there by a handler. -/
theorem command_origin
    (h : command ∈ ((startedPc crypto self start trustedDevices supportsProcessCapture).machine.run
      turns).shared.queue) :
    Since (fun _ => Made fun _ _ call => call = ⟨.send command, true⟩) (Made fun _ _ _ => False)
      ((startedPc crypto self start trustedDevices supportsProcessCapture).machine.events
        turns) := by
  refine since_of_entry (startedPc crypto self start trustedDevices supportsProcessCapture)
    (fun s command => if command ∈ s.queue then some () else none)
    (fun command _ _ _ call => call = ⟨.send command, true⟩) (fun _ _ _ => False)
    (fun _ => rfl) (fun s id job t command _ haccept hlater => ?_)
    (fun s change command _ hlater => ?_) (fun world s op t answer command _ hexecute hlater => ?_)
    (v := ()) (if_pos h)
  · exact if_pos ((accept_passive haccept).queue _ (Option.ite_none_right_eq_some.mp hlater).1)
  · exact if_pos ((outside_passive s change).queue _ (Option.ite_none_right_eq_some.mp hlater).1)
  · have hlater := (Option.ite_none_right_eq_some.mp hlater).1
    by_cases hstore : op.store = .queue
    · cases op with
      | send sent =>
        change (if world.closed then some (s, false)
          else if s.queue.length < controlCommandCapacity then
            some ({ s with queue := s.queue ++ [sent] }, true)
          else none) = some (t, answer) at hexecute
        split at hexecute
        · obtain ⟨rfl, -⟩ := Prod.mk.inj (Option.some.inj hexecute)
          exact .inr ⟨if_pos hlater, id⟩
        · split at hexecute
          · obtain ⟨rfl, rfl⟩ := Prod.mk.inj (Option.some.inj hexecute)
            obtain hbefore | hnew := List.mem_append.mp hlater
            · exact .inr ⟨if_pos hbefore, id⟩
            · obtain rfl := List.mem_singleton.mp hnew
              exact .inl rfl
          · cases hexecute
      | _ => cases hstore
    · rw [(execute_untouched hexecute).queue hstore] at hlater
      exact .inr ⟨if_pos hlater, id⟩

end Channels

section Sessions

variable {record : SessionRecord}

/-- A session is made valid. -/
def Committed (d : DeviceId) (record : SessionRecord) (call : ControlCall) : Prop :=
  call = ⟨.commit ⟨d, record.token, record.generation⟩, .ok (record.token, record.generation)⟩

/-- The session of a device ends, or another one takes its place. -/
inductive Ended (d : DeviceId) (record : SessionRecord) : ControlCall → Prop
  | revoked (answer : Bool) : Ended d record ⟨.revoke d none, answer⟩
  | closed (answer : Bool) : Ended d record ⟨.revoke d (some record.generation), answer⟩
  | replaced (pending : PendingSession) (answer) (hdevice : pending.deviceId = d) :
      Ended d record ⟨.commit pending, answer⟩
  | all : Ended d record ⟨.revokeAll, ()⟩

theorem execute_session (h : s.execute crypto world op = some (t, answer))
    (hlater : t.authorizer.sessions.lookup d = some record) : Committed d record ⟨op, answer⟩ ∨
      s.authorizer.sessions.lookup d = some record ∧ ¬Ended d record ⟨op, answer⟩ := by
  by_cases hstore : op.store = .authorizer
  · cases op with
    | authenticate | authenticateToken | isCurrent | pendingStatus | removePending
    | cancelPendingForDevice =>
      obtain ⟨rfl, -⟩ := Prod.mk.inj (Option.some.inj h)
      exact .inr ⟨hlater, by rintro ⟨⟩⟩
    | createPending d =>
      obtain ⟨rfl, -⟩ := Prod.mk.inj (Option.some.inj h)
      exact .inr ⟨SessionAuthorizer.createPending_sessions.1 ▸ hlater, by rintro ⟨⟩⟩
    | resolvePending r approved =>
      obtain ⟨rfl, -⟩ := Prod.mk.inj (Option.some.inj h)
      exact .inr ⟨SessionAuthorizer.resolvePending_sessions.1 ▸ hlater, by rintro ⟨⟩⟩
    | prepare d' =>
      obtain ⟨rfl, -⟩ := Prod.mk.inj (Option.some.inj h)
      refine .inr ⟨?_, by rintro ⟨⟩⟩
      unfold SessionAuthorizer.prepare at hlater
      split at hlater <;> exact hlater
    | commit pending =>
      obtain ⟨rfl, rfl⟩ := Prod.mk.inj (Option.some.inj h)
      dsimp only at hlater
      rw [SessionAuthorizer.commit_lookup] at hlater
      split at hlater
      · next heq =>
        obtain rfl := Option.some.inj hlater
        exact .inl (by rw [heq]; rfl)
      · next hne =>
        refine .inr ⟨hlater, ?_⟩
        rintro ⟨⟩
        exact hne (Eq.symm ‹_›)
    | revoke d' generation =>
      obtain ⟨rfl, -⟩ := Prod.mk.inj (Option.some.inj h)
      dsimp only at hlater
      rw [SessionAuthorizer.revoke_lookup] at hlater
      split at hlater
      · cases hlater
      · next hkept =>
        refine .inr ⟨hlater, ?_⟩
        rintro ⟨⟩
        · exact hkept ⟨rfl, rfl⟩
        · exact hkept ⟨rfl, SessionAuthorizer.isCurrent_iff.mpr ⟨record.token, hlater⟩⟩
    | revokeAll =>
      obtain ⟨rfl, -⟩ := Prod.mk.inj (Option.some.inj h)
      cases hlater
    | _ => cases hstore
  · rw [(execute_untouched h).authorizer hstore] at hlater
    refine .inr ⟨hlater, ?_⟩
    rintro ⟨⟩ <;> exact hstore rfl

/-- The session of a device was made valid, and has not ended since. -/
theorem session_origin
    (h : ((startedPc crypto self start trustedDevices supportsProcessCapture).machine.run
      turns).shared.authorizer.sessions.lookup d = some record) :
    Since (fun _ => Made fun _ _ => Committed d record) (Made fun _ _ => Ended d record)
      ((startedPc crypto self start trustedDevices supportsProcessCapture).machine.events turns) :=
  stored_since (fun s d => s.authorizer.sessions.lookup d) (fun d record _ _ => Committed d record)
    Ended (fun _ => rfl) (fun _ _ hauthorizer _ _ => by simp only [hauthorizer]) execute_session h

end Sessions

section Trust

variable {key : String}

/-- A key is remembered for a device. -/
def Remembered (d : DeviceId) (key : String) (call : ControlCall) : Prop :=
  ∃ name, call = ⟨.trust d name key, .ok ()⟩

/-- The device is forgotten, or another key is remembered for it. -/
def Forgotten (d : DeviceId) (key : String) (call : ControlCall) : Prop :=
  (∃ answer, call = ⟨.forget d, answer⟩) ∨
    ∃ name key', call = ⟨.trust d name key', .ok ()⟩ ∧ key' ≠ key

/-- A device has one key. -/
theorem trust_replaces {store : TrustedDeviceStore} {write : Except String Unit}
    {name key' : String} (hok : (store.trust write d name key').2 = .ok ())
    (h : (store.trust write d name key').1.isTrusted d key = true) : key' = key := by
  unfold TrustedDeviceStore.trust at h hok
  split at h
  · next hbound =>
    rw [if_pos hbound] at hok
    cases hok
  · next hbound =>
    rw [if_neg hbound] at hok
    rcases TrustedDeviceStore.saveState_cases { store with
        revoked := store.revoked.erase d
        devices := store.devices.insert d ⟨d, name, key'⟩ } write with
      ⟨error, heq⟩ | ⟨disk, heq⟩
    · rw [heq] at hok
      cases hok
    · rw [heq] at h
      obtain ⟨-, device, hlookup, rfl⟩ := TrustedDeviceStore.isTrusted_iff.mp h
      rw [AList.lookup_insert] at hlookup
      rw [← Option.some.inj hlookup]

theorem execute_trust (h : s.execute crypto world op = some (t, answer))
    (hlater : t.trustedDevices.isTrusted d key = true) : Remembered d key ⟨op, answer⟩ ∨
      s.trustedDevices.isTrusted d key = true ∧ ¬Forgotten d key ⟨op, answer⟩ := by
  by_cases hstore : op.store = .trustedDevices
  · cases op with
    | isTrusted | publicKey =>
      obtain ⟨rfl, -⟩ := Prod.mk.inj (Option.some.inj h)
      exact .inr ⟨hlater, by rintro (⟨_, ⟨⟩⟩ | ⟨_, _, ⟨⟩, -⟩)⟩
    | trust d' name key' =>
      obtain ⟨rfl, rfl⟩ := Prod.mk.inj (Option.some.inj h)
      obtain hbefore | ⟨rfl, rfl, hok⟩ := TrustedDeviceStore.trust_isTrusted hlater
      · by_cases hput : Remembered d key
          ⟨.trust d' name key', (s.trustedDevices.trust world.write d' name key').2⟩
        · exact .inl hput
        · refine .inr ⟨hbefore, ?_⟩
          rintro (⟨_, hcall⟩ | ⟨name', key'', hcall, hne⟩)
          · cases (Called.mk.inj hcall).1
          · obtain ⟨rfl, rfl, rfl⟩ := ControlOp.trust.inj (Called.mk.inj hcall).1
            exact hne (trust_replaces (eq_of_heq (Called.mk.inj hcall).2) hlater)
      · exact .inl ⟨name, congrArg (Called.mk (ControlOp.trust d name key)) hok⟩
    | forget d' =>
      obtain ⟨rfl, rfl⟩ := Prod.mk.inj (Option.some.inj h)
      refine .inr ⟨TrustedDeviceStore.forget_isTrusted hlater, ?_⟩
      rintro (⟨_, hcall⟩ | ⟨_, _, hcall, -⟩)
      · obtain rfl := ControlOp.forget.inj (Called.mk.inj hcall).1
        cases TrustedDeviceStore.forget_untrusted.symm.trans hlater
      · cases (Called.mk.inj hcall).1
    | _ => cases hstore
  · rw [(execute_untouched h).trustedDevices hstore] at hlater
    refine .inr ⟨hlater, ?_⟩
    rintro (⟨_, ⟨⟩⟩ | ⟨_, _, ⟨⟩, -⟩) <;> exact hstore rfl

/-- A trusted key was trusted at the start or remembered later, and its device has not been
forgotten or given another key since. -/
theorem trust_origin
    (h : ((startedPc crypto self start trustedDevices supportsProcessCapture).machine.run
      turns).shared.trustedDevices.isTrusted d key = true) :
    (trustedDevices.isTrusted d key = true ∧
      ∀ e ∈ (startedPc crypto self start trustedDevices supportsProcessCapture).machine.events
        turns, ¬Made (fun _ _ => Forgotten d key) e) ∨
      Since (fun _ => Made fun _ _ => Remembered d key) (Made fun _ _ => Forgotten d key)
        ((startedPc crypto self start trustedDevices supportsProcessCapture).machine.events
          turns) := by
  refine (kept_or_stored
    (fun s (k : DeviceId × String) => if s.trustedDevices.isTrusted k.1 k.2 then some () else none)
    (fun k _ _ _ => Remembered k.1 k.2) (fun k _ => Forgotten k.1 k.2)
    (fun _ _ _ _ htrusted => by simp only [htrusted]) (fun hexecute hlater => ?_)
    (k := (d, key)) (v := ()) (if_pos h)).imp_left fun hfirst =>
      ⟨(Option.ite_none_right_eq_some.mp hfirst.1).1, hfirst.2⟩
  obtain hput | ⟨hbefore, hkept⟩ :=
    execute_trust hexecute (Option.ite_none_right_eq_some.mp hlater).1
  · exact .inl hput
  · exact .inr ⟨if_pos hbefore, hkept⟩

end Trust

end Gemacast.Control
