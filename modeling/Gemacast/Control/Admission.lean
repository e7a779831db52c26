import Gemacast.Control.Contracts

/-!
# How the dispatcher admits a Connect

What the dispatcher has been told when it asks for approval, trusts a key or makes a session
valid, in terms of the calls it made while handling the one Connect. A session has one of
three routes: the token of a running session, a proved key that is trusted, or a request
that was approved for the same device and key.
-/

namespace Gemacast.Control

open Gemacast.Core Gemacast.Streamer Program

variable {self : ControlDispatcher} {connect : ConnectCommand} {calls : List ControlCall}
  {auth : DeviceAuthRequest} {identity : VerifiedDeviceIdentity} {c : ControlCall}

/-- The Connect has answered a challenge in this handling. -/
structure Proved (pc : ControlDispatcher) (connect : ConnectCommand) (calls : List ControlCall)
    (auth : DeviceAuthRequest) (identity : VerifiedDeviceIdentity) : Prop where
  /-- It carries no token. -/
  unauthorized : connect.authorized = false
  /-- It waits for no approval. -/
  noRequest : connect.pendingRequestId = none
  /-- It carries the proof. -/
  proof : connect.deviceAuth = some auth
  /-- The proof has passed. -/
  verified : ⟨.verify connect.deviceId pc.streamerId pc.pcCertificateFingerprint auth,
    .ok identity⟩ ∈ calls

/-- How a Connect was admitted. -/
inductive Route (self : ControlDispatcher) (connect : ConnectCommand) (calls : List ControlCall) :
    Admission → Prop
  | token (hauthorized : connect.authorized = true) : Route self connect calls ⟨none, none⟩
  | trusted {auth : DeviceAuthRequest} {identity : VerifiedDeviceIdentity}
      (hproved : Proved self connect calls auth identity)
      (hphone : auth.phoneConfirmation = none)
      (htrusted : ⟨.isTrusted connect.deviceId identity.publicKey, true⟩ ∈ calls) :
      Route self connect calls ⟨none, none⟩
  | approved {requestId : String} {auth : DeviceAuthRequest} {identity : VerifiedDeviceIdentity}
      (hauthorized : connect.authorized = false)
      (hrequest : connect.pendingRequestId = some requestId)
      (hproof : connect.deviceAuth = some auth)
      (hpairing : ⟨.pendingPairing requestId connect.deviceId auth.publicKey,
        some identity⟩ ∈ calls)
      (hstatus : ⟨.pendingStatus requestId connect.deviceId, some .approved⟩ ∈ calls) :
      Route self connect calls ⟨some requestId, some identity⟩

/-- No session has been made valid. -/
def NoCommit (calls : List ControlCall) : Prop :=
  ∀ c ∈ calls, ∀ pending, c.op ≠ .commit pending

/-- What holds at an operation of the dispatcher while it handles a Connect. -/
def ConnectContract (self : ControlDispatcher) (connect : ConnectCommand)
    (calls : List ControlCall) : ControlOp → Prop
  | .createPending deviceId => deviceId = connect.deviceId ∧
      ∃ auth identity, Proved self connect calls auth identity ∧
        auth.phoneConfirmation = some true
  | .holdPendingPairing requestId deviceId identity => deviceId = connect.deviceId ∧
      ∃ auth, Proved self connect calls auth identity ∧
        ⟨.createPending connect.deviceId, .ok requestId⟩ ∈ calls
  | .requestApproval request => request.deviceId = connect.deviceId ∧
      ∃ auth identity, Proved self connect calls auth identity ∧
        request.keyFingerprint = identity.fingerprint ∧
        ⟨.createPending connect.deviceId, .ok request.requestId⟩ ∈ calls
  | .trust deviceId _ publicKey => deviceId = connect.deviceId ∧ ∃ admission identity,
      Route self connect calls admission ∧ admission.identityToTrust = some identity ∧
        publicKey = identity.publicKey
  | .commit pending => NoCommit calls ∧ ⟨.prepare connect.deviceId, .ok pending⟩ ∈ calls ∧
      ∃ admission, Route self connect calls admission
  | .audio (.changeSource ..) | .audio (.changeBitrate ..) => False
  | .audio (.subscribe deviceId ..) => deviceId = connect.deviceId
  | .resolvePending .. => False
  | _ => True

/-- What admitting a Connect leaves. -/
def Admitted (self : ControlDispatcher) (connect : ConnectCommand) (calls : List ControlCall)
    (admission : Option Admission) : Prop :=
  NoCommit calls ∧ ∀ a, admission = some a → Route self connect calls a

/-- A request a session was made valid with is forgotten at the end. -/
def Closed (connect : ConnectCommand) (calls : List ControlCall) : Prop :=
  ∀ requestId, connect.authorized = false → connect.pendingRequestId = some requestId →
    ¬NoCommit calls → ⟨.removePending requestId, ()⟩ ∈ calls

theorem Proved.concat (h : Proved self connect calls auth identity) :
    Proved self connect (calls ++ [c]) auth identity :=
  { h with verified := List.mem_append_left _ h.verified }

theorem Route.append {admission : Admission} (h : Route self connect calls admission)
    (more : List ControlCall) : Route self connect (calls ++ more) admission := by
  cases h with
  | token hauthorized => exact .token hauthorized
  | trusted hproved hphone htrusted =>
    exact .trusted { hproved with verified := List.mem_append_left _ hproved.verified } hphone
      (List.mem_append_left _ htrusted)
  | approved hauthorized hrequest hproof hpairing hstatus =>
    exact .approved hauthorized hrequest hproof (List.mem_append_left _ hpairing)
      (List.mem_append_left _ hstatus)

/-- A session that replaces none comes with the request it was approved by. -/
theorem Route.request {admission : Admission} {requestId : String}
    (h : Route self connect calls admission) (hauthorized : connect.authorized = false)
    (hrequest : connect.pendingRequestId = some requestId) :
    admission.approvedRequestId = some requestId := by
  cases h with
  | token htoken => nomatch htoken.symm.trans hauthorized
  | trusted hproved => nomatch hproved.noRequest.symm.trans hrequest
  | approved _ hown => exact hown.symm.trans hrequest

theorem noCommit_nil : NoCommit [] := fun _ hmem => absurd hmem List.not_mem_nil

theorem NoCommit.concat (h : NoCommit calls) (hcall : ∀ pending, c.op ≠ .commit pending) :
    NoCommit (calls ++ [c]) := by
  intro c' hmem
  rcases List.mem_append.mp hmem with hold | hnew
  · exact h c' hold
  · exact List.mem_singleton.mp hnew ▸ hcall

namespace ControlDispatcher

section Admission

variable {message requestId : String}

theorem refuse_obeys (h : NoCommit calls) : Obeys (ConnectContract self connect)
    (Admitted self connect) calls (refuse connect message) :=
  ⟨trivial, fun _ => ⟨h.concat (by simp), nofun⟩⟩

theorem reportPending_obeys (h : NoCommit calls) : Obeys (ConnectContract self connect)
    (Admitted self connect) calls (self.reportPending connect requestId) :=
  ⟨trivial, fun _ => ⟨trivial, fun _ => ⟨(h.concat (by simp)).concat (by simp), nofun⟩⟩⟩

theorem admitApproved_obeys (hauthorized : connect.authorized = false)
    (hrequest : connect.pendingRequestId = some requestId) :
    Obeys (ConnectContract self connect) (Admitted self connect) []
      (self.admitApproved connect requestId) := by
  unfold admitApproved
  split
  · exact refuse_obeys noCommit_nil
  · rename_i auth hproof
    refine ⟨trivial, fun identity => ?_⟩
    have hpaired := noCommit_nil.concat
      (c := ⟨.pendingPairing requestId connect.deviceId auth.publicKey, identity⟩) (by simp)
    cases identity with
    | none => exact refuse_obeys hpaired
    | some identity =>
      refine ⟨trivial, fun status => ?_⟩
      have hasked := hpaired.concat
        (c := ⟨.pendingStatus requestId connect.deviceId, status⟩) (by simp)
      cases status with
      | none => exact refuse_obeys hasked
      | some status =>
        cases status with
        | pending => exact reportPending_obeys hasked
        | approved =>
          refine ⟨hasked, fun a heq => ?_⟩
          cases heq
          exact .approved hauthorized hrequest hproof (by simp) (by simp)
        | rejected =>
          exact ⟨trivial, fun _ => ⟨trivial, fun _ =>
            refuse_obeys ((hasked.concat (by simp)).concat (by simp))⟩⟩

theorem issueChallenge_obeys : Obeys (ConnectContract self connect) (Admitted self connect) []
    (self.issueChallenge connect auth) := by
  refine ⟨trivial, fun trusted => ⟨trivial, fun challenge => ?_⟩⟩
  have hbegun := (noCommit_nil.concat
    (c := ⟨.isTrusted connect.deviceId auth.publicKey, trusted⟩) (by simp)).concat
    (c := ⟨.begin connect.deviceId self.streamerId self.pcCertificateFingerprint (!trusted)
      auth.publicKey auth.phoneNonce, challenge⟩) (by simp)
  cases challenge with
  | error error => exact refuse_obeys hbegun
  | ok challenge =>
    exact ⟨trivial, fun _ => ⟨trivial, fun _ =>
      ⟨(hbegun.concat (by simp)).concat (by simp), nofun⟩⟩⟩

theorem requestPairing_obeys (h : NoCommit calls)
    (hproved : Proved self connect calls auth identity)
    (hphone : auth.phoneConfirmation = some true) :
    Obeys (ConnectContract self connect) (Admitted self connect) calls
      (self.requestPairing connect identity) := by
  refine ⟨trivial, fun trustedKey => ⟨⟨rfl, auth, identity, hproved.concat, hphone⟩,
    fun created => ?_⟩⟩
  have hcreated := (h.concat (c := ⟨.publicKey connect.deviceId, trustedKey⟩) (by simp)).concat
    (c := ⟨.createPending connect.deviceId, created⟩) (by simp)
  cases created with
  | error error => exact refuse_obeys hcreated
  | ok requestId =>
    refine ⟨⟨rfl, auth, hproved.concat.concat, by simp⟩, fun _ =>
      ⟨⟨rfl, auth, identity, hproved.concat.concat.concat, rfl, by simp⟩, fun _ => ?_⟩⟩
    exact reportPending_obeys ((hcreated.concat (by simp)).concat (by simp))

theorem admitVerified_obeys (h : NoCommit calls)
    (hproved : Proved self connect calls auth identity) :
    Obeys (ConnectContract self connect) (Admitted self connect) calls
      (self.admitVerified connect auth identity) := by
  rw [admitVerified, perform_bind, obeys_call]
  refine ⟨trivial, fun alreadyTrusted => ?_⟩
  have hasked := h.concat
    (c := ⟨.isTrusted connect.deviceId identity.publicKey, alreadyTrusted⟩) (by simp)
  by_cases htrusted : alreadyTrusted = true ∧ auth.phoneConfirmation = none
  · rw [if_pos htrusted]
    obtain ⟨rfl, hphone⟩ := htrusted
    refine ⟨hasked, fun a heq => ?_⟩
    cases heq
    exact .trusted hproved.concat hphone (by simp)
  · rw [if_neg htrusted]
    split
    · rename_i hphone
      exact requestPairing_obeys hasked hproved.concat hphone
    · exact refuse_obeys hasked
    · exact refuse_obeys hasked

theorem admitProved_obeys (hauthorized : connect.authorized = false)
    (hrequest : connect.pendingRequestId = none) :
    Obeys (ConnectContract self connect) (Admitted self connect) [] (self.admitProved connect) := by
  unfold admitProved
  split
  · exact refuse_obeys noCommit_nil
  · rename_i auth hproof
    split
    · exact issueChallenge_obeys
    · refine ⟨trivial, fun verified => ?_⟩
      have hverified := noCommit_nil.concat (c := ⟨.verify connect.deviceId self.streamerId
        self.pcCertificateFingerprint auth, verified⟩) (by simp)
      cases verified with
      | error error => exact refuse_obeys hverified
      | ok identity => exact admitVerified_obeys hverified ⟨hauthorized, hrequest, hproof, by simp⟩

/-- A Connect is admitted by one of the routes. -/
theorem admitDevice_obeys : Obeys (ConnectContract self connect) (Admitted self connect) []
    (self.admitDevice connect) := by
  unfold admitDevice
  split
  · rename_i hauthorized
    refine ⟨noCommit_nil, fun a heq => ?_⟩
    cases heq
    exact .token hauthorized
  · rename_i hauthorized
    have hauthorized : connect.authorized = false := Bool.eq_false_iff.mpr hauthorized
    split
    · rename_i requestId hrequest
      exact admitApproved_obeys hauthorized hrequest
    · rename_i hrequest
      exact admitProved_obeys hauthorized hrequest

end Admission

section Opening

variable {admission : Admission} {pendingSession : PendingSession}

theorem registerDevice_obeys {generation : UInt64} {deviceName : String}
    {audioAddr remoteAddr : SocketAddr} {transport : Option TransportType}
    {source : Option AudioSource} {bitrate : Option ℤ} (h : NoCommit calls) :
    Obeys (ConnectContract self connect)
      (fun calls' _ => NoCommit calls' ∧ ∃ more, calls' = calls ++ more) calls
      (registerDevice connect.deviceId generation deviceName audioAddr remoteAddr transport source
        bitrate) := by
  have hused : Uses (fun op => (∀ pending, op ≠ .commit pending) ∧
      ∀ calls, ConnectContract self connect calls op)
      (registerDevice connect.deviceId generation deviceName audioAddr remoteAddr transport source
        bitrate) := by
    simp only [registerDevice, perform_bind, uses_call]
    refine ⟨⟨by simp, fun _ => rfl⟩, fun subscribed => ?_⟩
    cases subscribed with
    | error error => trivial
    | ok _ =>
      refine ⟨⟨by simp, fun _ => trivial⟩, fun outcome => ?_⟩
      cases outcome <;> simp [ConnectContract]
  refine (hused.obeys (fun c => ∃ pending, c.op = .commit pending)
    (fun op _ hop => by simpa using hop.1) (fun c hmem => by simpa using h c hmem)
    fun calls op hop => hop.2 calls).mono (fun _ _ h => h) ?_
  rintro calls' - ⟨hnone, more⟩
  exact ⟨fun c hmem pending heq => hnone c hmem ⟨pending, heq⟩, more⟩

theorem unregisterDevice_obeys {deviceId : DeviceId} : Obeys (ConnectContract self connect)
    (fun _ _ => True) calls (unregisterDevice deviceId) := by
  simp only [unregisterDevice, perform_bind, obeys_call]
  refine ⟨trivial, fun removed => ?_⟩
  cases removed with
  | none => exact ⟨trivial, fun _ => trivial⟩
  | some removed => exact ⟨trivial, fun _ => ⟨trivial, fun _ => ⟨trivial, fun _ => trivial⟩⟩⟩

theorem commitSession_obeys (h : NoCommit calls) (hroute : Route self connect calls admission)
    (hprepared : ⟨.prepare connect.deviceId, .ok pendingSession⟩ ∈ calls) :
    Obeys (ConnectContract self connect) (fun _ _ => True) calls
      (self.commitSession admission pendingSession) := by
  rw [commitSession, perform_bind, obeys_call]
  refine ⟨⟨h, hprepared, admission, hroute⟩, fun committed => ?_⟩
  cases committed with
  | error error => trivial
  | ok credentials => exact ⟨trivial, fun _ => trivial⟩

theorem establish_obeys (h : NoCommit calls) (hroute : Route self connect calls admission)
    (hprepared : ⟨.prepare connect.deviceId, .ok pendingSession⟩ ∈ calls) :
    Obeys (ConnectContract self connect) (fun _ _ => True) calls
      (self.establish connect admission pendingSession) := by
  unfold establish
  split
  · exact commitSession_obeys h hroute hprepared
  · rename_i identity htrust
    rw [perform_bind, obeys_call]
    refine ⟨⟨rfl, admission, identity, hroute, htrust, rfl⟩, fun trusted => ?_⟩
    cases trusted with
    | ok _ =>
      exact commitSession_obeys (h.concat (by simp)) (hroute.append _)
        (List.mem_append_left _ hprepared)
    | error error => exact unregisterDevice_obeys.bind fun _ _ _ => trivial

theorem closeRequest_obeys : Obeys (ConnectContract self connect)
    (fun calls' _ => ∀ requestId, admission.approvedRequestId = some requestId →
      ⟨.removePending requestId, ()⟩ ∈ calls') calls (closeRequest admission) := by
  unfold closeRequest
  split
  · rename_i hnone
    exact fun requestId heq => nomatch hnone.symm.trans heq
  · rename_i requestId hsome
    refine ⟨trivial, fun _ => ⟨trivial, fun _ requestId' heq => ?_⟩⟩
    obtain rfl := Option.some.inj (hsome.symm.trans heq)
    simp

theorem openSession_obeys (h : NoCommit calls) (hroute : Route self connect calls admission) :
    Obeys (ConnectContract self connect) (fun calls' _ => Closed connect calls') calls
      (self.openSession connect admission) := by
  rw [openSession, perform_bind, obeys_call]
  refine ⟨trivial, fun prepared => ?_⟩
  have hnone := h.concat (c := ⟨.prepare connect.deviceId, prepared⟩) (by simp)
  have hroute := hroute.append [⟨.prepare connect.deviceId, prepared⟩]
  cases prepared with
  | error error =>
    exact ⟨trivial, fun _ _ _ _ hcommit => absurd (hnone.concat (by simp)) hcommit⟩
  | ok pendingSession =>
    have hstart : Obeys (ConnectContract self connect) (fun _ _ => True) _
        (self.startSession connect admission pendingSession) :=
      (registerDevice_obeys hnone).bind fun calls' registered ⟨hnone', more, heq⟩ => by
        cases registered with
        | error error => trivial
        | ok _ => exact establish_obeys hnone' (heq ▸ hroute.append more) (by simp [heq])
    refine hstart.bind fun calls' result _ => ?_
    refine closeRequest_obeys.bind fun calls'' _ hclosed => ?_
    refine ⟨trivial, fun _ requestId hauthorized hrequest _ => ?_⟩
    exact List.mem_append_left _ (hclosed requestId (hroute.request hauthorized hrequest))

end Opening

/-- Handling a Connect keeps the contract, and forgets the request it used up. -/
theorem handleConnect_obeys : Obeys (ConnectContract self connect)
    (fun calls _ => Closed connect calls) [] (self.handleConnect connect) := by
  refine admitDevice_obeys.bind fun calls admission hadmitted => ?_
  cases admission with
  | none => exact fun _ _ _ hcommit => absurd hadmitted.1 hcommit
  | some admission => exact openSession_obeys hadmitted.1 (hadmitted.2 admission rfl)

end ControlDispatcher

end Gemacast.Control
