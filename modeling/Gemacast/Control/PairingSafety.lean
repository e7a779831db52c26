import Gemacast.Control.Callers
import Gemacast.Control.Origins

/-!
# Who gets a session

Any number of phones, handlers and answers of the user, in any order. The token of a session, a
key that is trusted and an answer of the user are each traced back through the tables of the PC
to the calls that put them there: to a challenge that was answered once and in time with a
signature, and to a request whose key the user was shown.
-/

namespace Gemacast.Control

open Gemacast.Core Gemacast.Streamer Program TaskSystem

variable {crypto : Crypto} {self : ControlDispatcher} {start : ℕ}
  {trustedDevices : TrustedDeviceStore} {supportsProcessCapture : Bool}
  {turns : List (Turn World TaskId Job Change)} {pre post : List ControlEvent} {e : ControlEvent}
  {id : TaskId} {job : Job} {call : ControlCall} {calls : List ControlCall} {d : DeviceId}
  {key r : String} {auth : DeviceAuthRequest} {connect : ConnectCommand}

/-- The answer is one to a challenge that was made in time for this device, this PC and this key
and has not been answered since, and it is signed. -/
def AnswersChallenge (crypto : Crypto) (d pc : DeviceId) (cert : String) (auth : DeviceAuthRequest)
    (h : List ControlEvent) (now : ℕ) : Prop :=
  ∃ x signature c, auth.challengeId = some x ∧ auth.signature = some signature ∧
    c.deviceId = d ∧ c.pcId = pc ∧ c.pcCertificateFingerprint = cert ∧
    c.publicKey = auth.publicKey ∧ c.phoneNonce = auth.phoneNonce ∧
    Since (fun _ => Made fun _ => Challenged x c) (Made fun _ _ => Spent x) h ∧
    now - c.createdAt ≤ challengeTtl ∧
    verifyDeviceAuthSignature crypto auth.publicKey signature (buildDeviceAuthTranscript d pc cert
      auth.publicKey auth.phoneNonce x c.challenge) = .ok ()

/-- Every proof the PC accepts answers a challenge. -/
def ProofsAnswer (crypto : Crypto) (events : List ControlEvent) : Prop :=
  ∀ pre e post id job d pc cert auth identity, events = pre ++ e :: post →
    e.output = .called id job ⟨.verify d pc cert auth, .ok identity⟩ →
    AnswersChallenge crypto d pc cert auth pre e.after.shared.now ∧
      identity.publicKey = auth.publicKey ∧
      devicePublicKeyFingerprint crypto auth.publicKey = .ok identity.fingerprint

/-- Whatever the phones send and in whatever order, a proof is accepted only if it answers, with
a signature over it, a challenge that was made for this device and key, is not too old and has
not been answered before. -/
theorem proofs_answer (crypto : Crypto) (self : ControlDispatcher) (start : ℕ)
    (trustedDevices : TrustedDeviceStore) (supportsProcessCapture : Bool)
    (turns : List (Turn World TaskId Job Change)) :
    ProofsAnswer crypto ((startedPc crypto self start trustedDevices
      supportsProcessCapture).machine.events turns) := by
  intro pre e post id job d pc cert auth identity hrun hcalled
  obtain ⟨as, rfl, hbefore⟩ := Machine.run_of_split _ hrun
  obtain ⟨-, world, -, hexecute⟩ :=
    called_of_mem (hrun ▸ List.mem_append_right _ List.mem_cons_self) hcalled
  obtain ⟨hafter, hanswer⟩ := Prod.mk.inj (Option.some.inj hexecute)
  obtain ⟨x, signature, c, hid, hsignature, hlookup, -, hcheck⟩ :=
    DeviceAuthManager.verify_eq_ok hanswer
  obtain ⟨hrecent, hdevice, hpc, hcert, hkey, hnonce, hsigned, hown, hprint⟩ :=
    DeviceAuthManager.check_eq_ok hcheck
  rw [hbefore] at hlookup
  refine ⟨⟨x, signature, c, hid, hsignature, hdevice, hpc, hcert, hkey, hnonce,
    challenge_origin hlookup, ?_, hsigned⟩, hown, hprint⟩
  rw [← hafter]
  exact hrecent

/-- The device has proved that it holds the key. -/
def Proves (crypto : Crypto) (self : ControlDispatcher) (d : DeviceId) (auth : DeviceAuthRequest)
    (h : List ControlEvent) : Prop :=
  ∃ pre e post id job identity, h = pre ++ e :: post ∧
    e.output = .called id job
      ⟨.verify d self.streamerId self.pcCertificateFingerprint auth, .ok identity⟩ ∧
    AnswersChallenge crypto d self.streamerId self.pcCertificateFingerprint auth pre
      e.after.shared.now

/-- The user of the PC approves a request. -/
structure Approval (crypto : Crypto) (self : ControlDispatcher)
    (request : ConnectionApprovalRequest) (auth : DeviceAuthRequest) (createdAt : ℕ)
    (h : List ControlEvent) (e : ControlEvent) : Prop where
  /-- The answer is written down. -/
  answered : ∃ id, e.output =
    .called id (.approval request) ⟨.resolvePending request.requestId true, true⟩
  /-- The user was asked with this request. -/
  asked : ∃ q ∈ h, Made (fun _ _ call => call = ⟨.requestApproval request, ()⟩) q
  /-- The user said yes to it. -/
  agreed : ∃ q ∈ h, Made (fun _ _ call => call = ⟨.awaitApproval request, true⟩) q
  /-- The digest shown was that of the key. -/
  shown : devicePublicKeyFingerprint crypto auth.publicKey = .ok request.keyFingerprint
  /-- The request stood. -/
  stood : Since (fun _ => Made fun _ => Requested request.requestId request.deviceId createdAt)
    (Made fun _ _ => Withdrawn request.requestId request.deviceId) h
  /-- It was not too old. -/
  inTime : e.before.shared.now - createdAt ≤ pendingApprovalTtl
  /-- The user of the phone had confirmed it. -/
  confirmed : auth.phoneConfirmation = some true
  /-- The device had proved that it holds the key. -/
  proves : Proves crypto self request.deviceId auth h

/-- The request was approved for the device and the key, and has not been withdrawn since. -/
def StandsApproved (crypto : Crypto) (self : ControlDispatcher) (r : String) (d : DeviceId)
    (key : String) : List ControlEvent → Prop :=
  Since (fun h e => ∃ request auth createdAt, request.requestId = r ∧ request.deviceId = d ∧
    auth.publicKey = key ∧ Approval crypto self request auth createdAt h e)
    (Made fun _ _ => Withdrawn r d)

/-- The dispatcher has found the request approved. -/
def FoundApproved (crypto : Crypto) (self : ControlDispatcher) (r : String) (d : DeviceId)
    (key : String) (h : List ControlEvent) : Prop :=
  ∃ pre e post, h = pre ++ e :: post ∧
    Made (fun _ _ call => call = ⟨.pendingStatus r d, some .approved⟩) e ∧
    StandsApproved crypto self r d key pre

/-- The identity of the request that is made. -/
def requestMade (e : ControlEvent) : Option String :=
  match e.output with
  | .called _ _ ⟨.createPending _, .ok requestId⟩ => some requestId
  | _ => none

/-- No identity is drawn twice. -/
def FreshRequests (events : List ControlEvent) : Prop := (events.filterMap requestMade).Nodup

theorem FreshRequests.of_append {a b : List ControlEvent} (h : FreshRequests (a ++ b)) :
    FreshRequests a := by
  rw [FreshRequests, List.filterMap_append] at h
  exact (List.nodup_append.mp h).1

theorem Proves.mono {h t : List ControlEvent} (hproves : Proves crypto self d auth h) :
    Proves crypto self d auth (h ++ t) := by
  obtain ⟨pre, e, post, id, job, identity, rfl, hcalled, hanswers⟩ := hproves
  exact ⟨pre, e, post ++ t, id, job, identity, by simp, hcalled, hanswers⟩

section Tracing

variable {init : Stores}

/-- The calls of a task on its job are events of the run. -/
theorem earlier_call (hrun : (service crypto self init).machine.events turns = pre ++ e :: post)
    (hwork : work id pre = some (job, calls)) (hcall : call ∈ calls) :
    ∃ a q b world calls', pre = a ++ q :: b ∧
      (service crypto self init).machine.events turns = a ++ q :: (b ++ e :: post) ∧
      q.output = .called id job call ∧ work id a = some (job, calls') ∧
      q.before.shared.execute crypto world call.op = some (q.after.shared, call.answer) := by
  obtain ⟨a, q, b, job', calls', rest, rfl, hcalled, hthen, -⟩ := split_of_work hwork hcall
  have hsplit : (service crypto self init).machine.events turns = a ++ q :: (b ++ e :: post) := by
    rw [hrun, List.append_assoc, List.cons_append]
  obtain ⟨next, world, htask, hexecute⟩ :=
    called_of_mem (hsplit ▸ List.mem_append_right _ List.mem_cons_self) hcalled
  have hworking := working_before hsplit id
  rw [htask] at hworking
  obtain ⟨_, hwork', -⟩ := hworking
  obtain ⟨rfl, -⟩ := Prod.mk.inj (Option.some.inj (hwork'.symm.trans hthen))
  exact ⟨a, q, b, world, calls', rfl, hsplit, hcalled, hthen, hexecute⟩

theorem accept_approval {s t : Stores} {request : ConnectionApprovalRequest}
    (h : s.accept id (.approval request) = some t) : request ∈ s.approvals := by
  cases id with
  | approval n => exact (Option.ite_none_right_eq_some.mp h).1
  | _ => cases h

theorem accept_command {s t : Stores} {command : ControlCommand}
    (h : s.accept id (.handle command) = some t) : command ∈ s.queue := by
  cases id with
  | dispatcher =>
    unfold Stores.accept at h
    dsimp only at h
    split at h
    · cases h
    · next hqueue =>
      obtain ⟨rfl, -⟩ := Option.ite_none_right_eq_some.mp h
      exact hqueue ▸ List.mem_cons_self
  | _ => cases h

end Tracing

section Channels

/-- A task is at a job it took up from the channels as they were. -/
theorem accepted_of_work
    (hrun : (startedPc crypto self start trustedDevices supportsProcessCapture).machine.events
      turns = pre ++ e :: post) (hwork : work id pre = some (job, calls)) :
    ∃ as s m t, pre = (startedPc crypto self start trustedDevices
        supportsProcessCapture).machine.events as ++ s :: m ∧
      ((startedPc crypto self start trustedDevices supportsProcessCapture).machine.run
        as).shared.accept id job = some t := by
  obtain ⟨p, s, m, rfl, hstarted⟩ := started_of_work hwork
  have hsplit : (startedPc crypto self start trustedDevices
      supportsProcessCapture).machine.events turns = p ++ s :: (m ++ e :: post) := by
    rw [hrun, List.append_assoc, List.cons_append]
  obtain ⟨-, haccept⟩ :=
    started_of_mem (hsplit ▸ List.mem_append_right _ List.mem_cons_self) hstarted
  obtain ⟨as, rfl, hbefore⟩ := Machine.run_of_split _ hsplit
  exact ⟨as, s, m, s.after.shared, rfl, hbefore ▸ haccept⟩

/-- The user is asked about requests of the dispatcher only. -/
theorem asked_of_work {request : ConnectionApprovalRequest}
    (hrun : (startedPc crypto self start trustedDevices supportsProcessCapture).machine.events
      turns = pre ++ e :: post) (hwork : work id pre = some (.approval request, calls)) :
    ∃ a q b id' job', pre = a ++ q :: b ∧
      q.output = .called id' job' ⟨.requestApproval request, ()⟩ := by
  obtain ⟨as, s, m, t, rfl, haccept⟩ := accepted_of_work hrun hwork
  obtain ⟨a, q, b, heq, ⟨id', job', _, hcalled, rfl⟩, -⟩ :=
    question_origin (accept_approval haccept)
  exact ⟨a, q, b ++ s :: m, id', job', by rw [heq, List.append_assoc, List.cons_append], hcalled⟩

/-- The dispatcher handles commands of the handlers only. -/
theorem sent_of_work {command : ControlCommand}
    (hrun : (startedPc crypto self start trustedDevices supportsProcessCapture).machine.events
      turns = pre ++ e :: post) (hwork : work id pre = some (.handle command, calls)) :
    ∃ a q b id' job', pre = a ++ q :: b ∧ q.output = .called id' job' ⟨.send command, true⟩ := by
  obtain ⟨as, s, m, t, rfl, haccept⟩ := accepted_of_work hrun hwork
  obtain ⟨a, q, b, heq, ⟨id', job', _, hcalled, rfl⟩, -⟩ :=
    command_origin (accept_command haccept)
  exact ⟨a, q, b ++ s :: m, id', job', by rw [heq, List.append_assoc, List.cons_append], hcalled⟩

end Channels

section Approvals

/-- What a Connect has proved, its device has. -/
theorem proves_of_proved {identity : VerifiedDeviceIdentity}
    (hrun : (startedPc crypto self start trustedDevices supportsProcessCapture).machine.events
      turns = pre ++ e :: post)
    (hwork : work id pre = some (job, calls)) (hproved : Proved self connect calls auth identity) :
    Proves crypto self connect.deviceId auth pre ∧ identity.publicKey = auth.publicKey ∧
      devicePublicKeyFingerprint crypto auth.publicKey = .ok identity.fingerprint := by
  obtain ⟨a, q, b, -, -, rfl, hsplit, hcalled, -⟩ := earlier_call hrun hwork hproved.verified
  obtain ⟨hanswers, hkey, hprint⟩ := proofs_answer crypto self start trustedDevices
    supportsProcessCapture turns a q _ id job _ _ _ _ _ hsplit hcalled
  exact ⟨⟨a, q, b, id, job, identity, rfl, hcalled, hanswers⟩, hkey, hprint⟩

/-- Who makes a request, and what for. -/
def MakesRequest (connect : ConnectCommand) (r : String) (e : ControlEvent) : Prop :=
  e.output = .called .dispatcher (.handle (.connect connect))
    ⟨.createPending connect.deviceId, .ok r⟩

/-- A fresh request is made once, for one Connect. -/
theorem FreshRequests.eq_of_makes {events a b a' b' : List ControlEvent} {q q' : ControlEvent}
    {connect' : ConnectCommand} (hfresh : FreshRequests events) (h : events = a ++ q :: b)
    (h' : events = a' ++ q' :: b') (hq : MakesRequest connect r q)
    (hq' : MakesRequest connect' r q') : a = a' ∧ q = q' ∧ connect = connect' := by
  obtain ⟨rfl, rfl⟩ := eq_of_nodup_filterMap hfresh h h' (b := r)
    (by rw [requestMade, hq]) (by rw [requestMade, hq'])
  refine ⟨rfl, rfl, ?_⟩
  obtain ⟨-, hjob, -⟩ := Report.called.inj (hq.symm.trans hq')
  exact ControlCommand.connect.inj (Job.handle.inj hjob)

/-- A request was made for the Connect that is handled. -/
theorem makes_of_created
    (hrun : (startedPc crypto self start trustedDevices supportsProcessCapture).machine.events
      turns = pre ++ e :: post)
    (hwork : work .dispatcher pre = some (.handle (.connect connect), calls))
    (hcreated : ⟨.createPending connect.deviceId, .ok r⟩ ∈ calls) :
    ∃ a q b auth, pre = a ++ q :: b ∧ MakesRequest connect r q ∧
      (startedPc crypto self start trustedDevices supportsProcessCapture).machine.events turns =
        a ++ q :: (b ++ e :: post) ∧
      connect.deviceAuth = some auth ∧ auth.phoneConfirmation = some true := by
  obtain ⟨a, q, b, world, calls', rfl, hsplit, hcalled, hthen, -⟩ :=
    earlier_call hrun hwork hcreated
  obtain ⟨calls'', -, -, auth, identity, hproved, hconfirmed⟩ :=
    contract_of_called ControlDispatcher.handleConnect_obeys hsplit hcalled
  exact ⟨a, q, b, auth, rfl, hcalled, hsplit, hproved.proof, hconfirmed⟩

/-- The user is asked about a key the device has proved to hold. -/
theorem connect_of_asked {request : ConnectionApprovalRequest}
    (hrun : (startedPc crypto self start trustedDevices supportsProcessCapture).machine.events
      turns = pre ++ e :: post)
    (hcalled : e.output = .called id job ⟨.requestApproval request, ()⟩) :
    ∃ connect auth a q b, connect.deviceId = request.deviceId ∧ connect.deviceAuth = some auth ∧
      auth.phoneConfirmation = some true ∧
      devicePublicKeyFingerprint crypto auth.publicKey = .ok request.keyFingerprint ∧
      Proves crypto self request.deviceId auth pre ∧ pre = a ++ q :: b ∧
      MakesRequest connect request.requestId q := by
  obtain ⟨connect, calls, rfl, rfl, hwork, hdevice, auth, identity, hproved, hshown, hcreated⟩ :=
    connect_of_called hrun hcalled rfl rfl
  obtain ⟨a, q, b, auth', hpre, hmakes, -, hproof, hconfirmed⟩ :=
    makes_of_created hrun hwork hcreated
  obtain rfl := Option.some.inj (hproof.symm.trans hproved.proof)
  obtain ⟨hproves, -, hprint⟩ := proves_of_proved hrun hwork hproved
  exact ⟨connect, auth', a, q, b, hdevice.symm, hproof, hconfirmed, hshown ▸ hprint,
    hdevice ▸ hproves, hpre, hmakes⟩

/-- The answer of the user is one to the request that was made, about the key of its Connect. -/
theorem approval_of_resolved {p : PendingApproval}
    (hfresh : FreshRequests ((startedPc crypto self start trustedDevices
      supportsProcessCapture).machine.events turns))
    (hrun : (startedPc crypto self start trustedDevices supportsProcessCapture).machine.events
      turns = pre ++ e :: post)
    (hmade : Made (fun s _ => Approves r p s) e) :
    ∃ request connect auth a q b, request.requestId = r ∧ request.deviceId = p.deviceId ∧
      connect.deviceAuth = some auth ∧ Approval crypto self request auth p.createdAt pre e ∧
      (startedPc crypto self start trustedDevices supportsProcessCapture).machine.events turns =
        a ++ q :: b ∧ MakesRequest connect r q := by
  obtain ⟨id, job, call, hcalled, rfl, hlookup, hrecent⟩ := hmade
  obtain ⟨request, calls, rfl, rfl, hwork, hagreed⟩ := approval_of_called hrun hcalled
  obtain ⟨as, hpre, hbefore⟩ := Machine.run_of_split _ hrun
  have hstood := request_origin (hbefore ▸ hlookup)
  rw [← hpre] at hstood
  obtain ⟨yes, hyes, job', hsaid⟩ := called_of_work hwork hagreed
  obtain ⟨p', asked, m, id₁, job₁, rfl, hasked⟩ := asked_of_work hrun hwork
  have hatAsked : (startedPc crypto self start trustedDevices
      supportsProcessCapture).machine.events turns = p' ++ asked :: (m ++ e :: post) := by
    rw [hrun, List.append_assoc, List.cons_append]
  obtain ⟨connect, auth, a, q, b, hdevice, hproof, hconfirmed, hshown, hproves, rfl, hmakes⟩ :=
    connect_of_asked hatAsked hasked
  have hatMade : (startedPc crypto self start trustedDevices
      supportsProcessCapture).machine.events turns =
        a ++ q :: (b ++ asked :: (m ++ e :: post)) := by
    rw [hatAsked, List.append_assoc, List.cons_append]
  -- The request that stood is the one the user was asked about, for its identity is fresh.
  have hsame : request.deviceId = p.deviceId := by
    obtain ⟨x, c, y, hsplit, ⟨id₂, job₂, _, hcreated, -, rfl⟩, -⟩ := hstood
    have hatCreated : (startedPc crypto self start trustedDevices
        supportsProcessCapture).machine.events turns = x ++ c :: (y ++ e :: post) := by
      rw [hrun, hsplit, List.append_assoc, List.cons_append]
    obtain ⟨connect', calls', rfl, rfl, -, hown, -⟩ := connect_of_called hatCreated hcreated rfl rfl
    have hmakes' : MakesRequest connect' request.requestId c := by
      rw [MakesRequest, ← hown]
      exact hcreated
    obtain ⟨-, -, rfl⟩ := hfresh.eq_of_makes hatCreated hatMade hmakes' hmakes
    exact hdevice.symm.trans hown.symm
  refine ⟨request, connect, auth, a, q, _, rfl, hsame, hproof, ⟨⟨id, hcalled⟩,
    ⟨asked, by simp, id₁, job₁, _, hasked, rfl⟩, ⟨yes, hyes, id, job', _, hsaid, rfl⟩, hshown,
    hsame ▸ hstood, hrecent, hconfirmed, ?_⟩, hatMade, hmakes⟩
  exact hproves.mono

/-- A key that waits for a request was proved for the Connect that made the request. -/
theorem connect_of_held {p : PendingPairing}
    (hrun : (startedPc crypto self start trustedDevices supportsProcessCapture).machine.events
      turns = pre ++ e :: post)
    (hheld : Made (fun _ => Held r p) e) :
    ∃ connect auth a q b, connect.deviceAuth = some auth ∧
      p.identity.publicKey = auth.publicKey ∧ pre = a ++ q :: b ∧ MakesRequest connect r q := by
  obtain ⟨id, job, call, hcalled, -, rfl⟩ := hheld
  obtain ⟨connect, calls, rfl, rfl, hwork, hdevice, auth, hproved, hcreated⟩ :=
    connect_of_called hrun hcalled rfl rfl
  obtain ⟨a, q, b, auth', hpre, hmakes, -, hproof, -⟩ := makes_of_created hrun hwork hcreated
  obtain rfl := Option.some.inj (hproof.symm.trans hproved.proof)
  exact ⟨connect, auth', a, q, b, hproof, (proves_of_proved hrun hwork hproved).2.1, hpre, hmakes⟩

/-- Who is admitted with an approved request holds the key the user was shown. -/
theorem foundApproved_of_route {identity : VerifiedDeviceIdentity}
    (hfresh : FreshRequests ((startedPc crypto self start trustedDevices
      supportsProcessCapture).machine.events turns))
    (hrun : (startedPc crypto self start trustedDevices supportsProcessCapture).machine.events
      turns = pre ++ e :: post)
    (hwork : work .dispatcher pre = some (.handle (.connect connect), calls))
    (hpairing : ⟨.pendingPairing r connect.deviceId key, some identity⟩ ∈ calls)
    (hstatus : ⟨.pendingStatus r connect.deviceId, some .approved⟩ ∈ calls) :
    FoundApproved crypto self r connect.deviceId key pre ∧ identity.publicKey = key := by
  -- The key that waits for the request.
  obtain ⟨a, q, b, world, -, rfl, hatPairing, hcalled, -, hexecute⟩ :=
    earlier_call hrun hwork hpairing
  obtain ⟨-, hanswer⟩ := Prod.mk.inj (Option.some.inj hexecute)
  obtain ⟨hkey, createdAt, hlookup, -⟩ := DeviceAuthManager.pendingPairing_eq_some_iff.mp hanswer
  obtain ⟨as, rfl, hbefore⟩ := Machine.run_of_split _ hatPairing
  obtain ⟨p₁, held, m₁, hsplit₁, hheld, -⟩ := pairing_origin (hbefore ▸ hlookup)
  rw [hsplit₁, List.append_assoc, List.cons_append] at hatPairing
  obtain ⟨connect₁, auth₁, a₁, q₁, b₁, hproof₁, hkey₁, rfl, hmakes₁⟩ :=
    connect_of_held hatPairing hheld
  rw [List.append_assoc, List.cons_append] at hatPairing
  -- The answer of the user.
  obtain ⟨a₂, q₂, b₂, world₂, -, hpre, hatStatus, hcalled₂, -, hexecute₂⟩ :=
    earlier_call hrun hwork hstatus
  obtain ⟨-, hanswer₂⟩ := Prod.mk.inj (Option.some.inj hexecute₂)
  obtain ⟨createdAt₂, hlookup₂, -⟩ := SessionAuthorizer.pendingStatus_eq_some_iff.mp hanswer₂
  obtain ⟨as₂, rfl, hbefore₂⟩ := Machine.run_of_split _ hatStatus
  obtain ⟨p₃, yes, m₃, hsplit₃, hyes, hkept⟩ := approval_origin (hbefore₂ ▸ hlookup₂) rfl
  rw [hsplit₃, List.append_assoc, List.cons_append] at hatStatus
  obtain ⟨request, connect₃, auth₃, a₃, q₃, b₃, hid, hdevice, hproof₃, happroval, hatMade,
    hmakes₃⟩ := approval_of_resolved hfresh hatStatus hyes
  obtain ⟨-, -, rfl⟩ := hfresh.eq_of_makes hatPairing hatMade hmakes₁ hmakes₃
  obtain rfl := Option.some.inj (hproof₁.symm.trans hproof₃)
  refine ⟨⟨_, q₂, b₂, hpre, ⟨_, _, _, hcalled₂, rfl⟩, p₃, yes, m₃, hsplit₃,
    ⟨request, auth₁, createdAt₂, hid, hdevice, hkey₁.symm.trans hkey, happroval⟩, hkept⟩, hkey⟩

end Approvals

section Examples

/-- Libraries that accept every signature. -/
def lenientCrypto : Crypto where
  base64Encode := hexDigits
  base64Decode text :=
    .ok (if text = "key" then 0x04 :: List.replicate 64 0 else List.replicate 32 0)
  hexEncode := hexDigits
  sha256 bytes := bytes
  ecdsaVerify _ _ _ := true

/-- A PC on which no device is trusted. -/
def unpairedPc : TrustedDeviceStore := .load (some ⟨some "certificate", []⟩)

/-- What the random source returns, in digits. -/
def drawn : String := hexDigits (List.replicate 32 7)

/-- A Connect of the phone comes in at a handler, and is handled. -/
def connects (auth : DeviceAuthRequest) (pendingRequestId : Option String) (n operations : ℕ) :
    List (Turn World TaskId Job Change) :=
  [.start (.http n) (.http n phoneAddr none (.connect {
      deviceId := "phone", deviceName := "Phone", pendingRequestId, deviceAuth := some auth })),
    .run (.http n) calm, .run (.http n) calm,
    .start .dispatcher (.handle (.connect {
      delayedConnect with
      responseTx := n, authorized := false, pendingRequestId, deviceAuth := some auth }))] ++
    List.replicate operations (.run .dispatcher calm)

/-- What the user of the PC is shown. -/
def shownRequest : ConnectionApprovalRequest where
  requestId := drawn
  deviceId := "phone"
  name := "Phone"
  addr := phoneAddr
  keyFingerprint := hexDigits (0x04 :: List.replicate 64 0)
  pairingCode := "700385"
  replacesExistingIdentity := false

/-- The phone is challenged and answers, the user approves, and the phone comes back. -/
def firstPairing : List (Turn World TaskId Job Change) :=
  connects ⟨"key", "nonce", none, none, none⟩ none 0 4 ++
    connects ⟨"key", "nonce", some drawn, some "signature", some true⟩ none 1 8 ++
    [.start (.approval 0) (.approval shownRequest),
      .run (.approval 0) { calm with approved := true }, .run (.approval 0) calm] ++
    connects ⟨"key", "nonce", none, none, none⟩ (some drawn) 2 12

theorem fresh_firstPairing : FreshRequests
    ((startedPc lenientCrypto examplePc 0 unpairedPc true).machine.events firstPairing) := by
  unfold FreshRequests
  decide +kernel

end Examples

section Trust

/-- The key was trusted at the start, or the user has approved it for the device since, and the
device has not been forgotten or given another key. -/
def Vouched (crypto : Crypto) (self : ControlDispatcher) (trustedDevices : TrustedDeviceStore)
    (d : DeviceId) (key : String) (h : List ControlEvent) : Prop :=
  (trustedDevices.isTrusted d key = true ∧ ∀ e ∈ h, ¬Made (fun _ _ => Forgotten d key) e) ∨
    Since (fun pre e => Made (fun _ _ => Remembered d key) e ∧
      ∃ r, FoundApproved crypto self r d key pre) (Made fun _ _ => Forgotten d key) h

/-- A key is trusted only if it was so at the start, or the device has proved that it holds the
key, both users have confirmed it and the dispatcher has found their request standing. -/
theorem keys_vouched (crypto : Crypto) (self : ControlDispatcher) (start : ℕ)
    (trustedDevices : TrustedDeviceStore) (supportsProcessCapture : Bool)
    (turns : List (Turn World TaskId Job Change))
    (hfresh : FreshRequests ((startedPc crypto self start trustedDevices
      supportsProcessCapture).machine.events turns)) (d : DeviceId) (key : String)
    (htrusted : ((startedPc crypto self start trustedDevices
      supportsProcessCapture).machine.run turns).shared.trustedDevices.isTrusted d key = true) :
    Vouched crypto self trustedDevices d key
      ((startedPc crypto self start trustedDevices supportsProcessCapture).machine.events
        turns) := by
  obtain hfirst | ⟨pre, e, post, hrun, hmade, hkept⟩ := trust_origin htrusted
  · exact .inl hfirst
  · refine .inr ⟨pre, e, post, hrun, ⟨hmade, ?_⟩, hkept⟩
    obtain ⟨id, job, _, hcalled, name, rfl⟩ := hmade
    obtain ⟨connect, calls, rfl, rfl, hwork, rfl, admission, identity, hroute, hidentity, rfl⟩ :=
      connect_of_called hrun hcalled rfl rfl
    cases hroute with
    | token => cases hidentity
    | trusted => cases hidentity
    | approved hauthorized hrequest hproof hpairing hstatus =>
      obtain ⟨hfound, hkey⟩ := foundApproved_of_route hfresh hrun hwork hpairing hstatus
      cases hidentity
      exact ⟨_, hkey ▸ hfound⟩

theorem keys_vouched_firstPairing : Vouched lenientCrypto examplePc unpairedPc "phone" "key"
    ((startedPc lenientCrypto examplePc 0 unpairedPc true).machine.events firstPairing) :=
  keys_vouched lenientCrypto examplePc 0 unpairedPc true firstPairing fresh_firstPairing "phone"
    "key" (by decide +kernel)

/-- It is so at every event. -/
theorem vouched_before
    (hfresh : FreshRequests ((startedPc crypto self start trustedDevices
      supportsProcessCapture).machine.events turns))
    (hrun : (startedPc crypto self start trustedDevices supportsProcessCapture).machine.events
      turns = pre ++ e :: post)
    (htrusted : e.before.shared.trustedDevices.isTrusted d key = true) :
    Vouched crypto self trustedDevices d key pre := by
  obtain ⟨as, rfl, hbefore⟩ := Machine.run_of_split _ hrun
  rw [hrun] at hfresh
  exact keys_vouched crypto self start trustedDevices supportsProcessCapture as hfresh.of_append d
    key (hbefore ▸ htrusted)

end Trust

section Sessions

/-- What a session is made valid for. -/
inductive Entitled (crypto : Crypto) (self : ControlDispatcher)
    (trustedDevices : TrustedDeviceStore) (connect : ConnectCommand) (h : List ControlEvent) : Prop
  /-- The device has shown the token of its session. -/
  | token {pre post : List ControlEvent} {e : ControlEvent} {token : String}
      {session : AuthorizedSession} (hauthorized : connect.authorized = true)
      (hsplit : h = pre ++ e :: post)
      (hshown : Made (fun _ _ call =>
        call = ⟨.authenticate connect.deviceId token, some session⟩) e)
  /-- The device has proved that it holds a key, and the key was trusted when it was looked up. -/
  | key {pre post : List ControlEvent} {e : ControlEvent} {auth : DeviceAuthRequest}
      (hauthorized : connect.authorized = false) (hproof : connect.deviceAuth = some auth)
      (hproves : Proves crypto self connect.deviceId auth h) (hsplit : h = pre ++ e :: post)
      (hlooked : Made (fun _ _ call =>
        call = ⟨.isTrusted connect.deviceId auth.publicKey, true⟩) e)
      (hvouched : Vouched crypto self trustedDevices connect.deviceId auth.publicKey pre)
  /-- The user of the PC has approved its request for the key. -/
  | request {r : String} {auth : DeviceAuthRequest} (hauthorized : connect.authorized = false)
      (hrequest : connect.pendingRequestId = some r) (hproof : connect.deviceAuth = some auth)
      (hfound : FoundApproved crypto self r connect.deviceId auth.publicKey h)

/-- A session is made valid for a Connect that is entitled to it. -/
def Issued (crypto : Crypto) (self : ControlDispatcher) (trustedDevices : TrustedDeviceStore)
    (connect : ConnectCommand) (h : List ControlEvent) (e : ControlEvent) : Prop :=
  (∃ pending answer, pending.deviceId = connect.deviceId ∧
    e.output = .called .dispatcher (.handle (.connect connect)) ⟨.commit pending, answer⟩) ∧
    Entitled crypto self trustedDevices connect h

/-- A Connect that counts as authorized came with the token of the session of its device. -/
theorem shown_of_authorized
    (hrun : (startedPc crypto self start trustedDevices supportsProcessCapture).machine.events
      turns = pre ++ e :: post)
    (hwork : work id pre = some (.handle (.connect connect), calls))
    (hauthorized : connect.authorized = true) :
    ∃ a q b token session, pre = a ++ q :: b ∧
      Made (fun _ _ call => call = ⟨.authenticate connect.deviceId token, some session⟩) q := by
  obtain ⟨a, q, b, id', job', rfl, hsent⟩ := sent_of_work hrun hwork
  rw [List.append_assoc, List.cons_append] at hrun
  obtain ⟨n, calls', rfl, hwork', -, session, hshown, hsome⟩ := handler_of_called hrun hsent
  obtain ⟨session, rfl⟩ := Option.isSome_iff_exists.mp (hsome.symm.trans hauthorized)
  obtain ⟨token, hmem⟩ := hshown.1 (Option.some_ne_none _)
  obtain ⟨a', q', b', world, -, rfl, -, hcalled, -⟩ := earlier_call hrun hwork' hmem
  exact ⟨a', q', b' ++ q :: b, token, session, by simp, _, _, _, hcalled, rfl⟩

/-- Every session is made valid for a Connect of its device. -/
def SessionsIssued (crypto : Crypto) (self : ControlDispatcher)
    (trustedDevices : TrustedDeviceStore) (events : List ControlEvent) : Prop :=
  ∀ pre e post id job pending answer, events = pre ++ e :: post →
    e.output = .called id job ⟨.commit pending, answer⟩ →
    ∃ connect, connect.deviceId = pending.deviceId ∧
      Issued crypto self trustedDevices connect pre e

/-- Every session the PC makes valid is one its device is entitled to. -/
theorem sessions_issued (crypto : Crypto) (self : ControlDispatcher) (start : ℕ)
    (trustedDevices : TrustedDeviceStore) (supportsProcessCapture : Bool)
    (turns : List (Turn World TaskId Job Change))
    (hfresh : FreshRequests ((startedPc crypto self start trustedDevices
      supportsProcessCapture).machine.events turns)) :
    SessionsIssued crypto self trustedDevices ((startedPc crypto self start trustedDevices
      supportsProcessCapture).machine.events turns) := by
  intro pre e post id job pending answer hrun hcalled
  obtain ⟨connect, calls, rfl, rfl, hwork, -, hprepared, admission, hroute⟩ :=
    connect_of_called hrun hcalled rfl rfl
  have hdevice : pending.deviceId = connect.deviceId := by
    obtain ⟨a, q, b, world, -, -, -, -, -, hexecute⟩ := earlier_call hrun hwork hprepared
    obtain ⟨-, hanswer⟩ := Prod.mk.inj (Option.some.inj hexecute)
    change (SessionAuthorizer.prepare _ _ _ _).2 = _ at hanswer
    unfold SessionAuthorizer.prepare at hanswer
    split at hanswer
    · cases hanswer
    · rw [← Except.ok.inj hanswer]
  refine ⟨connect, hdevice.symm, ⟨pending, answer, hdevice, hcalled⟩, ?_⟩
  cases hroute with
  | token hauthorized =>
    obtain ⟨a, q, b, token, session, hsplit, hshown⟩ := shown_of_authorized hrun hwork hauthorized
    exact .token hauthorized hsplit hshown
  | trusted hproved hphone htrusted =>
    obtain ⟨hproves, hkey, -⟩ := proves_of_proved hrun hwork hproved
    obtain ⟨a, q, b, world, -, hsplit, hatTrusted, hlooked, -, hexecute⟩ :=
      earlier_call hrun hwork htrusted
    obtain ⟨-, hanswer⟩ := Prod.mk.inj (Option.some.inj hexecute)
    rw [hkey] at hlooked hanswer
    exact .key hproved.unauthorized hproved.proof hproves hsplit ⟨_, _, _, hlooked, rfl⟩
      (vouched_before hfresh hatTrusted hanswer)
  | approved hauthorized hrequest hproof hpairing hstatus =>
    exact .request hauthorized hrequest hproof
      (foundApproved_of_route hfresh hrun hwork hpairing hstatus).1

theorem sessions_issued_firstPairing :
    ((startedPc lenientCrypto examplePc 0 unpairedPc true).machine.run
        firstPairing).shared.authorizer.hasSession "phone" = true ∧
      SessionsIssued lenientCrypto examplePc unpairedPc
        ((startedPc lenientCrypto examplePc 0 unpairedPc true).machine.events firstPairing) :=
  ⟨by decide +kernel, sessions_issued lenientCrypto examplePc 0 unpairedPc true firstPairing
    fresh_firstPairing⟩

/-- Whoever has a session was given its first one for a key, not for a token. -/
theorem sessions_rooted (crypto : Crypto) (self : ControlDispatcher) (start : ℕ)
    (trustedDevices : TrustedDeviceStore) (supportsProcessCapture : Bool)
    (turns : List (Turn World TaskId Job Change))
    (hfresh : FreshRequests ((startedPc crypto self start trustedDevices
      supportsProcessCapture).machine.events turns)) (d : DeviceId)
    (hsession : ((startedPc crypto self start trustedDevices
      supportsProcessCapture).machine.run turns).shared.authorizer.hasSession d = true) :
    ∃ pre e post connect, (startedPc crypto self start trustedDevices
        supportsProcessCapture).machine.events turns = pre ++ e :: post ∧
      connect.deviceId = d ∧ connect.authorized = false ∧
      Issued crypto self trustedDevices connect pre e := by
  induction hlength : turns.length using Nat.strong_induction_on generalizing turns with
  | h n ih =>
  obtain ⟨record, hlookup⟩ := Option.isSome_iff_exists.mp hsession
  obtain ⟨pre, e, post, hrun, ⟨id, job, _, hcalled, rfl⟩, -⟩ := session_origin hlookup
  obtain ⟨connect, rfl, hissued⟩ := sessions_issued crypto self start trustedDevices
    supportsProcessCapture turns hfresh pre e post id job _ _ hrun hcalled
  cases hissued.2 with
  | key hauthorized | request hauthorized =>
    exact ⟨pre, e, post, connect, hrun, rfl, hauthorized, hissued⟩
  | @token a b q token session _ hsplit hshown =>
    -- The session whose token was shown is older.
    rw [hsplit, List.append_assoc, List.cons_append] at hrun
    obtain ⟨id', job', _, hcalled', rfl⟩ := hshown
    obtain ⟨-, world, -, hexecute⟩ :=
      called_of_mem (hrun ▸ List.mem_append_right _ List.mem_cons_self) hcalled'
    obtain ⟨-, hanswer⟩ := Prod.mk.inj (Option.some.inj hexecute)
    obtain ⟨-, hold⟩ := SessionAuthorizer.authenticate_eq_some_iff.mp hanswer
    obtain ⟨as, bs, hturns, hpre, hq, -⟩ := Machine.eventsFrom_split _ hrun
    have hbefore : q.before = (startedPc crypto self start trustedDevices
        supportsProcessCapture).machine.run as := congrArg Event.before hq
    have hfresh' : FreshRequests ((startedPc crypto self start trustedDevices
        supportsProcessCapture).machine.events as) := by
      rw [hrun, hpre] at hfresh
      exact hfresh.of_append
    have hshorter : as.length < n := by
      rw [← hlength, hturns, List.length_append, List.length_cons]
      omega
    obtain ⟨pre', e', post', connect', hsplit', hdevice, hauthorized, hissued'⟩ :=
      ih as.length hshorter as hfresh' (by
        rw [← hbefore, SessionAuthorizer.hasSession, hold, Option.isSome_some]) rfl
    refine ⟨pre', e', post' ++ q :: (b ++ e :: post), connect', ?_, hdevice, hauthorized, hissued'⟩
    rw [hrun, hpre]
    exact (congrArg (· ++ q :: (b ++ e :: post)) hsplit').trans (by simp)

theorem sessions_rooted_firstPairing :
    ∃ pre e post connect, (startedPc lenientCrypto examplePc 0 unpairedPc true).machine.events
        firstPairing = pre ++ e :: post ∧
      connect.deviceId = "phone" ∧ connect.authorized = false ∧
      Issued lenientCrypto examplePc unpairedPc connect pre e :=
  sessions_rooted lenientCrypto examplePc 0 unpairedPc true firstPairing fresh_firstPairing "phone"
    (by decide +kernel)

end Sessions

section Reuse

/-- A session is made valid with an approved request. -/
def UsesApproval (r : String) (e : ControlEvent) : Prop :=
  ∃ connect pending answer, connect.authorized = false ∧ connect.pendingRequestId = some r ∧
    e.output = .called .dispatcher (.handle (.connect connect)) ⟨.commit pending, answer⟩

/-- Who comes back with a request that is approved has found it so. -/
theorem Route.status {admission : Admission} (h : Route self connect calls admission)
    (hauthorized : connect.authorized = false) (hrequest : connect.pendingRequestId = some r) :
    ⟨.pendingStatus r connect.deviceId, some .approved⟩ ∈ calls := by
  cases h with
  | token htoken => cases htoken.symm.trans hauthorized
  | trusted hproved => cases hproved.noRequest.symm.trans hrequest
  | approved _ hown _ _ hstatus =>
    obtain rfl := Option.some.inj (hown.symm.trans hrequest)
    exact hstatus

/-- A request that is found was made, and not withdrawn until then. -/
theorem makes_of_found {status : PendingApprovalStatus}
    (hrun : (startedPc crypto self start trustedDevices supportsProcessCapture).machine.events
      turns = pre ++ e :: post)
    (hcalled : e.output = .called id job ⟨.pendingStatus r d, some status⟩) :
    ∃ a q b connect, pre = a ++ q :: b ∧ connect.deviceId = d ∧ MakesRequest connect r q ∧
      ∀ f ∈ b, ¬Made (fun _ _ => Withdrawn r d) f := by
  obtain ⟨-, world, -, hexecute⟩ :=
    called_of_mem (hrun ▸ List.mem_append_right _ List.mem_cons_self) hcalled
  obtain ⟨-, hanswer⟩ := Prod.mk.inj (Option.some.inj hexecute)
  obtain ⟨createdAt, hlookup, -⟩ := SessionAuthorizer.pendingStatus_eq_some_iff.mp hanswer
  obtain ⟨as, rfl, hbefore⟩ := Machine.run_of_split _ hrun
  obtain ⟨a, q, b, hsplit, ⟨id', job', _, hcreated, -, rfl⟩, hkept⟩ :=
    request_origin (hbefore ▸ hlookup)
  rw [hsplit, List.append_assoc, List.cons_append] at hrun
  obtain ⟨connect, calls, rfl, rfl, -, hdevice, -⟩ := connect_of_called hrun hcreated rfl rfl
  refine ⟨a, q, b, connect, hsplit, hdevice.symm, ?_, hkept⟩
  rw [MakesRequest, ← hdevice]
  exact hcreated

/-- No request is used for two sessions. -/
def ApprovalsUsedOnce (events : List ControlEvent) : Prop :=
  ∀ pre e mid e' post r, events = pre ++ e :: (mid ++ e' :: post) → UsesApproval r e →
    ¬UsesApproval r e'

/-- The approval of the user is good for one session. -/
theorem approvals_usedOnce (crypto : Crypto) (self : ControlDispatcher) (start : ℕ)
    (trustedDevices : TrustedDeviceStore) (supportsProcessCapture : Bool)
    (turns : List (Turn World TaskId Job Change))
    (hfresh : FreshRequests ((startedPc crypto self start trustedDevices
      supportsProcessCapture).machine.events turns)) :
    ApprovalsUsedOnce ((startedPc crypto self start trustedDevices
      supportsProcessCapture).machine.events turns) := by
  rintro pre e mid e' post r hrun ⟨connect, pending, answer, hauthorized, hrequest, hcommit⟩
    ⟨connect', pending', answer', hauthorized', hrequest', hcommit'⟩
  have hatLast : (startedPc crypto self start trustedDevices
      supportsProcessCapture).machine.events turns = (pre ++ e :: mid) ++ e' :: post := by
    rw [hrun, List.append_assoc, List.cons_append]
  obtain ⟨calls, hwork, hnone, -, admission, hroute⟩ :=
    contract_of_called ControlDispatcher.handleConnect_obeys hatLast hcommit'
  have hstatus := hroute.status hauthorized' hrequest'
  -- The second handling found the request standing, after the first session was made valid.
  obtain ⟨a, q, b, job', before, rest, hpre, hfound, hthen, rfl, hsince⟩ :=
    split_of_work hwork hstatus
  have hatFound : (startedPc crypto self start trustedDevices
      supportsProcessCapture).machine.events turns = a ++ q :: (b ++ e' :: post) := by
    rw [hatLast, hpre, List.append_assoc, List.cons_append]
  have hearlier : e ∈ a := by
    have he : e ∈ a ++ q :: b := hpre ▸ List.mem_append_right _ List.mem_cons_self
    obtain hold | hlater := List.mem_append.mp he
    · exact hold
    · obtain rfl | hlater := List.mem_cons.mp hlater
      · cases hfound.symm.trans hcommit
      · have hmem := hsince e hlater _ _ hcommit
        exact absurd rfl (hnone _ (List.mem_append_right _ (List.mem_cons_of_mem _ hmem)) pending)
  obtain ⟨a₁, made, b₁, connect₁, rfl, -, hmakes₁, hkept⟩ := makes_of_found hatFound hfound
  have hatMade : (startedPc crypto self start trustedDevices
      supportsProcessCapture).machine.events turns =
        a₁ ++ made :: (b₁ ++ q :: (b ++ e' :: post)) := by
    rw [hatFound, List.append_assoc, List.cons_append]
  obtain ⟨calls₀, hwork₀, hmem₀⟩ | ⟨calls₀, hmem₀, hclosed, hevents⟩ :=
    current_or_ended ControlDispatcher.handleConnect_obeys hatFound hearlier hcommit
  · obtain ⟨-, rfl⟩ := Prod.mk.inj (Option.some.inj (hwork₀.symm.trans hthen))
    exact absurd rfl (hnone _ (List.mem_append_left _ hmem₀) pending)
  · -- The first handling has ended and removed the request, which it had found.
    obtain ⟨removed, hremoved, job₂, hcalled₂⟩ := hevents _
      (hclosed r hauthorized hrequest fun hno => hno _ hmem₀ pending rfl)
    obtain ⟨x, y, hsplit⟩ := List.append_of_mem hremoved
    have hatRemoved : (startedPc crypto self start trustedDevices
        supportsProcessCapture).machine.events turns =
          x ++ removed :: (y ++ q :: (b ++ e' :: post)) := by
      rw [hatFound, hsplit, List.append_assoc, List.cons_append]
    obtain ⟨connect₂, calls₂, -, rfl, hwork₂, -⟩ := connect_of_called hatRemoved hcalled₂ rfl rfl
    obtain ⟨calls₃, hwork₃, -, hchecked⟩ :=
      contract_of_called handleConnect_removes hatRemoved hcalled₂
    obtain ⟨status, hchecked⟩ := hchecked r rfl
    obtain ⟨a₃, q₃, b₃, -, -, rfl, hatChecked, hcalled₃, -⟩ :=
      earlier_call hatRemoved hwork₃ hchecked
    obtain ⟨a₄, made', b₄, connect₄, rfl, -, hmakes₄, -⟩ := makes_of_found hatChecked hcalled₃
    rw [List.append_assoc, List.cons_append] at hatChecked
    obtain ⟨rfl, rfl, -⟩ := hfresh.eq_of_makes hatMade hatChecked hmakes₁ hmakes₄
    simp only [List.append_assoc, List.cons_append, List.append_cancel_left_eq,
      List.cons.injEq, true_and] at hsplit
    exact hkept removed (by rw [hsplit]; simp) ⟨_, _, _, hcalled₂, .removed⟩

theorem approvals_usedOnce_firstPairing :
    ((startedPc lenientCrypto examplePc 0 unpairedPc true).machine.run
        firstPairing).shared.authorizer.hasSession "phone" = true ∧
      ApprovalsUsedOnce
        ((startedPc lenientCrypto examplePc 0 unpairedPc true).machine.events firstPairing) :=
  ⟨by decide +kernel, approvals_usedOnce lenientCrypto examplePc 0 unpairedPc true firstPairing
    fresh_firstPairing⟩

end Reuse

end Gemacast.Control
