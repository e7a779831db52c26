import Gemacast.Control.Dispatcher
import Gemacast.Streamer.PoolSpec

/-!
# A Connect that fails

What a Connect of a connected device leaves of its previous session when it fails. Whatever
refuses the Connect before its stream is started changes nothing of that session, and neither
does a stream that cannot be started. A started stream whose key cannot be remembered is
taken back as if there had been no session before.
-/

namespace Gemacast.Control

open Gemacast.Core Gemacast.Streamer Program

/-- One operation, under the answers the world has for it. -/
def executeUnder (crypto : Crypto) (world : ControlOp → World) (s : Stores) (op : ControlOp) :
    Option (Stores × Answer op) :=
  s.execute crypto (world op) op

/-- Nothing of the session a device has is lost: its token authenticates as before, its entry
in the registry is the same, and so are its stream and the encoder of the stream. -/
structure Intact (d : DeviceId) (s s' : Stores) : Prop where
  /-- The token. -/
  token : ∀ token session, s.authorizer.authenticate d token = some session →
    s'.authorizer.authenticate d token = some session
  /-- The entry in the registry. -/
  registry : s'.registry.lookup d = s.registry.lookup d
  /-- The stream. -/
  stream : s'.audio.activePlayerSessions.lookup d = s.audio.activePlayerSessions.lookup d
  /-- The number of the stream. -/
  generation : s'.audio.sessionGenerations.lookup d = s.audio.sessionGenerations.lookup d
  /-- The encoder of the stream. -/
  encoder : ∀ session, s.audio.activePlayerSessions.lookup d = some session →
    s'.audio.pool.encoderAt session.source (session.target d) =
      s.audio.pool.encoderAt session.source (session.target d)

/-- The operation has nothing to do with sessions, streams and trusted keys. -/
def Aside : ControlOp → Prop
  | .prepare _ | .commit _ | .revoke .. | .revokeAll | .trust .. | .forget _ | .register ..
  | .unregister _ | .updateLastSeen _ | .drainAll | .evictStale _ | .audio _ => False
  | _ => True

/-- What operations on the side keep. -/
structure Kept (s s' : Stores) : Prop where
  /-- The sessions. -/
  sessions : s'.authorizer.sessions = s.authorizer.sessions
  /-- The number given out last. -/
  nextGeneration : s'.authorizer.nextGeneration = s.authorizer.nextGeneration
  /-- The registry. -/
  registry : s'.registry = s.registry
  /-- The stream engine. -/
  audio : s'.audio = s.audio
  /-- The trusted keys. -/
  trustedDevices : s'.trustedDevices = s.trustedDevices

variable {crypto : Crypto} {world : ControlOp → World} {s s' t : Stores} {d : DeviceId}
  {self : ControlDispatcher} {connect : ConnectCommand}

theorem Kept.refl (s : Stores) : Kept s s := ⟨rfl, rfl, rfl, rfl, rfl⟩

theorem Kept.trans (h : Kept s t) (h' : Kept t s') : Kept s s' :=
  ⟨h'.sessions.trans h.sessions, h'.nextGeneration.trans h.nextGeneration,
    h'.registry.trans h.registry, h'.audio.trans h.audio,
    h'.trustedDevices.trans h.trustedDevices⟩

theorem Kept.symm (h : Kept s t) : Kept t s :=
  ⟨h.sessions.symm, h.nextGeneration.symm, h.registry.symm, h.audio.symm, h.trustedDevices.symm⟩

/-- An operation on the side keeps sessions, streams and trusted keys. -/
theorem Kept.of_execute {w : World} {op : ControlOp} {answer : Answer op} (hop : Aside op)
    (h : s.execute crypto w op = some (t, answer)) : Kept s t := by
  have hreached {u : Stores} {answer' : Answer op} (heq : some (u, answer') = some (t, answer)) :
      u = t := (Prod.mk.inj (Option.some.inj heq)).1
  cases op with
  | createPending deviceId =>
    obtain rfl := hreached h
    exact ⟨SessionAuthorizer.createPending_sessions.1,
      SessionAuthorizer.createPending_sessions.2, rfl, rfl, rfl⟩
  | resolvePending requestId approved =>
    obtain rfl := hreached h
    exact ⟨SessionAuthorizer.resolvePending_sessions.1,
      SessionAuthorizer.resolvePending_sessions.2, rfl, rfl, rfl⟩
  | openBroadcaster =>
    simp only [Stores.execute] at h
    split at h <;> cases h <;> exact ⟨rfl, rfl, rfl, rfl, rfl⟩
  | send command =>
    simp only [Stores.execute] at h
    split at h
    · cases h
      exact .refl s
    · split at h
      · cases h
        exact ⟨rfl, rfl, rfl, rfl, rfl⟩
      · nomatch h
  | awaitResponse responseRx timeout =>
    simp only [Stores.execute] at h
    split at h
    · cases h
      exact .refl s
    · split at h
      · cases h
        exact .refl s
      · split at h
        · cases h
          exact .refl s
        · nomatch h
  | prepare | commit | revoke | revokeAll | trust | forget | register | unregister
  | updateLastSeen | drainAll | evictStale | audio => exact hop.elim
  | _ =>
    obtain rfl := hreached h
    exact ⟨rfl, rfl, rfl, rfl, rfl⟩

/-- The key a Connect comes back with an approved request for. -/
def Stores.approvedIdentity (s : Stores) (connect : ConnectCommand) :
    Option VerifiedDeviceIdentity :=
  if connect.authorized then none
  else connect.pendingRequestId.bind fun requestId => connect.deviceAuth.bind fun auth =>
    ((s.deviceAuth.pendingPairing s.now requestId connect.deviceId auth.publicKey).2).filter
      fun _ => (s.authorizer.pendingStatus s.now requestId connect.deviceId).2 = some .approved

/-- The stream a Connect asks for. -/
def ConnectCommand.subscription (connect : ConnectCommand) (pending : PendingSession) :
    AudioStreamCommand :=
  .subscribe connect.deviceId pending.generation
    (if isLoopback connect.remoteAddr.ip then none
      else some { connect.remoteAddr with port := audioUdpPort })
    connect.source connect.bitrate

/-- The Connect comes back with an approved request and its stream can be started, but its key
cannot be remembered. -/
def KeyRefused (crypto : Crypto) (world : ControlOp → World) (s : Stores)
    (connect : ConnectCommand) : Prop :=
  ∃ identity pending error, s.approvedIdentity connect = some identity ∧
    (s.authorizer.prepare crypto.hexEncode ((world (.prepare connect.deviceId)).random 0)
      connect.deviceId).2 = .ok pending ∧
    (s.audioCommand (world (.audio (connect.subscription pending)))
      (connect.subscription pending)).2 = .ok () ∧
    (s.trustedDevices.trust
      (world (.trust connect.deviceId connect.deviceName identity.publicKey)).write
      connect.deviceId connect.deviceName identity.publicKey).2 = .error error

/-- The Connect was answered with an error. -/
def Refused (connect : ConnectCommand) (s' : Stores) : Prop :=
  ∃ message, s'.responses.lookup connect.responseTx = some (.connect (.error message))

section Admission

theorem refuse_uses {message : String} : Uses Aside (ControlDispatcher.refuse connect message) :=
  ⟨trivial, fun _ => trivial⟩

theorem reportPending_uses {requestId : String} :
    Uses Aside (self.reportPending connect requestId) :=
  ⟨trivial, fun _ => ⟨trivial, fun _ => trivial⟩⟩

theorem admitApproved_uses {requestId : String} :
    Uses Aside (self.admitApproved connect requestId) := by
  unfold ControlDispatcher.admitApproved
  split
  · exact refuse_uses
  · rw [perform_bind, uses_call]
    refine ⟨trivial, fun identity => ?_⟩
    cases identity with
    | none => exact refuse_uses
    | some identity =>
      dsimp only
      rw [perform_bind, uses_call]
      refine ⟨trivial, fun status => ?_⟩
      split
      · exact reportPending_uses
      · trivial
      · exact ⟨trivial, fun _ => ⟨trivial, fun _ => refuse_uses⟩⟩
      · exact refuse_uses

theorem requestPairing_uses {identity : VerifiedDeviceIdentity} :
    Uses Aside (self.requestPairing connect identity) := by
  refine ⟨trivial, fun trustedKey => ⟨trivial, fun created => ?_⟩⟩
  cases created with
  | error error => exact refuse_uses
  | ok requestId => exact ⟨trivial, fun _ => ⟨trivial, fun _ => reportPending_uses⟩⟩

theorem admitProved_uses : Uses Aside (self.admitProved connect) := by
  unfold ControlDispatcher.admitProved
  split
  · exact refuse_uses
  · split
    · refine ⟨trivial, fun trusted => ⟨trivial, fun challenge => ?_⟩⟩
      cases challenge with
      | error error => exact refuse_uses
      | ok challenge => exact ⟨trivial, fun _ => ⟨trivial, fun _ => trivial⟩⟩
    · rw [perform_bind, uses_call]
      refine ⟨trivial, fun verified => ?_⟩
      cases verified with
      | error error => exact refuse_uses
      | ok identity =>
        dsimp only
        rw [ControlDispatcher.admitVerified, perform_bind, uses_call]
        refine ⟨trivial, fun alreadyTrusted => ?_⟩
        split
        · trivial
        · split
          · exact requestPairing_uses
          · exact refuse_uses
          · exact refuse_uses

/-- Admitting a Connect touches neither sessions nor streams nor trusted keys. -/
theorem admitDevice_uses : Uses Aside (self.admitDevice connect) := by
  unfold ControlDispatcher.admitDevice
  split
  · trivial
  · split
    · exact admitApproved_uses
    · exact admitProved_uses

/-- The key to be remembered with an admission. -/
def keyOf (admission : Option Admission) : Option VerifiedDeviceIdentity :=
  admission.bind (·.identityToTrust)

theorem refuse_returns {message : String} :
    Returns (keyOf · = none) (ControlDispatcher.refuse connect message) := fun _ => rfl

theorem reportPending_returns {requestId : String} :
    Returns (keyOf · = none) (self.reportPending connect requestId) := fun _ _ => rfl

theorem admitProved_returns : Returns (keyOf · = none) (self.admitProved connect) := by
  unfold ControlDispatcher.admitProved
  split
  · exact refuse_returns
  · split
    · intro trusted challenge
      cases challenge with
      | error error => exact refuse_returns
      | ok challenge => exact fun _ _ => rfl
    · intro verified
      cases verified with
      | error error => exact refuse_returns
      | ok identity =>
        intro alreadyTrusted
        show Returns (keyOf · = none) (if _ then _ else _)
        split
        · rfl
        · split
          · intro trustedKey created
            cases created with
            | error error => exact refuse_returns
            | ok requestId => exact fun _ _ => reportPending_returns
          · exact refuse_returns
          · exact refuse_returns

/-- A Connect that comes back for its request is admitted with the key of the request, and only
if that is approved. -/
theorem admitApproved_key {requestId : String} {admission : Option Admission}
    (hrun : (self.admitApproved connect requestId).runAlone (executeUnder crypto world) s =
      some (t, admission)) :
    keyOf admission = connect.deviceAuth.bind fun auth =>
      ((s.deviceAuth.pendingPairing s.now requestId connect.deviceId auth.publicKey).2).filter
        fun _ => (s.authorizer.pendingStatus s.now requestId connect.deviceId).2 =
          some .approved := by
  unfold ControlDispatcher.admitApproved at hrun
  split at hrun
  · rename_i hproof
    rw [hproof]
    exact refuse_returns.runAlone hrun
  · rename_i auth hproof
    rw [hproof, Option.bind_some]
    rw [perform_bind] at hrun
    obtain ⟨u, identity, hpairing, hrun⟩ := runAlone_call_eq_some.mp hrun
    obtain ⟨rfl, rfl⟩ := Prod.mk.inj (Option.some.inj hpairing)
    split at hrun
    · rename_i hpaired
      rw [hpaired]
      exact refuse_returns.runAlone hrun
    · rename_i identity hpaired
      rw [hpaired]
      rw [perform_bind] at hrun
      obtain ⟨u, status, hasked, hrun⟩ := runAlone_call_eq_some.mp hrun
      obtain ⟨rfl, rfl⟩ := Prod.mk.inj (Option.some.inj hasked)
      split at hrun
      · rename_i hstatus
        rw [Option.filter_some, if_neg (by simp [hstatus])]
        exact reportPending_returns.runAlone hrun
      · rename_i hstatus
        obtain ⟨-, rfl⟩ := Prod.mk.inj (Option.some.inj hrun)
        rw [Option.filter_some, if_pos (by simp [hstatus])]
        rfl
      · rename_i hstatus
        have hnone : Returns (keyOf · = none) (do
            let _ ← ask (.removePending requestId)
            let _ ← ask (.removePendingPairing requestId)
            ControlDispatcher.refuse connect
              s!"connection request {requestId} was rejected on the PC") := fun _ _ _ => rfl
        rw [Option.filter_some, if_neg (by simp [hstatus])]
        exact hnone.runAlone hrun
      · rename_i hstatus
        rw [Option.filter_some, if_neg (by simp [hstatus])]
        exact refuse_returns.runAlone hrun

/-- A Connect is admitted with a key to be remembered exactly if it comes back with an approved
request for it. -/
theorem admitDevice_key {admission : Option Admission}
    (hrun : (self.admitDevice connect).runAlone (executeUnder crypto world) s =
      some (t, admission)) :
    keyOf admission = s.approvedIdentity connect := by
  unfold ControlDispatcher.admitDevice at hrun
  unfold Stores.approvedIdentity
  split at hrun
  · obtain ⟨-, rfl⟩ := Prod.mk.inj (Option.some.inj hrun)
    rw [if_pos ‹_›]
    rfl
  · rw [if_neg ‹_›]
    split at hrun
    · rename_i requestId hrequest
      rw [hrequest]
      exact admitApproved_key hrun
    · rename_i hrequest
      rw [hrequest]
      exact admitProved_returns.runAlone hrun

end Admission

section Streams

variable {w : World} {pending : PendingSession}

theorem Intact.refl (d : DeviceId) (s : Stores) : Intact d s s :=
  ⟨fun _ _ h => h, rfl, rfl, rfl, fun _ _ => rfl⟩

theorem Intact.trans (h : Intact d s t) (h' : Intact d t s') : Intact d s s' where
  token token session hold := h'.token token session (h.token token session hold)
  registry := h'.registry.trans h.registry
  stream := h'.stream.trans h.stream
  generation := h'.generation.trans h.generation
  encoder session hstream :=
    (h'.encoder session (h.stream.trans hstream)).trans (h.encoder session hstream)

theorem Kept.intact (h : Kept s t) : Intact d s t where
  token token session hold := by
    rw [SessionAuthorizer.authenticate_eq_some_iff] at hold ⊢
    rwa [h.sessions]
  registry := by rw [h.registry]
  stream := by rw [h.audio]
  generation := by rw [h.audio]
  encoder session _ := by rw [h.audio]

/-- What a program on the side keeps. -/
theorem Kept.of_runAlone {α : Type} {p : ControlM α} {a : α} (hp : Uses Aside p)
    (hrun : p.runAlone (executeUnder crypto world) s = some (t, a)) : Kept s t :=
  hp.runAlone Kept.refl (fun _ _ _ => Kept.trans)
    (fun _ _ _ _ hop hexecute => Kept.of_execute hop hexecute) hrun

/-- The engine's answer to a command. -/
def answerOf (w : World) (command : AudioStreamCommand) : Option Streamer.Reply → Except String Unit
  | some (.result result) => result
  | _ => .error
      (if w.taken then s!"audio engine dropped the {acknowledgement command} acknowledgement"
      else "audio engine is unavailable")

/-- A command to the stream engine is one round of it. -/
theorem audioCommand_eq {command : AudioStreamCommand} :
    s.audioCommand w command = ((s.engineStep (.command command w.platform)).1,
      answerOf w command (s.audio.step (.command command w.platform)).2.reply) := by
  have hround : (s.engineStep (.command command w.platform)).2 =
      (s.audio.step (.command command w.platform)).2 := rfl
  unfold Stores.audioCommand
  dsimp only
  rw [hround]
  cases (s.audio.step (.command command w.platform)).2.reply with
  | none => rfl
  | some reply => cases reply <;> rfl

/-- The engine answers by its own state alone. -/
theorem audioCommand_congr {command : AudioStreamCommand} (h : t.audio = s.audio) :
    (t.audioCommand w command).2 = (s.audioCommand w command).2 := by
  rw [audioCommand_eq, audioCommand_eq, h]

/-- A subscription that fails leaves every stream and every encoder as it was. -/
theorem subscribe_error {e : AudioStreamEngine} {generation : UInt64} {addr : Option SocketAddr}
    {source : Option AudioSource} {bitrate : Option ℤ} {platform : Platform}
    (h : (e.step (.command (.subscribe d generation addr source bitrate) platform)).2.reply ≠
      some (.result (.ok ()))) :
    let e' := (e.step (.command (.subscribe d generation addr source bitrate) platform)).1
    e'.activePlayerSessions = e.activePlayerSessions ∧
      e'.sessionGenerations = e.sessionGenerations ∧
      ∀ source target, e'.pool.encoderAt source target = e.pool.encoderAt source target := by
  cases hstopped : e.stopped with
  | true =>
    have hstep {input : EngineInput} : e.step input = (e, {}) := by
      rw [AudioStreamEngine.step.eq_def, if_pos hstopped]
    rw [hstep]
    exact ⟨rfl, rfl, fun _ _ => rfl⟩
  | false =>
    have hstep : e.step (.command (.subscribe d generation addr source bitrate) platform) =
        e.subscribe d generation addr source bitrate platform := by
      rw [AudioStreamEngine.step.eq_def, if_neg (by simp [hstopped])]
    rw [hstep] at h ⊢
    unfold AudioStreamEngine.subscribe at h ⊢
    dsimp only at h ⊢
    have hanswer : e.pool.Subscribed (e.finalSource d source) (targetOf addr d) bitrate platform
        (e.pool.subscribe (e.finalSource d source) (targetOf addr d) bitrate platform) :=
      CapturePool.subscribeWithChannel_subscribed
    generalize e.pool.subscribe _ _ bitrate platform = answer at h hanswer ⊢
    obtain ⟨pool, result⟩ := answer
    obtain ⟨error, rfl, hsame⟩ | ⟨channel, encoder, rfl, -⟩ := hanswer.encoderAt_eq
    · exact ⟨rfl, rfl, hsame⟩
    · exact absurd rfl h

/-- A stream that cannot be started leaves the session a device has as it was. -/
theorem Intact.of_subscribe {error : String}
    (h : (s.audioCommand w (connect.subscription pending)).2 = .error error) :
    Intact d s (s.audioCommand w (connect.subscription pending)).1 := by
  rw [audioCommand_eq] at h ⊢
  have hreply : (s.audio.step (.command (connect.subscription pending) w.platform)).2.reply ≠
      some (.result (.ok ())) := by
    intro hok
    rw [hok] at h
    nomatch h
  obtain ⟨hstream, hgeneration, hencoder⟩ := subscribe_error hreply
  exact ⟨fun _ _ hold => hold, rfl, congrArg _ hstream, congrArg _ hgeneration,
    fun _ _ => hencoder _ _⟩

end Streams

section Opening

variable {pending : PendingSession} {admission : Admission}

/-- What the start of a stream leaves: nothing if the engine refuses it, and the trusted keys
as they were if it does not. -/
theorem registerDevice_run {result : Except String Unit}
    (hrun : (registerDevice connect.deviceId pending.generation connect.deviceName
      { connect.remoteAddr with port := audioUdpPort } connect.remoteAddr none connect.source
      connect.bitrate).runAlone (executeUnder crypto world) s = some (t, result)) :
    result = (s.audioCommand (world (.audio (connect.subscription pending)))
        (connect.subscription pending)).2 ∧
      t.trustedDevices = s.trustedDevices ∧ (result ≠ .ok () → Intact d s t) := by
  rw [registerDevice] at hrun
  dsimp only at hrun
  rw [perform_bind] at hrun
  obtain ⟨u, subscribed, hsubscribed, hrun⟩ := runAlone_call_eq_some.mp hrun
  have hsubscribed : s.audioCommand (world (.audio (connect.subscription pending)))
      (connect.subscription pending) = (u, subscribed) := Option.some.inj hsubscribed
  have htrusted : u.trustedDevices = s.trustedDevices := by
    rw [audioCommand_eq] at hsubscribed
    rw [← (Prod.mk.inj hsubscribed).1]
    rfl
  rw [hsubscribed]
  cases subscribed with
  | error error =>
    obtain ⟨rfl, rfl⟩ := Prod.mk.inj (Option.some.inj hrun)
    refine ⟨rfl, htrusted, fun _ => ?_⟩
    have hintact := Intact.of_subscribe (d := d) (congrArg Prod.snd hsubscribed)
    rwa [hsubscribed] at hintact
  | ok _ =>
    rw [perform_bind] at hrun
    obtain ⟨v, outcome, hregistered, hrun⟩ := runAlone_call_eq_some.mp hrun
    obtain ⟨rfl, -⟩ := Prod.mk.inj (Option.some.inj hregistered)
    cases outcome <;>
    · obtain ⟨rfl, rfl⟩ := Prod.mk.inj (Option.some.inj hrun)
      exact ⟨rfl, htrusted, fun hne => absurd rfl hne⟩

theorem commitSession_run {result : Except String PresenceResponse}
    (hrun : (self.commitSession admission pending).runAlone (executeUnder crypto world) s =
      some (t, result)) : result.isOk = true := by
  obtain ⟨-, rfl⟩ := Prod.mk.inj (Option.some.inj hrun)
  rfl

/-- Taking a device back removes it from the registry. -/
theorem unregisterDevice_run {result : Except String Unit}
    (hrun : (unregisterDevice d).runAlone (executeUnder crypto world) s = some (t, result)) :
    t.registry.lookup d = none := by
  rw [unregisterDevice, perform_bind] at hrun
  obtain ⟨u, removed, hremoved, hrun⟩ := runAlone_call_eq_some.mp hrun
  obtain ⟨rfl, -⟩ := Prod.mk.inj (Option.some.inj hremoved)
  cases removed <;>
  · obtain ⟨rfl, -⟩ := Prod.mk.inj (Option.some.inj hrun)
    rw [audioCommand_eq]
    exact AList.lookup_erase _ _

/-- What becomes of an admitted Connect: its stream cannot be started, its key cannot be
remembered, or it succeeds. -/
theorem startSession_run {result : Except String PresenceResponse}
    (hrun : (self.startSession connect admission pending).runAlone (executeUnder crypto world) s =
      some (t, result)) :
    (Intact d s t ∧ (s.audioCommand (world (.audio (connect.subscription pending)))
        (connect.subscription pending)).2 ≠ .ok ()) ∨
      (s.audioCommand (world (.audio (connect.subscription pending)))
        (connect.subscription pending)).2 = .ok () ∧
      ((∃ identity error, admission.identityToTrust = some identity ∧
          (s.trustedDevices.trust
            (world (.trust connect.deviceId connect.deviceName identity.publicKey)).write
            connect.deviceId connect.deviceName identity.publicKey).2 = .error error ∧
          t.registry.lookup connect.deviceId = none) ∨
        result.isOk = true) := by
  obtain ⟨u, registered, hregistered, hrun⟩ := runAlone_bind_eq_some.mp hrun
  obtain ⟨hresult, htrusted, hintact⟩ := registerDevice_run (d := d) hregistered
  rw [← hresult]
  cases registered with
  | error error =>
    obtain ⟨rfl, -⟩ := Prod.mk.inj (Option.some.inj hrun)
    exact .inl ⟨hintact nofun, nofun⟩
  | ok _ =>
    refine .inr ⟨rfl, ?_⟩
    dsimp only at hrun
    unfold ControlDispatcher.establish at hrun
    split at hrun
    · exact .inr (commitSession_run hrun)
    · rename_i identity hidentity
      rw [perform_bind] at hrun
      obtain ⟨v, trusted, hgranted, hrun⟩ := runAlone_call_eq_some.mp hrun
      obtain ⟨rfl, rfl⟩ := Prod.mk.inj (Option.some.inj hgranted)
      rw [htrusted] at hrun
      split at hrun
      · exact .inr (commitSession_run hrun)
      · rename_i error hrefused
        obtain ⟨v, removed, hremoved, hrun⟩ := runAlone_bind_eq_some.mp hrun
        obtain ⟨rfl, -⟩ := Prod.mk.inj (Option.some.inj hrun)
        exact .inl ⟨identity, error, hidentity, hrefused, unregisterDevice_run hremoved⟩

theorem closeRequest_uses : Uses Aside (ControlDispatcher.closeRequest admission) := by
  unfold ControlDispatcher.closeRequest
  split
  · trivial
  · exact ⟨trivial, fun _ => ⟨trivial, fun _ => trivial⟩⟩

theorem prepare_congr {a a' : SessionAuthorizer} {hexEncode : List UInt8 → String}
    {random : Except String (List UInt8)} (h : a'.nextGeneration = a.nextGeneration) :
    (a'.prepare hexEncode random d).2 = (a.prepare hexEncode random d).2 := by
  cases random with
  | error error => rfl
  | ok bytes => simp only [SessionAuthorizer.prepare, h]

theorem prepare_sessions {a : SessionAuthorizer} {hexEncode : List UInt8 → String}
    {random : Except String (List UInt8)} :
    (a.prepare hexEncode random d).1.sessions = a.sessions := by
  cases random <;> rfl

/-- An admitted Connect that fails leaves the session of its device as it was, exactly if it is
not its key that cannot be remembered. -/
theorem openSession_run
    (hregistered : s.registry.lookup connect.deviceId ≠ none)
    (hrun : (self.openSession connect admission).runAlone (executeUnder crypto world) s =
      some (s', ())) (hrefused : Refused connect s') :
    Intact connect.deviceId s s' ↔ ¬∃ identity pending error,
      admission.identityToTrust = some identity ∧
      (s.authorizer.prepare crypto.hexEncode ((world (.prepare connect.deviceId)).random 0)
        connect.deviceId).2 = .ok pending ∧
      (s.audioCommand (world (.audio (connect.subscription pending)))
        (connect.subscription pending)).2 = .ok () ∧
      (s.trustedDevices.trust
        (world (.trust connect.deviceId connect.deviceName identity.publicKey)).write
        connect.deviceId connect.deviceName identity.publicKey).2 = .error error := by
  rw [ControlDispatcher.openSession, perform_bind] at hrun
  obtain ⟨u, prepared, hprepared, hrun⟩ := runAlone_call_eq_some.mp hrun
  obtain ⟨rfl, rfl⟩ := Prod.mk.inj (Option.some.inj hprepared)
  have hintact : Intact connect.deviceId s { s with
      authorizer := (s.authorizer.prepare crypto.hexEncode
        ((world (.prepare connect.deviceId)).random 0) connect.deviceId).1 } := by
    refine ⟨fun token session hold => ?_, rfl, rfl, rfl, fun _ _ => rfl⟩
    rw [SessionAuthorizer.authenticate_eq_some_iff] at hold ⊢
    rwa [prepare_sessions]
  split at hrun
  · rename_i error hprepare
    obtain ⟨rfl, -⟩ := Prod.mk.inj (Option.some.inj hrun)
    refine iff_of_true (hintact.trans ⟨fun _ _ h => h, rfl, rfl, rfl, fun _ _ => rfl⟩) ?_
    rintro ⟨identity, pending, error', -, hok, -⟩
    nomatch hprepare.symm.trans hok
  · rename_i pending hprepare
    obtain ⟨v, result, hstarted, hrun⟩ := runAlone_bind_eq_some.mp hrun
    obtain ⟨x, _, hclosed, hrun⟩ := runAlone_bind_eq_some.mp hrun
    have hclosed := Kept.of_runAlone closeRequest_uses hclosed
    obtain ⟨rfl, -⟩ := Prod.mk.inj (Option.some.inj hrun)
    have hlast : Intact connect.deviceId x { x with
        responses := x.responses.insert connect.responseTx (.connect result) } :=
      ⟨fun _ _ h => h, rfl, rfl, rfl, fun _ _ => rfl⟩
    have hpending {pending'} (hok : (s.authorizer.prepare crypto.hexEncode
        ((world (.prepare connect.deviceId)).random 0) connect.deviceId).2 = .ok pending') :
        pending' = pending := Except.ok.inj (hok.symm.trans hprepare)
    obtain ⟨hstart, hsubscribe⟩ | ⟨hsubscribe, ⟨identity, error, hidentity, htrust, hgone⟩ | hok⟩ :=
      startSession_run (d := connect.deviceId) hstarted
    · refine iff_of_true (((hintact.trans hstart).trans hclosed.intact).trans hlast) ?_
      rintro ⟨identity, pending', error', -, hok, hsubscribed, -⟩
      obtain rfl := hpending hok
      exact hsubscribe ((audioCommand_congr (by rfl)).trans hsubscribed)
    · refine iff_of_false (fun h => hregistered ?_) (not_not.mpr
        ⟨identity, pending, error, hidentity, hprepare,
          (audioCommand_congr (by rfl)).trans hsubscribe,
          htrust⟩)
      rw [← h.registry, ← hgone]
      exact congrArg _ hclosed.registry
    · obtain ⟨message, hmessage⟩ := hrefused
      rw [AList.lookup_insert, Option.some_inj, Response.connect.injEq] at hmessage
      rw [hmessage] at hok
      nomatch hok

/-- A Connect that fails leaves the session its device has as it was, exactly if it is not a
Connect with an approved request whose key cannot be remembered. -/
theorem failedConnect_intact_iff
    (hregistered : s.registry.lookup connect.deviceId ≠ none)
    (hrun : (self.handleConnect connect).runAlone (executeUnder crypto world) s = some (s', ()))
    (hrefused : Refused connect s') :
    Intact connect.deviceId s s' ↔ ¬KeyRefused crypto world s connect := by
  obtain ⟨u, admission, hadmitted, hrun⟩ := runAlone_bind_eq_some.mp hrun
  have hkept := Kept.of_runAlone admitDevice_uses hadmitted
  have hkey := admitDevice_key hadmitted
  cases admission with
  | none =>
    obtain ⟨rfl, -⟩ := Prod.mk.inj (Option.some.inj hrun)
    refine iff_of_true hkept.intact ?_
    rintro ⟨identity, pending, error, hidentity, -⟩
    nomatch hkey.trans hidentity
  | some admission =>
    have hregistered : u.registry.lookup connect.deviceId ≠ none := by rwa [hkept.registry]
    have hopened := openSession_run hregistered hrun hrefused
    have hkey : admission.identityToTrust = s.approvedIdentity connect := hkey
    have hsame : Intact connect.deviceId s s' ↔ Intact connect.deviceId u s' :=
      ⟨hkept.symm.intact.trans, hkept.intact.trans⟩
    rw [hsame, hopened, hkey, prepare_congr hkept.nextGeneration, hkept.trustedDevices]
    simp only [audioCommand_congr hkept.audio]
    rfl

end Opening

section Examples

/-- The PC of the examples. -/
def examplePc : ControlDispatcher := ⟨"pc", "PC", "certificate"⟩

/-- Where the phone of the examples receives its audio. -/
def phoneAddr : SocketAddr := ⟨.v4 3232235786, audioUdpPort⟩

/-- A phone hears the desktop under its first session, and a request to replace its key is
approved. -/
def pairedAgain : Stores where
  now := 1
  isBroadcasting := true
  broadcaster := false
  exiting := false
  authorizer :=
    { sessions := AList.insert "phone" ⟨"token", 1⟩ ∅
      pending := AList.insert "request" ⟨"phone", .approved, 0⟩ ∅
      nextGeneration := 1 }
  deviceAuth :=
    { challenges := ∅
      pendingPairings :=
        AList.insert "request" ⟨"phone", ⟨"new key", "fingerprint", "code"⟩, 0⟩ ∅ }
  trustedDevices := .load (some ⟨some "certificate", [⟨"phone", "Phone", "old key"⟩]⟩)
  registry := AList.insert "phone" ⟨"phone", "Phone", phoneAddr, 0, false, none⟩ ∅
  audio := ((AudioStreamEngine.new false true).subscribe "phone" 1 (some phoneAddr) none none
    ⟨.ok (), true, 0⟩).1
  queue := []
  responses := ∅
  approvals := []
  sessionFailures := []

/-- The phone comes back for the outcome of its request. -/
def comesBack : ConnectCommand where
  deviceId := "phone"
  deviceName := "Phone"
  source := none
  remoteAddr := { phoneAddr with port := 50000 }
  bitrate := none
  responseTx := 0
  authorized := false
  pendingRequestId := some "request"
  deviceAuth := some ⟨"new key", "nonce", none, none, none⟩

/-- A world in which the disk is full. -/
def fullDisk : ControlOp → World := fun _ =>
  { random := fun _ => .ok (List.replicate 32 7), write := .error "disk full" }

/-- A world without randomness. -/
def noRandomness : ControlOp → World := fun _ => { random := fun _ => .error "no entropy" }

/-- A Connect in a world without randomness leaves the session of the phone as it was. -/
theorem failedConnect_intact_iff_noRandomness :
    ∃ s', Intact "phone" pairedAgain s' ↔
      ¬KeyRefused hexCrypto noRandomness pairedAgain comesBack :=
  have hrun : (examplePc.handleConnect comesBack).runAlone (executeUnder hexCrypto noRandomness)
      pairedAgain = some (_, ()) := rfl
  ⟨_, failedConnect_intact_iff (by decide) hrun ⟨_, rfl⟩⟩

/-- The disk is full when the new key is to be remembered. -/
theorem not_failedConnect_intact_fullDisk :
    ¬∀ s', pairedAgain.authorizer.hasSession "phone" = true →
      pairedAgain.registry.lookup "phone" ≠ none →
      pairedAgain.audio.activePlayerSessions.lookup "phone" ≠ none →
      (examplePc.handleConnect comesBack).runAlone (executeUnder hexCrypto fullDisk) pairedAgain =
        some (s', ()) → Refused comesBack s' → Intact "phone" pairedAgain s' := by
  intro h
  have hintact := h _ (by decide) (by decide) (by decide) rfl ⟨_, rfl⟩
  nomatch hintact.registry

end Examples

end Gemacast.Control
