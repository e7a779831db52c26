import Gemacast.Core.Machine
import Gemacast.Control.Ascii
import Gemacast.Control.Handlers

/-!
# A Connect as the phone makes it

The phone asks again and again until it is refused or has a session: it answers the
challenges of the PC, waits while the PC asks its user, and stores the session it is given.
What the network, the certificate check, the signer and the user of the phone answer in one
round comes from outside.
-/

namespace Gemacast.Control

open Gemacast.Core Gemacast.Streamer

/-- The name of a certificate. -/
def sha256Fingerprint (crypto : Crypto) (bytes : List UInt8) : String :=
  crypto.hexEncode (crypto.sha256 bytes)

/-- Why a request of the phone fails. -/
inductive ClientError
  /-- The phone itself refuses to go on. -/
  | rejected (reason : String)
  /-- The PC refuses. -/
  | remoteRejected (code reason : String)
  /-- The request does not get through. -/
  | httpRequestFailed (reason : String)
  deriving DecidableEq, Repr

/-- A session as the phone stores it. -/
structure ControlCredentials where
  /-- The phone. -/
  deviceId : DeviceId
  /-- The token of the session. -/
  token : String
  /-- The number of the session. -/
  generation : SessionGeneration
  /-- The PC. -/
  pcDeviceId : DeviceId
  /-- The certificate of the PC. -/
  pcCertificateFingerprint : String
  deriving DecidableEq, Repr

/-- What a server sends back: the certificate its connection was made with and a body. -/
structure Reply where
  /-- The certificate, where the connection exposes it. -/
  certificate : Option (List UInt8)
  /-- The body, or why there is none. -/
  body : Except ClientError PresenceResponse

/-- What everybody else answers in one round. -/
structure Round where
  /-- The time. -/
  now : ℕ
  /-- What the server sends back. -/
  served : Except String Reply
  /-- The certificate the signer trusts for a PC. -/
  trusted : DeviceId → Except String (Option String)
  /-- Whether the user confirms the PC. -/
  confirm : Except String Bool
  /-- The signature of the transcript. -/
  sign : Except String String
  /-- Whether a client for one certificate can be made. -/
  rebuild : Except String Unit
  /-- Whether the signer remembers the PC. -/
  remember : Except String Unit
  /-- Whether the PC takes the Disconnect. -/
  disconnect : Except String Unit

/-- What the phone does that others can see. -/
inductive ConnectEffect
  /-- The signer is asked which certificate it trusts. -/
  | consulted (pcId : DeviceId) (trusted : Except String (Option String))
  /-- The user is asked to confirm a PC. -/
  | confirmed (pcId : DeviceId) (pcName fingerprint code : String) (requiresApproval : Bool)
      (answer : Except String Bool)
  /-- A session is stored. -/
  | stored (credentials : ControlCredentials)
  /-- The signer is told to remember a PC. -/
  | remembered (pcId : DeviceId) (fingerprint : String)
  /-- The stored session is dropped again. -/
  | cleared

/-- A Connect in progress. -/
structure ConnectCall where
  /-- The request. -/
  req : ConnectReq
  /-- When the phone stops to wait for approval. -/
  approvalDeadline : Option ℕ
  /-- The certificate the client insists on. -/
  pinned : Option String
  /-- The PC its user has confirmed. -/
  candidatePcIdentity : Option (DeviceId × String)
  /-- What the call returns, once it does. -/
  outcome : Option (Except ClientError PresenceResponse)

namespace ConnectCall

/-- How long the phone waits for approval. -/
def connectTimeout : ℕ := seconds 70

/-- Return an error. -/
def fail (c : ConnectCall) (error : ClientError) : ConnectCall :=
  { c with outcome := some (.error error) }

/-- Return an error of the phone. -/
def reject (c : ConnectCall) (reason : String) : ConnectCall := c.fail (.rejected reason)

/-- The call before its first request; `nonce` and `publicKey` are asked for when the request
has no identity yet. -/
def start (crypto : Crypto) (hasSigner : Bool) (nonce : Except String (List UInt8))
    (publicKey : Except String String) (req : ConnectReq) : ConnectCall :=
  let c : ConnectCall := ⟨req, none, none, none, none⟩
  if req.deviceAuth.isSome then c
  else if hasSigner = false then c.reject "device authentication is unavailable"
  else
    match nonce with
    | .error error => c.reject s!"failed to generate device nonce: {error}"
    | .ok nonce =>
      match publicKey with
      | .error reason => c.reject reason
      | .ok publicKey =>
        { c with
          req := { req with
            deviceAuth := some ⟨publicKey, crypto.base64Encode nonce, none, none, none⟩ } }

/-- The request goes out; a pinned client takes an answer under its certificate only. -/
def send (crypto : Crypto) (c : ConnectCall) (r : Round) : Except ClientError Reply :=
  match r.served with
  | .error reason => .error (.httpRequestFailed reason)
  | .ok reply =>
    match c.pinned, reply.certificate with
    | some expected, some certificate =>
      if asciiLower expected = sha256Fingerprint crypto certificate then .ok reply
      else .error (.httpRequestFailed "Gemacast PC certificate fingerprint changed")
    | _, _ => .ok reply

/-- The certificate a PC advertises must be the one observed. -/
def verifyPresenceCertificate (presence : PresenceResponse) (observedFingerprint : String) :
    Except ClientError String :=
  match presence.pcCertificateFingerprint with
  | none => .error (.rejected "streamer did not provide its PC certificate fingerprint")
  | some advertised =>
    if EqIgnoreAsciiCase advertised observedFingerprint then .ok (asciiLower advertised)
    else .error (.rejected "streamer identity does not match the HTTPS certificate")

/-- What the phone receives, with the certificate of the PC. -/
def receive (crypto : Crypto) (c : ConnectCall) (r : Round) :
    Except ClientError (PresenceResponse × String) :=
  match c.send crypto r with
  | .error error => .error error
  | .ok reply =>
    match reply.certificate with
    | none => .error (.rejected "HTTPS response did not expose the PC certificate")
    | some certificate =>
      match reply.body with
      | .error error => .error error
      | .ok presence =>
        match verifyPresenceCertificate presence (sha256Fingerprint crypto certificate) with
        | .error error => .error error
        | .ok pcFingerprint => .ok (presence, pcFingerprint)

/-- Sign the transcript and go on with a client for this certificate. -/
def proceed (c : ConnectCall) (r : Round) (pcId : DeviceId) (auth : DeviceAuthRequest)
    (challengeId pcFingerprint : String) (trusted : Option String) (phoneConfirmed : Bool) :
    ConnectCall :=
  match r.sign with
  | .error reason => c.reject reason
  | .ok signature =>
    match r.rebuild with
    | .error reason => c.reject reason
    | .ok () =>
      { c with
        req := { c.req with
          deviceAuth := some { auth with
            challengeId := some challengeId
            signature := some signature
            phoneConfirmation := if phoneConfirmed then some true else none } }
        candidatePcIdentity :=
          if trusted.isNone then some (pcId, pcFingerprint) else c.candidatePcIdentity
        pinned := some pcFingerprint }

/-- The phone is asked to prove its key. -/
def answerChallenge (crypto : Crypto) (hasSigner : Bool) (c : ConnectCall) (r : Round)
    (presence : PresenceResponse) (challenge : DeviceAuthChallenge) (pcFingerprint : String) :
    ConnectCall × List ConnectEffect :=
  if ¬EqIgnoreAsciiCase challenge.pcCertificateFingerprint pcFingerprint then
    (c.reject "authentication challenge is bound to a different PC certificate", [])
  else if hasSigner = false then
    (c.reject "streamer requested device authentication, but no signer is available", [])
  else
    match c.req.deviceAuth with
    | none =>
      (c.reject
        "streamer requested device authentication, but the request identity is missing", [])
    | some auth =>
      let transcript := buildDeviceAuthTranscript c.req.deviceId presence.deviceId pcFingerprint
        auth.publicKey auth.phoneNonce challenge.challengeId challenge.challenge
      let expectedCode := pairingCode crypto transcript
      if challenge.pairingCode ≠ expectedCode then
        (c.reject "streamer returned an invalid pairing comparison code", [])
      else
        let consulted := ConnectEffect.consulted presence.deviceId (r.trusted presence.deviceId)
        match r.trusted presence.deviceId with
        | .error reason => (c.reject reason, [consulted])
        | .ok trusted =>
          if trusted.any fun known => ¬EqIgnoreAsciiCase known pcFingerprint then
            (c.reject "the paired PC certificate changed; forget this PC before pairing again",
              [consulted])
          else if trusted.isNone || challenge.requiresApproval then
            let confirmed := ConnectEffect.confirmed presence.deviceId presence.streamerName
              pcFingerprint expectedCode challenge.requiresApproval r.confirm
            match r.confirm with
            | .error reason => (c.reject reason, [consulted, confirmed])
            | .ok false =>
              (c.reject "PC identity confirmation was cancelled on the phone",
                [consulted, confirmed])
            | .ok true =>
              (c.proceed r presence.deviceId auth challenge.challengeId pcFingerprint trusted true,
                [consulted, confirmed])
          else
            (c.proceed r presence.deviceId auth challenge.challengeId pcFingerprint trusted false,
              [consulted])

/-- The phone is given a session. -/
def accept (hasSigner : Bool) (c : ConnectCall) (r : Round) (presence : PresenceResponse)
    (token : String) (generation : SessionGeneration) (pcFingerprint : String) :
    ConnectCall × List ConnectEffect :=
  let stored := ConnectEffect.stored
    ⟨c.req.deviceId, token, generation, presence.deviceId, pcFingerprint⟩
  let returned := { c with candidatePcIdentity := none, outcome := some (.ok presence) }
  match c.candidatePcIdentity with
  | none => (returned, [stored])
  | some (pcId, fingerprint) =>
    if hasSigner = false then (returned, [stored])
    else
      match r.remember with
      | .ok () => (returned, [stored, .remembered pcId fingerprint])
      | .error reason =>
        ({ c with candidatePcIdentity := none }.reject
            s!"failed to remember the approved PC: {reason}",
          match r.disconnect with
          | .ok () => [stored, .remembered pcId fingerprint, .cleared]
          | .error _ => [stored, .remembered pcId fingerprint])

/-- The phone is told to wait, or has nothing more to ask. -/
def pend (c : ConnectCall) (r : Round) (presence : PresenceResponse) : ConnectCall :=
  match presence.pendingRequestId with
  | none => { c with outcome := some (.ok presence) }
  | some requestId =>
    let deadline := c.approvalDeadline.getD (r.now + connectTimeout)
    if deadline ≤ r.now then
      { c with approvalDeadline := some deadline }.reject
        s!"connection approval {requestId} timed out"
    else
      { c with
        approvalDeadline := some deadline
        req := { c.req with pendingRequestId := some requestId } }

/-- One round: a request, its answer and what follows from it. -/
def round (crypto : Crypto) (hasSigner : Bool) (c : ConnectCall) (r : Round) :
    ConnectCall × List ConnectEffect :=
  match c.outcome with
  | some _ => (c, [])
  | none =>
    match c.receive crypto r with
    | .error error => (c.fail error, [])
    | .ok (presence, pcFingerprint) =>
      match presence.deviceAuthChallenge with
      | some challenge => c.answerChallenge crypto hasSigner r presence challenge pcFingerprint
      | none =>
        match presence.sessionToken, presence.sessionGeneration with
        | some token, some generation =>
          c.accept hasSigner r presence token generation pcFingerprint
        | _, _ => (c.pend r presence, [])

/-- The call as a machine. -/
def machine (crypto : Crypto) (hasSigner : Bool) (nonce : Except String (List UInt8))
    (publicKey : Except String String) (req : ConnectReq) :
    Machine ConnectCall Round (List ConnectEffect) where
  init := start crypto hasSigner nonce publicKey req
  step := round crypto hasSigner

end ConnectCall

end Gemacast.Control
