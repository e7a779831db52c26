import Gemacast.Control.Ascii
import Gemacast.Core.Machine
import Gemacast.Core.Table

/-!
# The PCs the phone pins

The phone keeps the certificate of every PC it has paired with. A new certificate is shown to
the user in a dialog, with the code the PC shows; what the user answers waits for the pairing
to ask for it, for a while. All of this runs on the main thread of the app, one call or one tap
at a time.
-/

namespace Gemacast.Phone

open Gemacast.Core Gemacast.Control

/-- What a dialog asks about. -/
structure PcIdentityConfirmationKey where
  /-- The PC. -/
  pcId : String
  /-- Its certificate. -/
  fingerprint : String
  /-- The code the PC shows. -/
  pairingCode : String
  deriving DecidableEq, Repr

/-- What the start of a confirmation answers. -/
inductive BeginResult
  | started
  | pending
  | approved
  | rejected
  | busy
  deriving DecidableEq, Repr

/-- What a confirmation has come to. -/
inductive PollResult
  | pending
  | approved
  | rejected
  | mismatch
  deriving DecidableEq, Repr

/-- The name of what a confirmation has come to. -/
def PollResult.name : PollResult → String
  | .pending => "PENDING"
  | .approved => "APPROVED"
  | .rejected => "REJECTED"
  | .mismatch => "MISMATCH"

/-- A dialog the user has not answered, or the answer nobody has fetched. -/
structure PendingConfirmation where
  /-- What it asks about. -/
  key : PcIdentityConfirmationKey
  /-- When it is over. -/
  expiresAtMillis : ℕ
  /-- The answer. -/
  result : PollResult := .pending
  deriving DecidableEq, Repr

/-- How long a dialog waits. -/
def defaultTimeoutMillis : ℕ := 65000

/-- The confirmation in progress, if any. -/
structure PcIdentityConfirmationState where
  /-- How long a dialog waits. -/
  timeoutMillis : ℕ := defaultTimeoutMillis
  /-- The confirmation. -/
  pending : Option PendingConfirmation := none
  deriving DecidableEq, Repr

namespace PcIdentityConfirmationState

/-- Start a confirmation, unless one is in progress. -/
def «begin» (s : PcIdentityConfirmationState) (key : PcIdentityConfirmationKey) (nowMillis : ℕ) :
    PcIdentityConfirmationState × Except String BeginResult :=
  match s.pending with
  | none => ({ s with pending := some ⟨key, nowMillis + s.timeoutMillis, .pending⟩ }, .ok .started)
  | some current =>
    if current.expiresAtMillis ≤ nowMillis then
      ({ s with pending := some ⟨key, nowMillis + s.timeoutMillis, .pending⟩ }, .ok .started)
    else if current.key ≠ key then (s, .ok .busy)
    else
      match current.result with
      | .pending => (s, .ok .pending)
      | .approved => (s, .ok .approved)
      | .rejected => (s, .ok .rejected)
      | .mismatch => (s, .error "A stored confirmation cannot have a mismatched result")

/-- Take the answer of the user; whether it counts. -/
def complete (s : PcIdentityConfirmationState) (key : PcIdentityConfirmationKey) (approved : Bool)
    (nowMillis : ℕ) : PcIdentityConfirmationState × Bool :=
  match s.pending with
  | none => (s, false)
  | some current =>
    if current.key ≠ key ∨ current.expiresAtMillis ≤ nowMillis then
      (if current.expiresAtMillis ≤ nowMillis then { s with pending := none } else s, false)
    else
      ({ s with
          pending := some { current with result := if approved then .approved else .rejected } },
        true)

/-- Ask what the confirmation has come to; an answer is given once. -/
def poll (s : PcIdentityConfirmationState) (key : PcIdentityConfirmationKey) (nowMillis : ℕ) :
    PcIdentityConfirmationState × PollResult :=
  match s.pending with
  | none => (s, .mismatch)
  | some current =>
    if current.key ≠ key then (s, .mismatch)
    else if current.expiresAtMillis ≤ nowMillis then ({ s with pending := none }, .rejected)
    else
      (if current.result ≠ .pending then { s with pending := none } else s, current.result)

/-- Give a confirmation up. -/
def cancel (s : PcIdentityConfirmationState) (key : PcIdentityConfirmationKey) :
    PcIdentityConfirmationState × Bool :=
  if s.pending.map (·.key) ≠ some key then (s, false) else ({ s with pending := none }, true)

/-- Give any confirmation up. -/
def cancelAll (s : PcIdentityConfirmationState) : PcIdentityConfirmationState :=
  { s with pending := none }

end PcIdentityConfirmationState

/-- A dialog as the user sees it. -/
structure ConfirmationDialog where
  /-- What its buttons answer. -/
  key : PcIdentityConfirmationKey
  /-- The title. -/
  title : String
  /-- The text. -/
  message : String
  deriving DecidableEq, Repr

/-- The part of the main activity that deals with the PCs. -/
structure MainActivity where
  /-- The certificates of the PCs, as the process sees them. -/
  trustedPcs : Table String String
  /-- The certificates of the PCs in the file. -/
  file : Table String String
  /-- The PC the user has approved last. -/
  pendingPcId : Option String
  /-- The certificate of that PC. -/
  pendingPcFingerprint : Option String
  /-- The confirmation in progress. -/
  confirmation : PcIdentityConfirmationState
  /-- The dialogs of the activity, the ones no longer on the screen included. -/
  dialogs : List ConfirmationDialog

/-- What the pairing asks the user. -/
structure ConfirmRequest where
  /-- The PC. -/
  pcId : String
  /-- Its name. -/
  pcName : String
  /-- Its certificate. -/
  fingerprint : String
  /-- The code the PC shows. -/
  pairingCode : String
  /-- A PC that is known must be approved, too. -/
  requiresApproval : Option Bool
  deriving DecidableEq, Repr

/-- Sixty-four hexadecimal digits in lower case. -/
def isFingerprint (s : String) : Bool :=
  s.toList.length == 64 && s.toList.all fun c => c.isDigit || ('a' ≤ c && c ≤ 'f')

/-- Six digits. -/
def isPairingCode (s : String) : Bool := s.toList.length == 6 && s.toList.all Char.isDigit

/-- White space, as Kotlin sees it. -/
def isWhitespace (c : Char) : Bool :=
  let n := c.toNat
  (9 ≤ n && n ≤ 13) || (28 ≤ n && n ≤ 32) || n == 0xa0 || n == 0x1680 ||
    (0x2000 ≤ n && n ≤ 0x200a) || n == 0x2028 || n == 0x2029 || n == 0x202f || n == 0x205f ||
    n == 0x3000

/-- What a call names. -/
def pcIdentityConfirmationKey (pcId fingerprint pairingCode : String) :
    Except String PcIdentityConfirmationKey :=
  if isFingerprint (asciiLower fingerprint) = false then .error "Invalid PC certificate fingerprint"
  else if isPairingCode pairingCode = false then .error "Invalid pairing code"
  else .ok ⟨pcId, asciiLower fingerprint, pairingCode⟩

/-- The first digits of a certificate, in groups of four. -/
def shortFingerprint (fingerprint : String) : String :=
  let digits := fingerprint.toList.take 16
  " ".intercalate (((List.range ((digits.length + 3) / 4)).map fun i =>
    String.ofList ((digits.drop (4 * i)).take 4)))

/-- The dialog of a confirmation. -/
def confirmationDialog (pcName : String) (key : PcIdentityConfirmationKey) :
    ConfirmationDialog where
  key
  title := "Verify Gemacast PC"
  message := "Connect to " ++ pcName ++ "?\n\n" ++ "Pairing code:  " ++ key.pairingCode ++ "\n\n" ++
    "After tapping Continue, confirm that the PC shows the same code.\n\n" ++
    "PC certificate: " ++ shortFingerprint key.fingerprint

namespace MainActivity

/-- A new activity over the certificates the process has. -/
def new (trustedPcs file : Table String String) : MainActivity where
  trustedPcs
  file
  pendingPcId := none
  pendingPcFingerprint := none
  confirmation := {}
  dialogs := []

/-- Write the certificates, changed already, to the file; it may fail. -/
def commit (a : MainActivity) (written : Bool) : MainActivity :=
  if written then { a with file := a.trustedPcs } else a

/-- The certificate of a PC, empty for one that is not known. -/
def getTrustedPcFingerprint (a : MainActivity) (pcId : String) : String :=
  (a.trustedPcs.lookup pcId).getD ""

/-- Have the user confirm a PC, unless it is known and need not be. -/
def confirmPcIdentity (a : MainActivity) (request : ConfirmRequest) (nowMillis : ℕ) :
    MainActivity × String :=
  match pcIdentityConfirmationKey request.pcId request.fingerprint request.pairingCode with
  | .error error => (a, "ERROR: " ++ error)
  | .ok key =>
    let stored := a.trustedPcs.lookup key.pcId
    if ∃ known, stored = some known ∧ ¬EqIgnoreAsciiCase known key.fingerprint then
      (a, "ERROR: The paired PC certificate changed. Forget this PC before pairing again.")
    else if stored ≠ none ∧ request.requiresApproval.getD true = false then (a, "TRUSTED")
    else
      match a.confirmation.begin key nowMillis with
      | (confirmation, .ok .approved) => ({ a with confirmation }, "APPROVED")
      | (confirmation, .ok .rejected) => ({ a with confirmation }, "REJECTED")
      | (confirmation, .ok .pending) => ({ a with confirmation }, "PENDING")
      | (confirmation, .ok .busy) =>
        ({ a with confirmation }, "ERROR: Another PC pairing confirmation is already pending")
      | (confirmation, .ok .started) =>
        ({ a with
            confirmation
            dialogs := a.dialogs ++ [confirmationDialog request.pcName key] }, "PENDING")
      | (confirmation, .error error) => ({ a with confirmation }, "ERROR: " ++ error)

/-- Ask what the user has answered. -/
def pollPcIdentityConfirmation (a : MainActivity) (pcId fingerprint pairingCode : String)
    (nowMillis : ℕ) : MainActivity × String :=
  match pcIdentityConfirmationKey pcId fingerprint pairingCode with
  | .error error => (a, "ERROR: " ++ error)
  | .ok key =>
    let (confirmation, result) := a.confirmation.poll key nowMillis
    ({ a with confirmation }, result.name)

/-- Give a confirmation up. -/
def cancelPcIdentityConfirmation (a : MainActivity) (pcId fingerprint pairingCode : String) :
    MainActivity × String :=
  match pcIdentityConfirmationKey pcId fingerprint pairingCode with
  | .error error => (a, "ERROR: " ++ error)
  | .ok key => ({ a with confirmation := (a.confirmation.cancel key).1 }, "OK")

/-- A button of a dialog, or its cancellation; whether the answer counts. -/
def tap (a : MainActivity) (key : PcIdentityConfirmationKey) (approved : Bool) (nowMillis : ℕ) :
    MainActivity × Bool :=
  if ∃ dialog ∈ a.dialogs, dialog.key = key then
    match a.confirmation.complete key approved nowMillis with
    | (confirmation, true) =>
      if approved then
        ({ a with
            confirmation
            pendingPcId := some key.pcId
            pendingPcFingerprint := some key.fingerprint }, true)
      else ({ a with confirmation }, true)
    | (confirmation, false) => ({ a with confirmation }, false)
  else (a, false)

/-- Pin the certificate of a PC the user has approved. -/
def rememberPcIdentity (a : MainActivity) (pcId fingerprint : String) (written : Bool) :
    MainActivity × String :=
  let fingerprint := asciiLower fingerprint
  if isFingerprint fingerprint = false then (a, "ERROR: Invalid PC certificate fingerprint")
  else
    let existing := a.trustedPcs.lookup pcId
    if ∃ known, existing = some known ∧ ¬EqIgnoreAsciiCase known fingerprint then
      (a, "ERROR: Refusing to replace an existing PC certificate pin")
    else if existing = none ∧
        (a.pendingPcId ≠ some pcId ∨ a.pendingPcFingerprint ≠ some fingerprint) then
      (a, "ERROR: PC certificate was not confirmed by the phone user")
    else
      let a := { a with trustedPcs := a.trustedPcs.insert pcId fingerprint }.commit written
      if written = false then (a, "ERROR: Android could not persist the PC certificate pin")
      else ({ a with pendingPcId := none, pendingPcFingerprint := none }, "OK")

/-- Drop the certificate of a PC. -/
def forgetPcIdentity (a : MainActivity) (pcId : String) (written : Bool) : MainActivity × String :=
  if pcId.toList.all isWhitespace then (a, "ERROR: PC ID cannot be empty")
  else
    let a := { a with trustedPcs := a.trustedPcs.erase pcId }.commit written
    if written = false then (a, "ERROR: Android could not remove the PC certificate pin")
    else
      let a :=
        if a.pendingPcId = some pcId then
          { a with pendingPcId := none, pendingPcFingerprint := none }
        else a
      ({ a with confirmation := a.confirmation.cancelAll }, "OK")

end MainActivity

end Gemacast.Phone
