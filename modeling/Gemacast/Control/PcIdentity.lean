import Mathlib.Logic.Function.Basic
import Gemacast.Core.Crashes
import Gemacast.Control.PhoneConnect

/-!
# The identity of the PC

The PC proves who it is with a certificate and a private key in two files beside its
configuration. Every start loads them; a pair that is incomplete or does not fit is put aside
and made anew. Files are read and replaced one operation at a time, any of which may fail, and
the process may be killed at any of them.
-/

namespace Gemacast.Control

open Gemacast.Core Gemacast.Streamer

/-- Why a file operation fails, as far as a start tells the reasons apart. -/
inductive DiskErrorKind
  | notFound
  | invalidData
  | other
  deriving DecidableEq, Repr

/-- A file operation failed. -/
structure DiskError where
  /-- The kind. -/
  kind : DiskErrorKind
  /-- The text. -/
  message : String
  deriving DecidableEq, Repr

/-- The two files of an identity. -/
inductive IdentityFile
  | cert
  | key
  deriving DecidableEq, Repr

/-- The files beside the configuration that a start touches. -/
inductive FileName
  /-- A file of the identity. -/
  | identity (file : IdentityFile)
  /-- What a file is written to before it is renamed. -/
  | temporary (file : IdentityFile)
  /-- A file that was put aside. -/
  | quarantined (file : IdentityFile) (stamp : ℕ)
  deriving DecidableEq, Repr

/-- The name of a file of the identity. -/
def IdentityFile.text : IdentityFile → String
  | .cert => "pc-identity-cert.der"
  | .key => "pc-identity-key.der"

/-- The name of a file. -/
def FileName.text : FileName → String
  | .identity file => file.text
  | .temporary .cert => "pc-identity-cert.der.tmp"
  | .temporary .key => "pc-identity-key.der.tmp"
  | .quarantined file stamp => file.text ++ ".invalid-" ++ toString stamp

theorem toString_injective {m n : ℕ} (h : toString m = toString n) : m = n := by
  change m.repr = n.repr at h
  have hdigits := congrArg String.toList h
  rw [Nat.toList_repr, Nat.toList_repr] at hdigits
  rw [← Nat.ofDigitChars_ten_toDigits (n := m), hdigits, Nat.ofDigitChars_ten_toDigits]

namespace FileName

theorem length_text_quarantined (file : IdentityFile) (stamp : ℕ) :
    28 < (text (.quarantined file stamp)).length := by
  have hstamp : 0 < (toString stamp).length := by
    change 0 < stamp.repr.length
    rw [← String.length_toList, Nat.toList_repr]
    exact Nat.length_toDigits_pos
  have hfile : 19 ≤ file.text.length := by cases file <;> decide
  have hinfix : ".invalid-".length = 9 := by decide
  rw [text, String.length_append, String.length_append]
  omega

/-- A file that was not put aside has a shorter name. -/
theorem text_ne_quarantined {name : FileName} (h : name.text.length ≤ 28) (file : IdentityFile)
    (stamp : ℕ) : name.text ≠ text (.quarantined file stamp) := by
  intro heq
  rw [heq] at h
  exact absurd h (Nat.not_le.mpr (length_text_quarantined file stamp))

theorem length_text_identity (file : IdentityFile) : (text (.identity file)).length ≤ 28 := by
  cases file <;> decide

theorem length_text_temporary (file : IdentityFile) : (text (.temporary file)).length ≤ 28 := by
  cases file <;> decide

theorem quarantined_text_inj {file file' : IdentityFile} {stamp stamp' : ℕ}
    (h : text (.quarantined file stamp) = text (.quarantined file' stamp')) :
    file = file' ∧ stamp = stamp' := by
  obtain rfl : file = file' := by
    have hletter := congrArg (fun text => (text.toList.drop 12).head?) h
    cases file <;> cases file' <;> first | rfl | simp [text, IdentityFile.text] at hletter
  rw [text, text, String.append_right_inj] at h
  exact ⟨rfl, toString_injective h⟩

/-- No two of the files have one name. -/
theorem text_injective : Function.Injective text := by
  intro name name' h
  cases name with
  | identity file =>
    cases name' with
    | identity file' | temporary file' => revert h; cases file <;> cases file' <;> decide
    | quarantined file' stamp' =>
      exact absurd h (text_ne_quarantined (length_text_identity file) _ _)
  | temporary file =>
    cases name' with
    | identity file' | temporary file' => revert h; cases file <;> cases file' <;> decide
    | quarantined file' stamp' =>
      exact absurd h (text_ne_quarantined (length_text_temporary file) _ _)
  | quarantined file stamp =>
    cases name' with
    | identity file' =>
      exact absurd h.symm (text_ne_quarantined (length_text_identity file') _ _)
    | temporary file' =>
      exact absurd h.symm (text_ne_quarantined (length_text_temporary file') _ _)
    | quarantined file' stamp' =>
      obtain ⟨rfl, rfl⟩ := quarantined_text_inj h
      rfl

end FileName

/-- What a start asks of the system. -/
inductive IdentityOp
  | read (name : FileName)
  | createParent
  | write (name : FileName) (contents : List UInt8)
  | rename (source target : FileName)
  | setPermissions (name : FileName) (mode : ℕ)
  | remove (name : FileName)
  /-- The wall clock, in nanoseconds; nought before the epoch. -/
  | readClock
  /-- A fresh key pair and its self-signed certificate. -/
  | generatePair

/-- Where the generation of a pair fails. -/
inductive GenerateError
  | keyPair (reason : String)
  | params (reason : String)
  | selfSigned (reason : String)
  deriving DecidableEq, Repr

/-- What the system answers. -/
def IdentityOp.Answer : IdentityOp → Type
  | .read _ => Except DiskError (List UInt8)
  | .createParent | .write _ _ | .rename _ _ | .setPermissions _ _ | .remove _ =>
    Except DiskError Unit
  | .readClock => ℕ
  | .generatePair => Except GenerateError (List UInt8 × List UInt8)

/-- What the TLS library says of a pair. -/
structure TlsProvider where
  /-- The key can sign; else why not. -/
  anyEcdsaType : List UInt8 → Except String Unit
  /-- The certificate, given first, is one of the key; else why not. -/
  keysMatch : List UInt8 → List UInt8 → Except String Unit

/-- The identity of a PC. -/
structure PcIdentity where
  /-- The certificate. -/
  certificateDer : List UInt8
  /-- The private key. -/
  privateKeyDer : List UInt8
  /-- The name of the certificate. -/
  fingerprint : String
  deriving DecidableEq, Repr

namespace PcIdentity

/-- What a task that touches the files comes to. -/
abbrev Task (α : Type) := Program IdentityOp IdentityOp.Answer (Except DiskError α)

/-- Go on with the result; an error ends the task. -/
def andThen {α β : Type} (task : Task α) (next : α → Task β) : Task β :=
  task.bind fun
  | .error error => .done (.error error)
  | .ok result => next result

/-- The PC as its phones know it. -/
def deviceId (identity : PcIdentity) : DeviceId := "PC_" ++ identity.fingerprint

/-- Check that certificate and key fit. -/
def fromDer (tls : TlsProvider) (crypto : Crypto) (certificateDer privateKeyDer : List UInt8) :
    Except DiskError PcIdentity :=
  match tls.anyEcdsaType privateKeyDer with
  | .error error =>
    .error ⟨.invalidData, "PC identity private key cannot be used by TLS: " ++ error⟩
  | .ok () =>
    match tls.keysMatch certificateDer privateKeyDer with
    | .error error =>
      .error ⟨.invalidData, "PC certificate and private key do not match: " ++ error⟩
    | .ok () => .ok ⟨certificateDer, privateKeyDer, sha256Fingerprint crypto certificateDer⟩

/-- Replace a file as a whole. -/
def saveFile (file : IdentityFile) (contents : List UInt8) : Task Unit :=
  andThen (.call .createParent .done) fun () =>
    andThen (.call (.write (.temporary file) contents) .done) fun () =>
      .call (.rename (.temporary file) (.identity file)) .done

/-- Replace a file that only its owner may read, where files have owners. -/
def savePrivateFile (isUnix : Bool) (file : IdentityFile) (contents : List UInt8) : Task Unit :=
  andThen (saveFile file contents) fun () =>
    if isUnix then .call (.setPermissions (.identity file) 0o600) .done else .done (.ok ())

/-- Put a file aside. -/
def quarantineIdentityFile (file : IdentityFile) : Task Unit :=
  .call .readClock fun stamp => .call (.rename (.identity file) (.quarantined file stamp)) .done

/-- The text of an error of the generation. -/
def GenerateError.text : GenerateError → String
  | .keyPair error => "failed to generate PC identity: " ++ error
  | .params error => "failed to create PC certificate: " ++ error
  | .selfSigned error => "failed to sign PC certificate: " ++ error

/-- Make a pair and save it, the key first. -/
def generate (tls : TlsProvider) (crypto : Crypto) (isUnix : Bool) : Task PcIdentity :=
  .call .generatePair fun
  | .error error => .done (.error ⟨.other, GenerateError.text error⟩)
  | .ok (certificateDer, privateKeyDer) =>
    andThen (savePrivateFile isUnix .key privateKeyDer) fun () =>
      (saveFile .cert certificateDer).bind fun
      | .error error => .call (.remove (.identity .key)) fun _ => .done (.error error)
      | .ok () => .done (fromDer tls crypto certificateDer privateKeyDer)

/-- Put files aside, one after the other, and make a new pair. -/
def regenerate (tls : TlsProvider) (crypto : Crypto) (isUnix : Bool) :
    List IdentityFile → Task PcIdentity
  | [] => generate tls crypto isUnix
  | file :: files =>
    andThen (quarantineIdentityFile file) fun () => regenerate tls crypto isUnix files

/-- Go on with what was read of the two files. -/
def resolve (tls : TlsProvider) (crypto : Crypto) (isUnix : Bool) :
    Except DiskError (List UInt8) → Except DiskError (List UInt8) → Task PcIdentity
  | .ok certificateDer, .ok privateKeyDer =>
    match fromDer tls crypto certificateDer privateKeyDer with
    | .ok identity => .done (.ok identity)
    | .error error =>
      if error.kind = .invalidData then regenerate tls crypto isUnix [.cert, .key]
      else .done (.error error)
  | .error certError, .error keyError =>
    if certError.kind = .notFound ∧ keyError.kind = .notFound then regenerate tls crypto isUnix []
    else .done (.error certError)
  | .error error, .ok _ =>
    if error.kind = .notFound then regenerate tls crypto isUnix [.key] else .done (.error error)
  | .ok _, .error error =>
    if error.kind = .notFound then regenerate tls crypto isUnix [.cert] else .done (.error error)

/-- Load the identity, or make one. -/
def loadOrCreate (tls : TlsProvider) (crypto : Crypto) (isUnix : Bool) : Task PcIdentity :=
  .call (.read (.identity .cert)) fun cert =>
    .call (.read (.identity .key)) fun key => resolve tls crypto isUnix cert key

end PcIdentity

end Gemacast.Control
