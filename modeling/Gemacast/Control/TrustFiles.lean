import Gemacast.Core.Crashes
import Gemacast.Core.Directory
import Gemacast.Control.TrustRuns

/-!
# The file of the trusted devices

The store down to its file operations: the list is written beside its file and renamed onto
it. Any operation may fail and the process may be killed at any of them; the file is the old
list or the new one all the same, as if it were written in one step.
-/

namespace Gemacast.Control

open Gemacast.Core Gemacast.Streamer

/-- The files of the store, beside the configuration. -/
inductive TrustFileName
  /-- `trusted-devices.json`. -/
  | list
  /-- `trusted-devices.json.tmp`. -/
  | temporary
  deriving DecidableEq, Repr

/-- What the store asks of the system. -/
inductive TrustFileOp
  | readToString (name : TrustFileName)
  | createDirAll
  | write (name : TrustFileName) (contents : List UInt8)
  | rename (source target : TrustFileName)

/-- What the system answers. -/
def TrustFileOp.Answer : TrustFileOp → Type
  | .readToString _ => Except String (List UInt8)
  | .createDirAll | .write _ _ | .rename _ _ => Except String Unit

/-- How a list is written down, and read. -/
structure TrustJson where
  /-- The text of a list. -/
  toVecPretty : TrustedDeviceFile → Except String (List UInt8)
  /-- The list of a text. -/
  fromStr : List UInt8 → Option TrustedDeviceFile

/-- What was written down is read as it was. -/
def TrustJson.Lawful (json : TrustJson) : Prop :=
  ∀ file bytes, json.toVecPretty file = .ok bytes → json.fromStr bytes = some file

/-- What the store has in memory. -/
structure TrustedDeviceState where
  /-- The certificate the list belongs to. -/
  pcCertificateFingerprint : Option String
  /-- The devices. -/
  devices : Table DeviceId TrustedDevice
  /-- The devices whose removal could not be written. -/
  revoked : Finset DeviceId

/-- A call of the store. -/
inductive TrustCall
  | bindPcIdentity (fingerprint : String)
  | isTrusted (deviceId : DeviceId) (publicKey : String)
  | trust (deviceId : DeviceId) (deviceName publicKey : String)
  | forget (deviceId : DeviceId)
  deriving DecidableEq, Repr

/-- The call as one operation, with the outcome of its write. -/
def TrustCall.withWrite (write : Except String Unit) : TrustCall → TrustOp
  | .bindPcIdentity fingerprint => .bindPcIdentity write fingerprint
  | .isTrusted deviceId publicKey => .isTrusted deviceId publicKey
  | .trust deviceId deviceName publicKey => .trust write deviceId deviceName publicKey
  | .forget deviceId => .forget write deviceId

/-- What a call of the store comes to. -/
abbrev TrustTask (α : Type) := Program TrustFileOp TrustFileOp.Answer α

namespace TrustedDeviceState

variable (json : TrustJson) (state : TrustedDeviceState)

/-- The store with this in memory and that in its file. -/
def withDisk (disk : Option TrustedDeviceFile) : TrustedDeviceStore where
  hasPath := true
  disk
  pcCertificateFingerprint := state.pcCertificateFingerprint
  devices := state.devices
  revoked := state.revoked

/-- The list of what is in memory. -/
def toFile : TrustedDeviceFile := (state.withDisk none).toFile

/-- The key is the one approved for the device. -/
def isTrusted (deviceId : DeviceId) (publicKey : String) : Bool :=
  (state.withDisk none).isTrusted deviceId publicKey

/-- Replace the file. -/
def saveState : TrustTask (Except String Unit) :=
  .call .createDirAll fun
  | .error error => .done (.error error)
  | .ok () =>
    match json.toVecPretty state.toFile with
    | .error error => .done (.error error)
    | .ok bytes =>
      .call (.write .temporary bytes) fun
      | .error error => .done (.error error)
      | .ok () => .call (.rename .temporary .list) .done

/-- What a start has in memory, from what it read. -/
def loaded (contents : Except String (List UInt8)) : TrustedDeviceState :=
  let file := (contents.toOption.bind json.fromStr).getD {}
  { pcCertificateFingerprint := file.pcCertificateFingerprint
    devices := file.devices.foldl (fun devices device => devices.insert device.deviceId device) ∅
    revoked := ∅ }

/-- Read the file. -/
def load : TrustTask TrustedDeviceState :=
  .call (.readToString .list) fun contents => .done (loaded json contents)

/-- Make the list belong to a certificate; one that belongs to another is dropped. -/
def bindPcIdentity (fingerprint : String) : TrustTask (TrustedDeviceState × Except String Unit) :=
  if state.pcCertificateFingerprint = some fingerprint then .done (state, .ok ())
  else
    let bound : TrustedDeviceState := ⟨some fingerprint, ∅, ∅⟩
    (saveState json bound).bind fun
    | .ok () => .done (bound, .ok ())
    | .error error =>
      .done ({ bound with
        pcCertificateFingerprint := state.pcCertificateFingerprint
        devices := state.devices
        revoked := state.revoked }, .error error)

/-- Put an entry back as it was. -/
def restore (deviceId : DeviceId) (wasRevoked : Bool) (previous : Option TrustedDevice) :
    TrustedDeviceState :=
  { state with
    revoked := if wasRevoked then insert deviceId state.revoked else state.revoked
    devices :=
      match previous with
      | some device => state.devices.insert deviceId device
      | none => state.devices.erase deviceId }

/-- Approve a key for a device. -/
def trust (deviceId : DeviceId) (deviceName publicKey : String) :
    TrustTask (TrustedDeviceState × Except String Unit) :=
  if state.pcCertificateFingerprint = none then
    .done (state, .error "trusted-device store is not bound to a PC identity")
  else
    let granted := { state with
      revoked := state.revoked.erase deviceId
      devices := state.devices.insert deviceId ⟨deviceId, deviceName, publicKey⟩ }
    (saveState json granted).bind fun
    | .ok () => .done (granted, .ok ())
    | .error error =>
      .done (granted.restore deviceId (deviceId ∈ state.revoked) (state.devices.lookup deviceId),
        .error error)

/-- Withdraw the approval of a device; whether there was one. -/
def forget (deviceId : DeviceId) : TrustTask (TrustedDeviceState × Except String Bool) :=
  let removed := state.devices.lookup deviceId
  let alreadyRevoked := decide (deviceId ∈ state.revoked)
  let withdrawn := { state with
    devices := state.devices.erase deviceId
    revoked := insert deviceId state.revoked }
  let settled := { withdrawn with revoked := withdrawn.revoked.erase deviceId }
  if removed = none ∧ alreadyRevoked = false then .done (settled, .ok false)
  else
    (saveState json withdrawn).bind fun
    | .error error => .done (withdrawn, .error error)
    | .ok () => .done (settled, .ok true)

/-- Any call. -/
def perform : TrustCall → TrustTask (TrustedDeviceState × TrustAnswer)
  | .bindPcIdentity fingerprint =>
    (bindPcIdentity json state fingerprint).bind fun result => .done (result.1, .bound result.2)
  | .isTrusted deviceId publicKey => .done (state, .checked (state.isTrusted deviceId publicKey))
  | .trust deviceId deviceName publicKey =>
    (trust json state deviceId deviceName publicKey).bind fun result =>
      .done (result.1, .granted result.2)
  | .forget deviceId =>
    (forget json state deviceId).bind fun result => .done (result.1, .forgotten result.2)

end TrustedDeviceState

/-- The files as they are found. -/
abbrev TrustFiles := Directory TrustFileName

namespace TrustFiles

/-- What may come of an operation. -/
def Serves (d : TrustFiles) : (op : TrustFileOp) → op.Answer → TrustFiles → Prop
  | .readToString name, .ok contents, d' => d' = d ∧ d name = some contents
  | .readToString _, .error _, d' => d' = d
  | .createDirAll, _, d' => d' = d
  | .write name contents, .ok (), d' => d' = Function.update d name (some contents)
  | .write name contents, .error _, d' => d.CutOff name contents d'
  | .rename source target, .ok (), d' => d.Renamed source target d'
  | .rename _ _, .error _, d' => d' = d

/-- What a kill in the middle of an operation leaves. -/
def Tears (d : TrustFiles) : TrustFileOp → TrustFiles → Prop
  | .write name contents, d' => d.CutOff name contents d'
  | .rename source target, d' => d' = d ∨ d.Renamed source target d'
  | .readToString _, d' | .createDirAll, d' => d' = d

/-- The files of the store. -/
def service : Service TrustFiles TrustFileOp TrustFileOp.Answer := ⟨Serves, Tears⟩

/-- The list that is in the file. -/
def disk (json : TrustJson) (d : TrustFiles) : Option TrustedDeviceFile :=
  (d .list).bind json.fromStr

end TrustFiles

namespace TrustedDeviceState

open Program TrustFiles

variable {json : TrustJson} {state : TrustedDeviceState} {d : TrustFiles}

/-- The file holds the old list or the new one, and the new one if the answer says so. -/
theorem saveState_withstands (hjson : json.Lawful) (state : TrustedDeviceState) (d : TrustFiles) :
    Withstands service (fun t => disk json t = disk json d ∨ disk json t = some state.toFile)
      (fun t answer => (∀ error, answer = .error error → disk json t = disk json d) ∧
        (answer = .ok () → disk json t = some state.toFile)) (saveState json state) d := by
  have hfailed {t : TrustFiles} {error : String} (ht : t .list = d .list) :
      (∀ error', (.error error : Except String Unit) = .error error' → disk json t = disk json d) ∧
        ((.error error : Except String Unit) = .ok () → disk json t = some state.toFile) :=
    ⟨fun _ _ => congrArg (·.bind json.fromStr) ht, by rintro ⟨⟩⟩
  have hold {t : TrustFiles} (ht : t .list = d .list) :
      disk json t = disk json d ∨ disk json t = some state.toFile :=
    .inl (congrArg (·.bind json.fromStr) ht)
  refine ⟨hold rfl, by rintro t rfl; exact hold rfl, ?_⟩
  rintro (error | ⟨⟩) t rfl
  · exact ⟨hold rfl, hfailed rfl⟩
  dsimp only
  split
  · exact ⟨hold rfl, hfailed rfl⟩
  next bytes hbytes =>
  have hne : TrustFileName.list ≠ .temporary := by rintro ⟨⟩
  refine ⟨hold rfl, fun t' hcut => hold (hcut.of_ne hne), ?_⟩
  rintro (error | ⟨⟩) t' hserved
  · exact ⟨hold (hserved.of_ne hne), hfailed (hserved.of_ne hne)⟩
  obtain rfl : t' = Function.update t .temporary (some bytes) := hserved
  have hlist : Function.update t .temporary (some bytes) .list = t .list :=
    Function.update_of_ne hne _ _
  have hnew {t' : TrustFiles}
      (hrenamed : Directory.Renamed (Function.update t .temporary (some bytes)) .temporary .list
        t') : disk json t' = some state.toFile := by
    rw [disk, hrenamed.target_eq, Function.update_self, Option.bind_some, hjson _ _ hbytes]
  refine ⟨hold hlist, ?_, ?_⟩
  · rintro t' (rfl | hrenamed)
    · exact hold hlist
    · exact .inr (hnew hrenamed)
  · rintro (error | ⟨⟩) t' hserved
    · obtain rfl : t' = Function.update t .temporary (some bytes) := hserved
      exact ⟨hold hlist, hfailed hlist⟩
    · exact ⟨.inr (hnew hserved), by rintro error ⟨⟩, fun _ => hnew hserved⟩

/-- The call has the effect of one operation whose write succeeds or fails. -/
def Refines (json : TrustJson) (state : TrustedDeviceState) (d : TrustFiles) (call : TrustCall)
    (t : TrustFiles) (result : TrustedDeviceState × TrustAnswer) : Prop :=
  ∃ write, (state.withDisk (disk json d)).step (call.withWrite write) =
    (result.1.withDisk (disk json t), result.2)

/-- The file is what one operation whose write succeeds or fails makes of it. -/
def Reaches (json : TrustJson) (state : TrustedDeviceState) (d : TrustFiles) (call : TrustCall)
    (t : TrustFiles) : Prop :=
  ∃ write, disk json t = ((state.withDisk (disk json d)).step (call.withWrite write)).1.disk

theorem Refines.reaches {call : TrustCall} {t : TrustFiles}
    {result : TrustedDeviceState × TrustAnswer} (h : Refines json state d call t result) :
    Reaches json state d call t := by
  obtain ⟨write, hstep⟩ := h
  exact ⟨write, by rw [hstep]; rfl⟩

section Calls

variable {call : TrustCall} {β : Type} {answer : β → TrustAnswer}

/-- What a call comes to, before its answer is that of the store. -/
theorem withstands_answer {task : TrustTask (TrustedDeviceState × β)}
    (h : Withstands service (Reaches json state d call)
      (fun t result => Refines json state d call t (result.1, answer result.2)) task d) :
    Withstands service (Reaches json state d call) (Refines json state d call)
      (task.bind fun result => .done (result.1, answer result.2)) d :=
  h.bind fun _ _ ht hrefines => ⟨ht, hrefines⟩

/-- A call that ends without a write is the operation, whatever the outcome of a write. -/
theorem withstands_done {result : TrustedDeviceState × β}
    (h : Refines json state d call d (result.1, answer result.2)) :
    Withstands service (Reaches json state d call)
      (fun t result => Refines json state d call t (result.1, answer result.2)) (.done result) d :=
  ⟨h.reaches, h⟩

/-- A call that writes a list is the operation with the outcome of the write. -/
theorem withstands_save (hjson : json.Lawful) {next : TrustedDeviceState}
    {finish : Except String Unit → TrustTask (TrustedDeviceState × β)}
    (hfailed : ∀ error, ∃ result, finish (.error error) = .done result ∧
      (state.withDisk (disk json d)).step (call.withWrite (.error error)) =
        (result.1.withDisk (disk json d), answer result.2))
    (hwritten : ∃ result, finish (.ok ()) = .done result ∧
      (state.withDisk (disk json d)).step (call.withWrite (.ok ())) =
        (result.1.withDisk (some next.toFile), answer result.2)) :
    Withstands service (Reaches json state d call)
      (fun t result => Refines json state d call t (result.1, answer result.2))
      ((saveState json next).bind finish) d := by
  obtain ⟨result, hfinish, hstep⟩ := hwritten
  have hreaches {t : TrustFiles} (ht : disk json t = disk json d ∨
      disk json t = some next.toFile) : Reaches json state d call t := by
    obtain hold | hnew := ht
    · obtain ⟨result', -, hstep'⟩ := hfailed ""
      exact ⟨.error "", by rw [hstep', hold]; rfl⟩
    · exact ⟨.ok (), by rw [hstep, hnew]; rfl⟩
  refine ((saveState_withstands hjson next d).mono (fun t => hreaches)
    fun _ _ _ h => h).bind fun t outcome ht houtcome => ?_
  cases outcome with
  | error error =>
    obtain ⟨result', hfinish', hstep'⟩ := hfailed error
    rw [hfinish']
    exact ⟨ht, .error error, by rw [hstep', houtcome.1 error rfl]⟩
  | ok _ =>
    rw [hfinish]
    exact ⟨ht, .ok (), by rw [hstep, houtcome.2 rfl]⟩

end Calls

/-- Every call, however its file operations fail, is one operation of the store. -/
theorem perform_withstands (hjson : json.Lawful) (state : TrustedDeviceState) (d : TrustFiles)
    (call : TrustCall) :
    Withstands service (Reaches json state d call) (Refines json state d call)
      (perform json state call) d := by
  cases call with
  | bindPcIdentity fingerprint =>
    refine withstands_answer ?_
    unfold bindPcIdentity
    by_cases hbound : state.pcCertificateFingerprint = some fingerprint
    · have hstore : (state.withDisk (disk json d)).pcCertificateFingerprint = some fingerprint :=
        hbound
      rw [if_pos hbound]
      refine withstands_done ⟨.ok (), ?_⟩
      rw [TrustCall.withWrite, TrustedDeviceStore.step, TrustedDeviceStore.bindPcIdentity,
        if_pos hstore]
    · have hstore : ¬(state.withDisk (disk json d)).pcCertificateFingerprint = some fingerprint :=
        hbound
      rw [if_neg hbound]
      refine withstands_save hjson (fun error => ⟨_, rfl, ?_⟩) ⟨_, rfl, ?_⟩
      · rw [TrustCall.withWrite, TrustedDeviceStore.step, TrustedDeviceStore.bindPcIdentity,
          if_neg hstore]
        rfl
      · rw [TrustCall.withWrite, TrustedDeviceStore.step, TrustedDeviceStore.bindPcIdentity,
          if_neg hstore]
        rfl
  | isTrusted d key => exact ⟨⟨.ok (), rfl⟩, .ok (), rfl⟩
  | trust d' name key =>
    refine withstands_answer ?_
    unfold trust
    by_cases hbound : state.pcCertificateFingerprint = none
    · have hstore : (state.withDisk (disk json d)).pcCertificateFingerprint = none := hbound
      rw [if_pos hbound]
      refine withstands_done ⟨.ok (), ?_⟩
      rw [TrustCall.withWrite, TrustedDeviceStore.step, TrustedDeviceStore.trust, if_pos hstore]
    · have hstore : ¬(state.withDisk (disk json d)).pcCertificateFingerprint = none := hbound
      rw [if_neg hbound]
      refine withstands_save hjson (fun error => ⟨_, rfl, ?_⟩) ⟨_, rfl, ?_⟩
      · rw [TrustCall.withWrite, TrustedDeviceStore.step, TrustedDeviceStore.trust, if_neg hstore]
        rfl
      · rw [TrustCall.withWrite, TrustedDeviceStore.step, TrustedDeviceStore.trust, if_neg hstore]
        rfl
  | forget d' =>
    refine withstands_answer ?_
    unfold forget
    dsimp only
    by_cases habsent : state.devices.lookup d' = none ∧ decide (d' ∈ state.revoked) = false
    · have hstore : (state.withDisk (disk json d)).devices.lookup d' = none ∧
          decide (d' ∈ (state.withDisk (disk json d)).revoked) = false := habsent
      rw [if_pos habsent]
      refine withstands_done ⟨.ok (), ?_⟩
      rw [TrustCall.withWrite, TrustedDeviceStore.step, TrustedDeviceStore.forget]
      dsimp only
      rw [if_pos hstore]
      rfl
    · have hstore : ¬((state.withDisk (disk json d)).devices.lookup d' = none ∧
          decide (d' ∈ (state.withDisk (disk json d)).revoked) = false) := habsent
      rw [if_neg habsent]
      refine withstands_save hjson (fun error => ⟨_, rfl, ?_⟩) ⟨_, rfl, ?_⟩
      · rw [TrustCall.withWrite, TrustedDeviceStore.step, TrustedDeviceStore.forget]
        dsimp only
        rw [if_neg hstore]
        rfl
      · rw [TrustCall.withWrite, TrustedDeviceStore.step, TrustedDeviceStore.forget]
        dsimp only
        rw [if_neg hstore]
        rfl

/-- A call down to its file operations, however they fail and wherever it is killed, has the
effect of one operation whose write succeeds or fails: a call that returns leaves memory and
file and answers as it does, and one that is killed leaves the file it leaves. -/
theorem perform_refines (hjson : json.Lawful) {call : TrustCall} {t : TrustFiles}
    {outcome : Option (TrustedDeviceState × TrustAnswer)}
    (h : Leaves service (perform json state call) d outcome t) :
    Reaches json state d call t ∧
      ∀ result, outcome = some result → Refines json state d call t result :=
  (perform_withstands hjson state d call).leaves h

/-- Nothing fails while the file is replaced. -/
theorem saveState_leaves {bytes : List UInt8} (h : json.toVecPretty state.toFile = .ok bytes) :
    Leaves service (saveState json state) d (some (.ok ()))
      (Function.update (Function.update (Function.update d .temporary (some bytes)) .temporary none)
        .list (some bytes)) := by
  refine .served (show service.serves d .createDirAll (.ok () : Except String Unit) d from rfl) ?_
  dsimp only
  rw [h]
  refine .served (show service.serves d (.write .temporary bytes) (.ok () : Except String Unit) _
    from rfl) ?_
  refine .served (show service.serves _ (.rename .temporary .list) (.ok () : Except String Unit) _
    from ⟨bytes, Function.update_self .., rfl⟩) .finished

end TrustedDeviceState

namespace TrustFiles

open Program

/-- A list without devices. -/
def boundFile : TrustedDeviceFile := ⟨some "pc", []⟩

/-- Its text. -/
def boundText : List UInt8 :=
  asBytes "\x7b\n  \"pcCertificateFingerprint\": \"pc\",\n  \"devices\": []\n\x7d"

/-- The text of a list with one phone. -/
def phoneText : List UInt8 :=
  asBytes ("\x7b\n  \"pcCertificateFingerprint\": \"pc\",\n  \"devices\": [\n    \x7b\n" ++
    "      \"deviceId\": \"phone\",\n      \"deviceName\": \"Phone\",\n" ++
    "      \"publicKey\": \"key\"\n    \x7d\n  ]\n\x7d")

/-- These two lists written down and read. -/
def phoneJson : TrustJson where
  toVecPretty file :=
    if file = boundFile then .ok boundText
    else if file = TrustedDeviceStore.phoneFile then .ok phoneText
    else .error "neither of the two lists"
  fromStr bytes :=
    if bytes = boundText then some boundFile
    else if bytes = phoneText then some TrustedDeviceStore.phoneFile
    else none

theorem phoneJson_lawful : phoneJson.Lawful := by
  have hne : phoneText ≠ boundText := fun h => absurd (asBytes_inj.mp h) (by decide)
  intro file bytes h
  unfold phoneJson at h ⊢
  dsimp only at h ⊢
  split at h
  · next hfile =>
    obtain rfl := Except.ok.inj h
    rw [if_pos rfl, hfile]
  · split at h
    · next hfile =>
      obtain rfl := Except.ok.inj h
      rw [if_neg hne, if_pos rfl, hfile]
    · cases h

/-- The memory of a store that is bound and trusts nobody. -/
def boundState : TrustedDeviceState := ⟨some "pc", ∅, ∅⟩

/-- Its files. -/
def boundFiles : TrustFiles
  | .list => some boundText
  | .temporary => none

/-- The memory once the phone is trusted. -/
def phoneState : TrustedDeviceState :=
  { boundState with
    revoked := boundState.revoked.erase "phone"
    devices := boundState.devices.insert "phone" ⟨"phone", "Phone", "key"⟩ }

/-- The files then. -/
def phoneFiles : TrustFiles :=
  Function.update (Function.update (Function.update boundFiles .temporary (some phoneText))
    .temporary none) .list (some phoneText)

theorem phoneState_toFile : phoneState.toFile = TrustedDeviceStore.phoneFile := by
  have hentries : phoneState.devices.entries = [⟨"phone", "phone", "Phone", "key"⟩] := rfl
  rw [TrustedDeviceState.toFile, TrustedDeviceStore.toFile]
  change TrustedDeviceFile.mk _ ((phoneState.devices.entries.map (·.2)).mergeSort _) = _
  rw [hentries, List.map_singleton, List.mergeSort_singleton]
  rfl

/-- The phone is granted trust, and nothing fails. -/
theorem phone_granted :
    Leaves service (TrustedDeviceState.perform phoneJson boundState (.trust "phone" "Phone" "key"))
      boundFiles (some (phoneState, .granted (.ok ()))) phoneFiles := by
  have hwritten : phoneJson.toVecPretty phoneState.toFile = .ok phoneText := by
    rw [phoneState_toFile]
    unfold phoneJson
    dsimp only
    rw [if_neg (by decide), if_pos rfl]
  have hbound : boundState.pcCertificateFingerprint ≠ none := by decide
  have hsaved : Leaves service (TrustedDeviceState.saveState phoneJson phoneState) boundFiles
      (some (.ok ())) phoneFiles := TrustedDeviceState.saveState_leaves hwritten
  have htrusted : Leaves service
      (TrustedDeviceState.trust phoneJson boundState "phone" "Phone" "key") boundFiles
      (some (phoneState, .ok ())) phoneFiles := by
    rw [TrustedDeviceState.trust, if_neg hbound]
    exact hsaved.bind .finished
  exact htrusted.bind .finished

theorem phone_granted_refines :
    TrustedDeviceState.Refines phoneJson boundState boundFiles (.trust "phone" "Phone" "key")
      phoneFiles (phoneState, .granted (.ok ())) :=
  (TrustedDeviceState.perform_refines phoneJson_lawful phone_granted).2 _ rfl

end TrustFiles

end Gemacast.Control
