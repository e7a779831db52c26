import Gemacast.Core.Machine
import Gemacast.Updater.Downloader

/-!
# Checking for updates

One task checks again and again, and every request of the user starts a check of its own.
A check looks for a newer release, and announces it as ready once its artifact has been
downloaded and verified, or if there is a file of the artifact's name already. A step is what
one task does between two points at which another may come in; the process may be started
anew at any time, which keeps nothing but the files.
-/

namespace Gemacast.Updater

open Gemacast.Core Gemacast.Control

/-- What a process is built with and where it keeps its files. -/
structure UpdateConfig where
  /-- Digests. -/
  crypto : Crypto
  /-- Versions. -/
  semver : Semver
  /-- The version installed. -/
  currentVersion : String
  /-- The name of the platform in a manifest, if it is supported. -/
  platformKey : Option String
  /-- The directory of downloads. -/
  dir : String

/-- A name in a directory. -/
def join (dir filename : String) : String := dir ++ "/" ++ filename

/-- What follows the last slash of a URL. -/
def filename (url : String) : String :=
  String.ofList (url.toList.reverse.takeWhile (· ≠ '/')).reverse

/-- Where the artifact of an update is put. -/
def UpdateConfig.filePath (config : UpdateConfig) (info : AvailableUpdate) : String :=
  join config.dir (filename info.downloadUrl)

/-- Make the directory: it answers to its own name and leads to the one above. -/
def createDirAll (fs : FileSystem) (dir : String) : FileSystem :=
  ((fs.mkdir (join dir "")).mkdir (join dir ".")).mkdir (join dir "..")

/-- Whose check it is. -/
inductive CheckId
  /-- The task that checks again and again. -/
  | background
  /-- A request of the user. -/
  | manual (n : ℕ)
  deriving DecidableEq, Repr

/-- Where a check stands. -/
inductive CheckStage
  /-- It is about to look for a release. -/
  | fetching
  /-- It is about to make the directory. -/
  | preparing (info : AvailableUpdate)
  /-- It is about to look for the file. -/
  | probing (info : AvailableUpdate)
  /-- It is about to request the artifact. -/
  | requesting (info : AvailableUpdate)
  /-- It is about to open the file. -/
  | creating (info : AvailableUpdate)
  /-- It receives the artifact. -/
  | downloading (info : AvailableUpdate) (artifact : DownloadedArtifact)
  /-- It is about to compare the digests. -/
  | verifying (info : AvailableUpdate) (artifact : DownloadedArtifact)
  /-- It is about to announce the update. -/
  | ready (info : AvailableUpdate)
  deriving DecidableEq, Repr

/-- What the tray is told. -/
inductive TrayEvent
  | updateChecking
  | updateUpToDate
  | updateFailed (message : String)
  | updateReady (version installerPath : String)
  deriving DecidableEq, Repr

/-- The update a check has found. -/
def CheckStage.info : CheckStage → Option AvailableUpdate
  | .fetching => none
  | .preparing info | .probing info | .requesting info | .creating info
  | .downloading info _ | .verifying info _ | .ready info => some info

/-- The update whose file a check relies on. -/
def CheckStage.held : CheckStage → Option AvailableUpdate
  | .downloading info _ | .verifying info _ | .ready info => some info
  | _ => none

/-- The files and the checks under way. -/
structure UpdateChecks where
  /-- The files. -/
  fs : FileSystem
  /-- The checks. -/
  checks : Table CheckId CheckStage
  /-- How many checks users have requested. -/
  manualChecks : ℕ
  /-- Files of earlier processes are being removed. -/
  cleaning : Bool

namespace UpdateChecks

/-- One step. -/
inductive Step
  /-- The process starts. -/
  | startProcess
  /-- A file of an earlier process is removed, if that does not fail. -/
  | removeStale (name : String)
  /-- No more files are removed. -/
  | finishCleanup
  /-- The task begins a check. -/
  | startBackground
  /-- A user requests a check. -/
  | startManual
  /-- The manifest has been fetched and parsed, or not. -/
  | fetch (id : CheckId) (fetched : Except UpdaterError ReleaseManifest)
  /-- The directory is made. -/
  | prepare (id : CheckId) (failure : Option String)
  /-- The check looks for the file; without access it finds none. -/
  | probe (id : CheckId) (access : Bool)
  /-- The server answers to the request for the artifact. -/
  | request (id : CheckId) (failure : Option UpdaterError)
  /-- The file is opened. -/
  | create (id : CheckId) (failure : Option String)
  /-- Bytes are received and written. -/
  | receive (id : CheckId) (chunk : List UInt8) (failure : Option (ℕ × String))
  /-- The connection breaks. -/
  | streamFailed (id : CheckId) (source : String)
  /-- There is nothing left to receive. -/
  | synchronize (id : CheckId) (failure : Option String)
  /-- The digests are compared. -/
  | verify (id : CheckId) (removable : Bool)
  /-- The update is announced. -/
  | notify (id : CheckId)

/-- A process that has just started. -/
def new (fs : FileSystem) : UpdateChecks := ⟨fs, ∅, 0, true⟩

/-- The check stands elsewhere. -/
def goTo (s : UpdateChecks) (id : CheckId) (stage : CheckStage) : UpdateChecks × List TrayEvent :=
  ({ s with checks := s.checks.insert id stage }, [])

/-- The check is over. -/
def finish (s : UpdateChecks) (id : CheckId) (events : List TrayEvent) :
    UpdateChecks × List TrayEvent :=
  ({ s with checks := s.checks.erase id }, events)

/-- The check has failed. -/
def fail (s : UpdateChecks) (id : CheckId) (error : UpdaterError) :
    UpdateChecks × List TrayEvent :=
  s.finish id [.updateFailed error.text]

@[simp] theorem goTo_events (s : UpdateChecks) (id : CheckId) (stage : CheckStage) :
    (s.goTo id stage).2 = [] := rfl

@[simp] theorem finish_events (s : UpdateChecks) (id : CheckId) (events : List TrayEvent) :
    (s.finish id events).2 = events := rfl

@[simp] theorem fail_events (s : UpdateChecks) (id : CheckId) (error : UpdaterError) :
    (s.fail id error).2 = [.updateFailed error.text] := rfl

/-- A user requests a check. -/
def handleCheckForUpdates (config : UpdateConfig) (s : UpdateChecks) :
    UpdateChecks × List TrayEvent :=
  let s := { s with manualChecks := s.manualChecks + 1 }
  match config.platformKey with
  | none => (s, [.updateChecking,
      .updateFailed "Auto-updates are not supported on this platform"])
  | some _ =>
    ({ s with checks := s.checks.insert (.manual s.manualChecks) .fetching }, [.updateChecking])

/-- The task begins a check, once the files of earlier processes are gone and the last check is
over. -/
def checkAndDownload (config : UpdateConfig) (s : UpdateChecks) : UpdateChecks × List TrayEvent :=
  if s.cleaning = false ∧ s.checks.lookup .background = none ∧ config.platformKey.isSome then
    s.goTo .background .fetching
  else (s, [])

/-- Look for a release. -/
def find (config : UpdateConfig) (s : UpdateChecks) (id : CheckId)
    (fetched : Except UpdaterError ReleaseManifest) : UpdateChecks × List TrayEvent :=
  match config.platformKey with
  | none => (s, [])
  | some key =>
    match findAvailableUpdate config.semver config.currentVersion key fetched with
    | .ok (some info) => s.goTo id (.preparing info)
    | .ok none =>
      match id with
      | .background => s.finish id []
      | .manual _ => s.finish id [.updateUpToDate]
    | .error error => s.fail id error

/-- What a check does where it stands. -/
def go (config : UpdateConfig) (s : UpdateChecks) (id : CheckId) :
    CheckStage → Step → UpdateChecks × List TrayEvent
  | .fetching, .fetch _ fetched => s.find config id fetched
  | .preparing info, .prepare _ failure =>
    match failure with
    | some e => s.finish id [.updateFailed ("Failed to create update directory: " ++ e)]
    | none => { s with fs := createDirAll s.fs config.dir }.goTo id (.probing info)
  | .probing info, .probe _ access =>
    if access && (s.fs.entry (config.filePath info)).isSome then s.goTo id (.ready info)
    else s.goTo id (.requesting info)
  | .requesting info, .request _ failure =>
    match failure with
    | some error => s.fail id error
    | none => s.goTo id (.creating info)
  | .creating info, .create _ failure =>
    match DownloadedArtifact.create s.fs (config.filePath info) failure with
    | .error error => s.fail id error
    | .ok (fs, artifact) => { s with fs }.goTo id (.downloading info artifact)
  | .downloading info artifact, .receive _ chunk failure =>
    match artifact.append s.fs chunk failure with
    | (fs, .error error) => { s with fs }.fail id error
    | (fs, .ok artifact) => { s with fs }.goTo id (.downloading info artifact)
  | .downloading _ _, .streamFailed _ source => s.fail id (.artifactStreamFailed source)
  | .downloading info artifact, .synchronize _ failure =>
    match artifact.synchronize failure with
    | .error error => s.fail id error
    | .ok _ => s.goTo id (.verifying info artifact)
  | .verifying info artifact, .verify _ removable =>
    match artifact.verifyChecksum config.crypto s.fs info.sha256 removable with
    | (fs, .error error) => { s with fs }.fail id error
    | (fs, .ok ()) => { s with fs }.goTo id (.ready info)
  | .ready info, .notify _ => s.finish id [.updateReady info.version (config.filePath info)]
  | _, _ => (s, [])

/-- The check a step belongs to. -/
def Step.check : Step → Option CheckId
  | .fetch id _ | .prepare id _ | .probe id _ | .request id _ | .create id _ | .receive id _ _
  | .streamFailed id _ | .synchronize id _ | .verify id _ | .notify id => some id
  | _ => none

/-- One step; a step that is not due changes nothing. -/
def step (config : UpdateConfig) (s : UpdateChecks) : Step → UpdateChecks × List TrayEvent
  | .startProcess => ({ s with checks := ∅, cleaning := true }, [])
  | .removeStale name =>
    match s.cleaning, s.fs.entry (join config.dir name) with
    | true, some (.file _) => ({ s with fs := s.fs.remove (join config.dir name) }, [])
    | _, _ => (s, [])
  | .finishCleanup => ({ s with cleaning := false }, [])
  | .startBackground => s.checkAndDownload config
  | .startManual => s.handleCheckForUpdates config
  | i =>
    match i.check with
    | some id =>
      match s.checks.lookup id with
      | some stage => s.go config id stage i
      | none => (s, [])
    | none => (s, [])

/-- A step of a check is what the check does where it stands. -/
theorem step_check {config : UpdateConfig} {s : UpdateChecks} {i : Step} {id : CheckId}
    (h : i.check = some id) : s.step config i =
      match s.checks.lookup id with
      | some stage => s.go config id stage i
      | none => (s, []) := by
  cases i <;> cases h <;> rfl

/-- The checks as a machine, over whatever files there are. -/
def machine (config : UpdateConfig) (fs : FileSystem) :
    Machine UpdateChecks Step (List TrayEvent) where
  init := new fs
  step := step config

end UpdateChecks

end Gemacast.Updater
