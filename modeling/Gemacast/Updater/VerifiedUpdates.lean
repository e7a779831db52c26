import Gemacast.Updater.UpdateChecks

/-!
# What is announced has been verified

A check that downloads announces a file with the digest of the manifest, as long as nobody
else opens, writes or removes that file in between. A check that finds a file announces it
as it is: over a run everything announced is verified if that is true of what is found.
-/

namespace Gemacast.Updater.UpdateChecks

open Gemacast.Core Gemacast.Control

variable {config : UpdateConfig} {s : UpdateChecks} {fs fs' : FileSystem} {i : Step}
  {id : CheckId} {stage : CheckStage} {info : AvailableUpdate}
  {given given' : CheckId → AvailableUpdate → Prop}

/-! ### What is to hold -/

/-- The file of an update holds bytes with the checksum of the manifest. -/
def Verified (config : UpdateConfig) (fs : FileSystem) (info : AvailableUpdate) : Prop :=
  ∃ bytes, fs.read (config.filePath info) = some bytes ∧
    EqIgnoreAsciiCase (config.crypto.hexEncode (config.crypto.sha256 bytes)) info.sha256

/-- A check has found an update in the manifest it fetched. -/
def Fetched (config : UpdateConfig) (pre : List (Event UpdateChecks Step (List TrayEvent)))
    (id : CheckId) (info : AvailableUpdate) : Prop :=
  ∃ e ∈ pre, ∃ fetched key, e.input = .fetch id fetched ∧ config.platformKey = some key ∧
    findAvailableUpdate config.semver config.currentVersion key fetched = .ok (some info)

/-- Whatever a step announces is the verified file of an update found before. -/
def OffersVerified (config : UpdateConfig)
    (pre : List (Event UpdateChecks Step (List TrayEvent)))
    (e : Event UpdateChecks Step (List TrayEvent)) : Prop :=
  ∀ version installerPath, .updateReady version installerPath ∈ e.output →
    ∃ id info, Fetched config pre id info ∧ info.version = version ∧
      config.filePath info = installerPath ∧ Verified config e.before.fs info

/-! ### Which steps are orderly -/

/-- A check relies on the file at a path. -/
def Relies (config : UpdateConfig) (s : UpdateChecks) (id : CheckId) (path : String) : Prop :=
  ∃ stage info, s.checks.lookup id = some stage ∧ stage.held = some info ∧
    config.filePath info = path

/-- A step opens, writes or removes the file at a path. -/
def Touches (config : UpdateConfig) (s : UpdateChecks) (path : String) : Step → Prop
  | .removeStale name => path = join config.dir name
  | .create id none =>
    ∃ info, s.checks.lookup id = some (.creating info) ∧ path = config.filePath info
  | .receive id _ _ =>
    ∃ info a, s.checks.lookup id = some (.downloading info a) ∧ path = config.filePath info
  | .verify id true => ∃ info a, s.checks.lookup id = some (.verifying info a) ∧
      ¬EqIgnoreAsciiCase (config.crypto.hexEncode (config.crypto.sha256 a.checksum))
        info.sha256 ∧ path = config.filePath info
  | _ => False

/-- A step touches no file another check relies on, and a check that finds a file finds a
verified one. -/
structure Orderly (config : UpdateConfig) (s : UpdateChecks) (i : Step) : Prop where
  /-- Nobody else relies on the file. -/
  alone : ∀ path, s.Touches config path i → ∀ id, i.check ≠ some id → ¬s.Relies config id path
  /-- What is found is verified. -/
  found : ∀ id info, i = .probe id true → s.checks.lookup id = some (.probing info) →
    (s.fs.entry (config.filePath info)).isSome → Verified config s.fs info

/-! ### What holds over orderly runs -/

/-- What a check may count on where it stands. -/
def StageSound (config : UpdateConfig) (given : CheckId → AvailableUpdate → Prop)
    (fs : FileSystem) (id : CheckId) (stage : CheckStage) : Prop :=
  (∀ info, stage.info = some info → given id info) ∧
    match stage with
    | .downloading info a | .verifying info a =>
      a.Intact fs ∧ a.destination = config.filePath info
    | .ready info => Verified config fs info
    | _ => True

/-- Every check may count on what it relies on. -/
def Sound (config : UpdateConfig) (given : CheckId → AvailableUpdate → Prop)
    (s : UpdateChecks) : Prop :=
  ∀ id stage, s.checks.lookup id = some stage → StageSound config given s.fs id stage

/-- A verified file stays verified while it is left as it is. -/
theorem Verified.of_sameAt (h : Verified config fs info)
    (hsame : fs.SameAt fs' (config.filePath info)) : Verified config fs' info := by
  obtain ⟨bytes, hread, hdigest⟩ := h
  exact ⟨bytes, hsame.2.trans hread, hdigest⟩

/-- A check is concerned with the file it relies on only. -/
theorem StageSound.of_sameAt (h : StageSound config given fs id stage)
    (hsame : ∀ info, stage.held = some info → fs.SameAt fs' (config.filePath info)) :
    StageSound config given fs' id stage := by
  obtain ⟨hgiven, hstage⟩ := h
  refine ⟨hgiven, ?_⟩
  cases stage with
  | downloading info a =>
    exact ⟨hstage.1.of_sameAt (hstage.2 ▸ hsame info rfl), hstage.2⟩
  | verifying info a =>
    exact ⟨hstage.1.of_sameAt (hstage.2 ▸ hsame info rfl), hstage.2⟩
  | ready info => exact hstage.of_sameAt (hsame info rfl)
  | fetching => trivial
  | preparing info => trivial
  | probing info => trivial
  | requesting info => trivial
  | creating info => trivial

/-- More may be known of what has been fetched. -/
theorem Sound.mono (h : Sound config given s)
    (hmono : ∀ id info, given id info → given' id info) : Sound config given' s :=
  fun id stage hlookup => ⟨fun info hinfo => hmono id info ((h id stage hlookup).1 info hinfo),
    (h id stage hlookup).2⟩

/-- Files and checks change, but not the files the other checks rely on. -/
theorem Sound.update (h : Sound config given s) (id : CheckId) {checks : Table CheckId CheckStage}
    {manualChecks : ℕ} {cleaning : Bool}
    (hothers : ∀ id' stage', checks.lookup id' = some stage' → id' ≠ id →
      s.checks.lookup id' = some stage')
    (hsame : ∀ id' path, id' ≠ id → s.Relies config id' path → s.fs.SameAt fs' path)
    (hstage : ∀ stage', checks.lookup id = some stage' → StageSound config given fs' id stage') :
    Sound config given ⟨fs', checks, manualChecks, cleaning⟩ := by
  intro id' stage' hlookup
  by_cases hid : id' = id
  · subst hid
    exact hstage stage' hlookup
  · have hbefore := hothers id' stage' hlookup hid
    refine (h id' stage' hbefore).of_sameAt fun info hheld => ?_
    exact hsame id' _ hid ⟨stage', info, hbefore, hheld, rfl⟩

/-- A check goes on. -/
theorem Sound.goTo (h : Sound config given s)
    (hsame : ∀ id' path, id' ≠ id → s.Relies config id' path → s.fs.SameAt fs' path)
    (hstage : StageSound config given fs' id stage) :
    Sound config given ({ s with fs := fs' }.goTo id stage).1 := by
  refine h.update id (fun id' stage' hlookup hne => ?_) hsame fun stage' hlookup => ?_
  · exact (AList.lookup_insert_ne hne).symm.trans hlookup
  · obtain rfl := Option.some.inj ((AList.lookup_insert _).symm.trans hlookup)
    exact hstage

/-- A check ends. -/
theorem Sound.finish (h : Sound config given s) {events : List TrayEvent}
    (hsame : ∀ id' path, id' ≠ id → s.Relies config id' path → s.fs.SameAt fs' path) :
    Sound config given ({ s with fs := fs' }.finish id events).1 := by
  refine h.update id (fun id' stage' hlookup hne => ?_) hsame fun stage' hlookup => ?_
  · exact (AList.lookup_erase_ne hne).symm.trans hlookup
  · nomatch (AList.lookup_erase _ _).symm.trans hlookup

/-- A check goes on and leaves the files alone. -/
theorem Sound.stay (h : Sound config given s) (hstage : StageSound config given s.fs id stage) :
    Sound config given (s.goTo id stage).1 :=
  h.goTo (fun _ _ _ _ => .refl) hstage

/-- A check ends and leaves the files alone. -/
theorem Sound.leave (h : Sound config given s) {events : List TrayEvent} :
    Sound config given (s.finish id events).1 :=
  h.finish fun _ _ _ _ => .refl

/-- Making the directory leaves the files alone. -/
theorem sameAt_createDirAll {dir path : String} (h : (fs.entry path).isSome) :
    fs.SameAt (createDirAll fs dir) path := by
  have hfirst : fs.SameAt (fs.mkdir (join dir "")) path := FileSystem.sameAt_mkdir h
  have hsecond : fs.SameAt ((fs.mkdir (join dir "")).mkdir (join dir ".")) path :=
    hfirst.trans (FileSystem.sameAt_mkdir (hfirst.1 ▸ h))
  exact hsecond.trans (FileSystem.sameAt_mkdir (hsecond.1 ▸ h))

/-- A file relied on is there. -/
theorem Sound.isSome_entry (h : Sound config given s) {path : String}
    (hrelies : s.Relies config id path) : (s.fs.entry path).isSome := by
  obtain ⟨stage, info, hlookup, hheld, rfl⟩ := hrelies
  obtain ⟨-, hstage⟩ := h id stage hlookup
  have hintact : ∀ a : DownloadedArtifact, a.Intact s.fs → a.destination = config.filePath info →
      (s.fs.entry (config.filePath info)).isSome := by
    intro a hintact hdestination
    rw [← hdestination, hintact.entry]
    rfl
  cases stage with
  | downloading info' a =>
    obtain rfl := Option.some.inj hheld
    exact hintact a hstage.1 hstage.2
  | verifying info' a =>
    obtain rfl := Option.some.inj hheld
    exact hintact a hstage.1 hstage.2
  | ready info' =>
    obtain rfl := Option.some.inj hheld
    obtain ⟨bytes, hread, -⟩ := hstage
    unfold FileSystem.read at hread
    split at hread
    · next hentry =>
      rw [hentry]
      rfl
    · cases hread
  | fetching => cases hheld
  | preparing info' => cases hheld
  | probing info' => cases hheld
  | requesting info' => cases hheld
  | creating info' => cases hheld

/-- What a check does where it stands. -/
theorem Sound.go (h : Sound config given s) (hlookup : s.checks.lookup id = some stage)
    (hcheck : i.check = some id) (horderly : s.Orderly config i)
    (hfetch : ∀ fetched key info, i = .fetch id fetched → config.platformKey = some key →
      findAvailableUpdate config.semver config.currentVersion key fetched = .ok (some info) →
        given id info) : Sound config given (s.go config id stage i).1 := by
  obtain ⟨hgiven, hstage⟩ := h id stage hlookup
  -- a file that nobody else relies on may be touched
  have hsame : ∀ {fs' : FileSystem} {path : String}, s.Touches config path i →
      (∀ path', path' ≠ path → s.fs.SameAt fs' path') →
        ∀ id' path', id' ≠ id → s.Relies config id' path' → s.fs.SameAt fs' path' := by
    intro fs' path htouches hother id' path' hne hrelies
    apply hother
    rintro rfl
    refine horderly.alone path' htouches id' ?_ hrelies
    rw [hcheck]
    exact fun heq => hne (Option.some.inj heq).symm
  unfold UpdateChecks.go
  split
  · next id' fetched =>
    obtain rfl := Option.some.inj hcheck
    unfold find
    split
    · exact h
    next key hkey =>
    split
    · next info hfound =>
      refine h.stay ⟨fun info' hinfo => ?_, trivial⟩
      obtain rfl := Option.some.inj hinfo
      exact hfetch fetched key info rfl hkey hfound
    · split
      · exact h.leave
      · exact h.leave
    · exact h.leave
  · next info id' failure =>
    split
    · exact h.leave
    · exact h.goTo (fun id' path hne hrelies => sameAt_createDirAll (h.isSome_entry hrelies))
        ⟨hgiven, trivial⟩
  · next info id' access =>
    obtain rfl := Option.some.inj hcheck
    split
    · next hfound =>
      rw [Bool.and_eq_true] at hfound
      obtain ⟨rfl, hsome⟩ := hfound
      exact h.stay ⟨hgiven, horderly.found id' info rfl hlookup hsome⟩
    · exact h.stay ⟨hgiven, trivial⟩
  · next info id' failure =>
    split
    · exact h.leave
    · exact h.stay ⟨hgiven, trivial⟩
  · next info id' failure =>
    obtain rfl := Option.some.inj hcheck
    split
    · exact h.leave
    next fs' artifact hcreate =>
    obtain ⟨hintact, hdestination, hother⟩ := DownloadedArtifact.create_intact hcreate
    refine h.goTo (hsame ?_ hother) ⟨hgiven, hintact, hdestination⟩
    cases failure with
    | none => exact ⟨info, hlookup, rfl⟩
    | some source => cases hcreate
  · next info artifact id' chunk failure =>
    obtain rfl := Option.some.inj hcheck
    obtain ⟨hintact, hdestination⟩ := hstage
    have hother : ∀ id'' path, id'' ≠ id' → s.Relies config id'' path →
        s.fs.SameAt (artifact.append s.fs chunk failure).1 path :=
      hsame ⟨info, artifact, hlookup, rfl⟩ fun path' hne =>
        DownloadedArtifact.append_sameAt hintact (hdestination ▸ hne)
    split
    · next fs' error happend =>
      rw [happend] at hother
      exact h.finish hother
    · next fs' artifact' happend =>
      have hnext := @DownloadedArtifact.append_intact artifact artifact' s.fs chunk failure hintact
      rw [happend] at hother hnext
      obtain ⟨hintact', hdestination'⟩ := hnext rfl
      exact h.goTo hother ⟨hgiven, hintact', hdestination'.trans hdestination⟩
  · exact h.leave
  · next info artifact id' failure =>
    split
    · exact h.leave
    · exact h.stay ⟨hgiven, hstage⟩
  · next info artifact id' removable =>
    obtain rfl := Option.some.inj hcheck
    obtain ⟨hintact, hdestination⟩ := hstage
    split
    · next fs' error hverify =>
      have herror :=
        @DownloadedArtifact.verifyChecksum_error config.crypto artifact s.fs info.sha256
        removable error
      have hother : ∀ path, path ≠ config.filePath info → s.fs.SameAt
          (artifact.verifyChecksum config.crypto s.fs info.sha256 removable).1 path :=
        fun path hne => DownloadedArtifact.verifyChecksum_sameAt (hdestination ▸ hne)
      rw [hverify] at herror hother
      obtain ⟨hne, hkept⟩ := herror rfl
      cases removable with
      | false =>
        obtain rfl := hkept rfl
        exact h.leave
      | true => exact h.finish (hsame ⟨info, artifact, hlookup, hne, rfl⟩ hother)
    · next fs' hverify =>
      have hok := @DownloadedArtifact.verifyChecksum_ok config.crypto artifact s.fs info.sha256
        removable
      rw [hverify] at hok
      obtain ⟨rfl, hdigest⟩ := hok rfl
      exact h.stay ⟨hgiven, artifact.checksum, hdestination ▸ hintact.read, hdigest⟩
  · exact h.leave
  · exact h

/-- An orderly step leaves every check what it counts on. -/
theorem Sound.step (h : Sound config given s) (horderly : s.Orderly config i)
    (hfetch : ∀ id fetched key info, i = .fetch id fetched → config.platformKey = some key →
      findAvailableUpdate config.semver config.currentVersion key fetched = .ok (some info) →
        given id info) : Sound config given (s.step config i).1 := by
  cases hcheck : i.check with
  | some id =>
    rw [step_check hcheck]
    split
    · next stage hlookup => exact h.go hlookup hcheck horderly (hfetch id)
    · exact h
  | none =>
    have hfetching : ∀ id, StageSound config given s.fs id .fetching := fun id => ⟨nofun, trivial⟩
    cases i with
    | startProcess => exact nofun
    | removeStale name =>
      simp only [UpdateChecks.step]
      split
      · intro id stage hlookup
        refine (h id stage hlookup).of_sameAt fun info hheld => FileSystem.sameAt_remove ?_
        rintro heq
        exact horderly.alone _ rfl id nofun ⟨stage, info, hlookup, hheld, heq⟩
      · exact h
    | finishCleanup => exact h
    | startBackground =>
      simp only [UpdateChecks.step, checkAndDownload]
      split
      · exact h.stay (hfetching .background)
      · exact h
    | startManual =>
      simp only [UpdateChecks.step, handleCheckForUpdates]
      split
      · exact h
      · refine h.update (.manual (s.manualChecks + 1)) (fun id' stage' hlookup hne => ?_)
          (fun _ _ _ _ => .refl) fun stage' hlookup => ?_
        · exact (AList.lookup_insert_ne hne).symm.trans hlookup
        · obtain rfl := Option.some.inj ((AList.lookup_insert _).symm.trans hlookup)
          exact hfetching _
    | fetch | prepare | probe | request | create | receive | streamFailed | synchronize | verify
    | notify => cases hcheck

/-- Looking for a release announces nothing. -/
theorem not_updateReady_find {version installerPath : String}
    {fetched : Except UpdaterError ReleaseManifest} :
    .updateReady version installerPath ∉ (s.find config id fetched).2 := by
  unfold find
  split
  · exact List.not_mem_nil
  · split
    · simp
    · split <;> simp
    · simp

/-- A check announces an update from right before its end. -/
theorem ready_of_go {version installerPath : String}
    (h : .updateReady version installerPath ∈ (s.go config id stage i).2) :
    ∃ info, stage = .ready info ∧ version = info.version ∧
      installerPath = config.filePath info := by
  unfold UpdateChecks.go at h
  split at h
  case h_1 => exact absurd h not_updateReady_find
  case h_10 info _ =>
    obtain ⟨rfl, rfl⟩ := TrayEvent.updateReady.inj (List.mem_singleton.mp h)
    exact ⟨info, rfl, rfl, rfl⟩
  case h_7 => simp at h
  case h_11 => simp at h
  all_goals split at h <;> simp at h

/-- An update is announced by a check that stands right before it. -/
theorem ready_of_updateReady {version installerPath : String}
    (h : .updateReady version installerPath ∈ (s.step config i).2) :
    ∃ id info, s.checks.lookup id = some (.ready info) ∧ version = info.version ∧
      installerPath = config.filePath info := by
  cases hcheck : i.check with
  | some id =>
    rw [step_check hcheck] at h
    split at h
    · next stage hlookup =>
      obtain ⟨info, rfl, hversion, hpath⟩ := ready_of_go h
      exact ⟨id, info, hlookup, hversion, hpath⟩
    · cases h
  | none =>
    cases i with
    | startProcess => cases h
    | removeStale name =>
      simp only [UpdateChecks.step] at h
      split at h <;> cases h
    | finishCleanup => cases h
    | startBackground =>
      simp only [UpdateChecks.step, checkAndDownload] at h
      split at h <;> cases h
    | startManual =>
      simp only [UpdateChecks.step, handleCheckForUpdates] at h
      split at h <;> simp at h
    | fetch | prepare | probe | request | create | receive | streamFailed | synchronize | verify
    | notify => cases hcheck

/-! ### Whole runs -/

/-- In a run of orderly steps, whatever is announced is the verified file of an update that was
found in a manifest before. -/
theorem offersVerified_of_run {steps : List Step}
    (hok : ∀ e ∈ (machine config fs).events steps, e.before.Orderly config e.input)
    {pre post : List (Event UpdateChecks Step (List TrayEvent))}
    {e : Event UpdateChecks Step (List TrayEvent)}
    (hsplit : (machine config fs).events steps = pre ++ e :: post) :
    OffersVerified config pre e := by
  have hsound : Sound config (Fetched config pre) e.before := by
    refine (machine config fs).history_before
      (I := fun pre s => Sound config (Fetched config pre) s)
      (p := fun _ e => e.before.Orderly config e.input) nofun ?_ ?_ hsplit
    · intro pre s i hsound horderly
      have hlonger : Sound config
          (Fetched config (pre ++ [(machine config fs).eventAt s i])) s := by
        refine hsound.mono fun id info hfetched => ?_
        obtain ⟨e, he, hrest⟩ := hfetched
        exact ⟨e, List.mem_append_left _ he, hrest⟩
      refine hlonger.step horderly fun id fetched key info hinput hkey hfound => ?_
      exact ⟨_, List.mem_append_right _ List.mem_cons_self, fetched, key, hinput, hkey, hfound⟩
    · intro pre e post hsplit
      exact hok e (hsplit ▸ List.mem_append_right _ List.mem_cons_self)
  have hevent : e = (machine config fs).eventAt e.before e.input :=
    (machine config fs).eq_eventAt_of_mem (hsplit ▸ List.mem_append_right _ List.mem_cons_self)
  intro version installerPath hready
  rw [hevent] at hready
  obtain ⟨id, info, hlookup, rfl, rfl⟩ := ready_of_updateReady hready
  obtain ⟨hgiven, hverified⟩ := hsound id _ hlookup
  exact ⟨id, info, hgiven info rfl, rfl, rfl, hverified⟩

/-- The step finds no file. -/
def FindsNothing (config : UpdateConfig) (s : UpdateChecks) : Step → Bool
  | .probe id _ =>
    match s.checks.lookup id with
    | some (.probing info) => (s.fs.entry (config.filePath info)).isNone
    | _ => true
  | _ => true

/-- The step is of the only check there is, and finds no file. -/
def Lonely (config : UpdateConfig) (s : UpdateChecks) (i : Step) : Bool :=
  (s.checks.keys.all fun id => i.check = some id) && s.FindsNothing config i

/-- With nobody else around and nothing found every step is orderly. -/
theorem orderly_of_lonely (h : s.Lonely config i = true) : s.Orderly config i := by
  rw [Lonely, Bool.and_eq_true, List.all_eq_true] at h
  obtain ⟨hkeys, hnothing⟩ := h
  refine ⟨fun path _ id hne hrelies => ?_, ?_⟩
  · obtain ⟨stage, info, hlookup, -, -⟩ := hrelies
    have hmem : id ∈ s.checks.keys := AList.mem_keys.mp (Table.mem_iff.mpr ⟨stage, hlookup⟩)
    exact hne (of_decide_eq_true (hkeys id hmem))
  · rintro id info rfl hlookup hsome
    simp only [FindsNothing, hlookup, Option.isNone_iff_eq_none] at hnothing
    rw [hnothing] at hsome
    nomatch hsome

/-- Version 0.1.0 on Linux; a file is its own digest. -/
def exampleConfig : UpdateConfig where
  crypto := hexCrypto
  semver := ⟨String, .ok, fun a b => a = b⟩
  currentVersion := "0.1.0"
  platformKey := some "linux-x86_64"
  dir := "/tmp/gemacast-update"

/-- Version 0.2.0, an artifact of 32 zeros. -/
def exampleManifest : ReleaseManifest where
  version := "0.2.0"
  platforms := (∅ : Table String PlatformRelease).insert "linux-x86_64"
    ⟨"https://example.com/gemacast.AppImage", some (hexDigits (List.replicate 32 0))⟩

/-- The update on offer. -/
def exampleInfo : AvailableUpdate :=
  ⟨"0.2.0", "https://example.com/gemacast.AppImage", hexDigits (List.replicate 32 0)⟩

/-- A check up to where it looks for the file. -/
def exampleCheck (n : ℕ) : List Step :=
  [.startManual, .fetch (.manual n) (.ok exampleManifest), .prepare (.manual n) none,
    .probe (.manual n) true]

/-- A check that downloads the whole artifact. -/
def wholeDownload : List Step :=
  exampleCheck 1 ++ [.request (.manual 1) none, .create (.manual 1) none,
    .receive (.manual 1) (List.replicate 20 0) none,
    .receive (.manual 1) (List.replicate 12 0) none, .synchronize (.manual 1) none,
    .verify (.manual 1) true]

theorem offersVerified_of_run_wholeDownload :
    ((machine exampleConfig .empty).eventAt ((machine exampleConfig .empty).run wholeDownload)
      (.notify (.manual 1))).output =
        [.updateReady "0.2.0" "/tmp/gemacast-update/gemacast.AppImage"] ∧
      OffersVerified exampleConfig ((machine exampleConfig .empty).events wholeDownload)
        ((machine exampleConfig .empty).eventAt
          ((machine exampleConfig .empty).run wholeDownload) (.notify (.manual 1))) := by
  have hlonely : ((machine exampleConfig .empty).events
      (wholeDownload ++ [.notify (.manual 1)])).all
        (fun e => e.before.Lonely exampleConfig e.input) = true := by decide +kernel
  refine ⟨by decide +kernel, offersVerified_of_run (fun e he => ?_)
    ((machine exampleConfig .empty).events_concat wholeDownload (.notify (.manual 1)))⟩
  exact orderly_of_lonely (List.all_eq_true.mp hlonely e he)

/-- The connection breaks in the middle of the artifact; the next check finds the file. -/
def brokenDownload : List Step :=
  exampleCheck 1 ++ [.request (.manual 1) none, .create (.manual 1) none,
    .receive (.manual 1) (List.replicate 16 0) none, .streamFailed (.manual 1) "reset"] ++
    exampleCheck 2

/-- Half an artifact is announced. -/
theorem not_offersVerified_brokenDownload :
    ∃ pre e post, (machine exampleConfig .empty).events
      (brokenDownload ++ [.notify (.manual 2)]) = pre ++ e :: post ∧
        ¬OffersVerified exampleConfig pre e := by
  refine ⟨(machine exampleConfig .empty).events brokenDownload, _, [],
    (machine exampleConfig .empty).events_concat _ _, fun h => ?_⟩
  obtain ⟨id, info, ⟨e, he, fetched, key, hinput, hkey, hfound⟩, -, -, bytes, hread, hdigest⟩ :=
    h "0.2.0" "/tmp/gemacast-update/gemacast.AppImage" (by decide +kernel)
  have hmem : e.input ∈ brokenDownload := (machine exampleConfig .empty).input_mem he
  have hmanifest : fetched = .ok exampleManifest := by
    have hcheck : (id = .manual 1 ∧ fetched = .ok exampleManifest) ∨
        (id = .manual 2 ∧ fetched = .ok exampleManifest) := by
      simpa [hinput, brokenDownload, exampleCheck] using hmem
    obtain ⟨-, hfetched⟩ | ⟨-, hfetched⟩ := hcheck
    · exact hfetched
    · exact hfetched
  have hinfo : findAvailableUpdate exampleConfig.semver exampleConfig.currentVersion
      "linux-x86_64" (.ok exampleManifest) = .ok (some exampleInfo) := by decide +kernel
  obtain rfl := Option.some.inj hkey
  rw [hmanifest, hinfo] at hfound
  obtain rfl := Option.some.inj (Except.ok.inj hfound)
  have hhalf : ((machine exampleConfig .empty).run brokenDownload).fs.read
      (exampleConfig.filePath exampleInfo) = some (List.replicate 16 0) := by decide +kernel
  obtain rfl := Option.some.inj (hread.symm.trans hhalf)
  revert hdigest
  decide +kernel

end Gemacast.Updater.UpdateChecks
