import Gemacast.Core.Directory
import Gemacast.Control.PcIdentity

/-!
# One identity for good

Starts of the PC over the files of its identity, however many of them fail or are killed on
the way. All starts that get an identity get the same one, the files are never worse than
before, and a start without faults always gets one.
-/

namespace Gemacast.Control

open Gemacast.Core Gemacast.Streamer

/-- The files a start touches, by name. -/
abbrev Disk := Directory FileName

namespace Disk

/-- What may come of an operation. A file that is there is not reported as missing; the clock
and the generator answer as they may. -/
def Serves (clock : Disk → ℕ → Prop) (generated : List UInt8 → List UInt8 → Prop) (d : Disk) :
    (op : IdentityOp) → op.Answer → Disk → Prop
  | .read name, .ok contents, d' => d' = d ∧ d name = some contents
  | .read name, .error error, d' => d' = d ∧ (error.kind = .notFound → d name = none)
  | .createParent, _, d' => d' = d
  | .write name contents, .ok (), d' => d' = Function.update d name (some contents)
  | .write name contents, .error _, d' => d.CutOff name contents d'
  | .rename source target, .ok (), d' => d.Renamed source target d'
  | .rename _ _, .error _, d' => d' = d
  | .setPermissions _ _, _, d' => d' = d
  | .remove name, .ok (), d' => d' = Function.update d name none
  | .remove _, .error _, d' => d' = d
  | .readClock, stamp, d' => d' = d ∧ clock d stamp
  | .generatePair, .ok (cert, key), d' => d' = d ∧ generated cert key
  | .generatePair, .error _, d' => d' = d

/-- What a kill in the middle of an operation leaves. -/
def Tears (d : Disk) : IdentityOp → Disk → Prop
  | .write name contents, d' => d.CutOff name contents d'
  | .rename source target, d' => d' = d ∨ d.Renamed source target d'
  | .remove name, d' => d' = d ∨ d' = Function.update d name none
  | .read _, d' | .createParent, d' | .setPermissions _ _, d' | .readClock, d'
  | .generatePair, d' => d' = d

/-- The files of a directory, with a clock and a generator of pairs. -/
def service (clock : Disk → ℕ → Prop) (generated : List UInt8 → List UInt8 → Prop) :
    Service Disk IdentityOp IdentityOp.Answer :=
  ⟨Serves clock generated, Tears⟩

/-- What is read of a file when nothing fails. -/
def readFile (d : Disk) (name : FileName) : Except DiskError (List UInt8) :=
  match d name with
  | some contents => .ok contents
  | none => .error ⟨.notFound, "entity not found"⟩

/-- What comes of an operation when nothing fails: the clock shows a time and the generator
makes a pair. -/
def faultless (now : ℕ) (pair : List UInt8 × List UInt8) (d : Disk) :
    (op : IdentityOp) → Disk × op.Answer
  | .read name => (d, d.readFile name)
  | .createParent => (d, .ok ())
  | .write name contents => (Function.update d name (some contents), .ok ())
  | .rename source target =>
    match d source with
    | some contents =>
      (Function.update (Function.update d source none) target (some contents), .ok ())
    | none => (d, .error ⟨.notFound, "entity not found"⟩)
  | .setPermissions _ _ => (d, .ok ())
  | .remove name => (Function.update d name none, .ok ())
  | .readClock => (d, now)
  | .generatePair => (d, .ok pair)

/-- This may come of it. -/
theorem serves_faultless {clock : Disk → ℕ → Prop} {generated : List UInt8 → List UInt8 → Prop}
    {d : Disk} {now : ℕ} {pair : List UInt8 × List UInt8} (hclock : clock d now)
    (hpair : generated pair.1 pair.2) (op : IdentityOp) :
    d.Serves clock generated op (d.faultless now pair op).2 (d.faultless now pair op).1 := by
  cases op with
  | read name =>
    unfold faultless readFile
    dsimp only
    split
    · next hsome => exact ⟨rfl, hsome⟩
    · next hnone => exact ⟨rfl, fun _ => hnone⟩
  | rename source target =>
    unfold faultless
    dsimp only
    split
    · next hsome => exact ⟨_, hsome, rfl⟩
    · rfl
  | readClock => exact ⟨rfl, hclock⟩
  | generatePair => exact ⟨rfl, hpair⟩
  | createParent | write _ _ | setPermissions _ _ | remove _ => rfl

end Disk

namespace PcIdentity

variable {clock : Disk → ℕ → Prop} {generated : List UInt8 → List UInt8 → Prop}
  {tls : TlsProvider} {crypto : Crypto} {isUnix : Bool} {d t : Disk} {file : IdentityFile}
  {contents : List UInt8} {identity : PcIdentity}

section Tasks

open Program

variable {α β : Type} {I : Disk → Prop} {ψ : Disk → Except DiskError α → Prop}
  {χ : Disk → Except DiskError β → Prop}

/-- The rest of a task starts from what its first part leaves. -/
theorem withstands_andThen {task : Task α} {next : α → Task β}
    (h : Withstands (Disk.service clock generated) I ψ task d)
    (herror : ∀ t error, I t → χ t (.error error))
    (hnext : ∀ t result, I t → ψ t (.ok result) →
      Withstands (Disk.service clock generated) I χ (next result) t) :
    Withstands (Disk.service clock generated) I χ (andThen task next) d := by
  refine h.bind fun t answer hI hψ => ?_
  cases answer with
  | error error => exact ⟨hI, herror t error hI⟩
  | ok result => exact hnext t result hI hψ

/-- A single operation, from what it answers and what it may leave. -/
theorem withstands_call {op : IdentityOp} {ψ : Disk → op.Answer → Prop} (hd : I d)
    (htorn : ∀ t, d.Tears op t → I t)
    (hserved : ∀ answer t, d.Serves clock generated op answer t → I t ∧ ψ t answer) :
    Withstands (Disk.service clock generated) I ψ (.call op .done) d :=
  ⟨hd, htorn, hserved⟩

end Tasks

section Save

open Program

/-- A file of the identity is replaced as a whole or not at all. -/
abbrev Replaces (file : IdentityFile) : List UInt8 → Disk → Disk → Prop :=
  Directory.Replaces (.identity file) (.temporary file)

/-- Saving replaces the file, however it fails. -/
theorem saveFile_replaces (file : IdentityFile) (contents : List UInt8) (d : Disk) :
    Withstands (Disk.service clock generated) (Replaces file contents d)
      (fun t answer => answer = .ok () → t (.identity file) = some contents)
      (saveFile file contents) d := by
  have hsame : Replaces file contents d d := Directory.Replaces.refl ..
  have hne : FileName.identity file ≠ .temporary file := by rintro ⟨⟩
  refine withstands_andThen (ψ := fun _ _ => True) (withstands_call hsame ?_ ?_) ?_ ?_
  · rintro t rfl
    exact hsame
  · rintro answer t rfl
    exact ⟨hsame, trivial⟩
  · rintro t error - ⟨⟩
  rintro t ⟨⟩ ht -
  refine withstands_andThen
    (ψ := fun t answer => answer = .ok () → t (.temporary file) = some contents)
    (withstands_call ht (fun t' hcut => ht.cutOff hne hcut) ?_) ?_ ?_
  · rintro (error | ⟨⟩) t' hserved
    · exact ⟨ht.cutOff hne hserved, by rintro ⟨⟩⟩
    · obtain rfl : t' = Function.update t (.temporary file) (some contents) := hserved
      exact ⟨ht.put hne _, fun _ => Function.update_self ..⟩
  · rintro t error - ⟨⟩
  rintro t ⟨⟩ ht hwritten
  refine withstands_call ht ?_ ?_
  · rintro t' (rfl | hrenamed)
    · exact ht
    · exact (ht.renamed (hwritten rfl) hrenamed).1
  · rintro (error | ⟨⟩) t' hserved
    · obtain rfl : t' = t := hserved
      exact ⟨ht, by rintro ⟨⟩⟩
    · obtain ⟨hreplaces, hnew⟩ := ht.renamed (hwritten rfl) hserved
      exact ⟨hreplaces, fun _ => hnew⟩

/-- So does saving a private file. -/
theorem savePrivateFile_replaces (file : IdentityFile) (contents : List UInt8) (d : Disk) :
    Withstands (Disk.service clock generated) (Replaces file contents d)
      (fun t answer => answer = .ok () → t (.identity file) = some contents)
      (savePrivateFile isUnix file contents) d := by
  refine withstands_andThen (saveFile_replaces file contents d) (by rintro t error - ⟨⟩) ?_
  rintro t ⟨⟩ ht hsaved
  split
  · refine withstands_call ht ?_ ?_
    · rintro t' rfl
      exact ht
    · rintro answer t' rfl
      exact ⟨ht, fun _ => hsaved rfl⟩
  · exact ⟨ht, fun _ => hsaved rfl⟩

end Save

section Start

open Program

/-- The files hold the identity. -/
structure Holds (tls : TlsProvider) (crypto : Crypto) (identity : PcIdentity) (d : Disk) :
    Prop where
  /-- The certificate. -/
  cert : d (.identity .cert) = some identity.certificateDer
  /-- The private key. -/
  key : d (.identity .key) = some identity.privateKeyDer
  /-- They fit. -/
  fits : fromDer tls crypto identity.certificateDer identity.privateKeyDer = .ok identity

/-- An identity is that of its own files. -/
theorem fromDer_ok {cert key : List UInt8} (h : fromDer tls crypto cert key = .ok identity) :
    identity.certificateDer = cert ∧ identity.privateKeyDer = key := by
  unfold fromDer at h
  split at h
  · cases h
  · split at h
    · cases h
    · obtain rfl := Except.ok.inj h
      exact ⟨rfl, rfl⟩

theorem holds_of_fromDer {cert key : List UInt8} (h : fromDer tls crypto cert key = .ok identity)
    (hcert : d (.identity .cert) = some cert) (hkey : d (.identity .key) = some key) :
    Holds tls crypto identity d := by
  obtain ⟨rfl, rfl⟩ := fromDer_ok h
  exact ⟨hcert, hkey, h⟩

/-- Files that do not fit are reported as invalid data. -/
theorem fromDer_error {cert key : List UInt8} {error : DiskError}
    (h : fromDer tls crypto cert key = .error error) : error.kind = .invalidData := by
  unfold fromDer at h
  split at h
  · obtain rfl := Except.error.inj h
    rfl
  · split at h
    · obtain rfl := Except.error.inj h
      rfl
    · cases h

/-- What a read says of a file. -/
def ReadAs (d : Disk) (name : FileName) : Except DiskError (List UInt8) → Prop
  | .ok contents => d name = some contents
  | .error error => error.kind = .notFound → d name = none

theorem serves_read {name : FileName} {answer : Except DiskError (List UInt8)}
    (h : d.Serves clock generated (.read name) answer t) : t = d ∧ ReadAs d name answer := by
  cases answer with
  | ok contents => exact h
  | error error => exact h

/-- What a start goes on with once it has read the files. -/
inductive Resolves (tls : TlsProvider) (crypto : Crypto) (isUnix : Bool) (d : Disk) :
    Task PcIdentity → Prop
  | loaded (found : PcIdentity) (h : Holds tls crypto found d) :
      Resolves tls crypto isUnix d (.done (.ok found))
  | failed (error : DiskError) : Resolves tls crypto isUnix d (.done (.error error))
  | remade (files : List IdentityFile) (hunfit : ∀ identity, ¬Holds tls crypto identity d)
      (hmissing : ∀ file, file ∉ files → d (.identity file) = none) :
      Resolves tls crypto isUnix d (regenerate tls crypto isUnix files)

theorem resolves_resolve {cert key : Except DiskError (List UInt8)}
    (hcert : ReadAs d (.identity .cert) cert) (hkey : ReadAs d (.identity .key) key) :
    Resolves tls crypto isUnix d (resolve tls crypto isUnix cert key) := by
  have hwithout : ∀ {file : IdentityFile}, d (.identity file) = none →
      ∀ identity, ¬Holds tls crypto identity d := by
    intro file hnone identity h
    cases file with
    | cert => cases hnone.symm.trans h.cert
    | key => cases hnone.symm.trans h.key
  cases cert with
  | ok certificateDer =>
    cases key with
    | ok privateKeyDer =>
      rw [resolve]
      split
      · next identity hfits => exact .loaded _ (holds_of_fromDer hfits hcert hkey)
      · next error hunfit =>
        rw [if_pos (fromDer_error hunfit)]
        refine .remade _ (fun identity h => ?_) fun file hfile => ?_
        · obtain rfl := Option.some.inj (hcert.symm.trans h.cert)
          obtain rfl := Option.some.inj (hkey.symm.trans h.key)
          cases hunfit.symm.trans h.fits
        · cases file <;> simp at hfile
    | error error =>
      rw [resolve]
      split
      · next hkind =>
        refine .remade _ (hwithout (hkey hkind)) fun file hfile => ?_
        cases file with
        | cert => simp at hfile
        | key => exact hkey hkind
      · exact .failed error
  | error certError =>
    cases key with
    | ok privateKeyDer =>
      rw [resolve]
      split
      · next hkind =>
        refine .remade _ (hwithout (hcert hkind)) fun file hfile => ?_
        cases file with
        | cert => exact hcert hkind
        | key => simp at hfile
      · exact .failed certError
    | error keyError =>
      rw [resolve]
      split
      · next hkinds =>
        refine .remade _ (hwithout (hcert hkinds.1)) fun file _ => ?_
        cases file with
        | cert => exact hcert hkinds.1
        | key => exact hkey hkinds.2
      · exact .failed certError

/-- A start reads the files and goes on with what it found. -/
theorem loadOrCreate_withstands {I : Disk → Prop} {ψ : Disk → Except DiskError PcIdentity → Prop}
    (hd : I d) (hresolved : ∀ task, Resolves tls crypto isUnix d task →
      Withstands (Disk.service clock generated) I ψ task d) :
    Withstands (Disk.service clock generated) I ψ (loadOrCreate tls crypto isUnix) d := by
  refine ⟨hd, by rintro t rfl; exact hd, fun cert t hcert => ?_⟩
  obtain ⟨rfl, hcert⟩ := serves_read hcert
  refine ⟨hd, by rintro t' rfl; exact hd, fun key t' hkey => ?_⟩
  obtain ⟨rfl, hkey⟩ := serves_read hkey
  exact hresolved _ (resolves_resolve hcert hkey)

/-- A start over the files of an identity leaves them alone, and answers that identity or an
error. -/
theorem loadOrCreate_of_holds (h : Holds tls crypto identity d) :
    Withstands (Disk.service clock generated) (Holds tls crypto identity)
      (fun _ answer => ∀ identity', answer.toOption = some identity' → identity' = identity)
      (loadOrCreate tls crypto isUnix) d := by
  refine loadOrCreate_withstands h fun task hresolves => ?_
  cases hresolves with
  | loaded identity' h' =>
    refine ⟨h, ?_⟩
    rintro identity'' hanswer
    obtain rfl : identity' = identity'' := Option.some.inj hanswer
    have hcert := Option.some.inj (h'.cert.symm.trans h.cert)
    have hkey := Option.some.inj (h'.key.symm.trans h.key)
    have hfits := h'.fits
    rw [hcert, hkey, h.fits] at hfits
    exact (Except.ok.inj hfits).symm
  | failed error => exact ⟨h, by rintro identity' ⟨⟩⟩
  | remade files hunfit => exact absurd h (hunfit identity)

/-- A pair that was made is in the files when it is answered. -/
theorem generate_holds (d : Disk) :
    Withstands (Disk.service clock generated) (fun _ => True)
      (fun t answer => ∀ identity, answer.toOption = some identity → Holds tls crypto identity t)
      (generate tls crypto isUnix) d := by
  refine ⟨trivial, fun _ _ => trivial, ?_⟩
  rintro (error | ⟨certificateDer, privateKeyDer⟩) t -
  · exact ⟨trivial, by rintro identity ⟨⟩⟩
  refine withstands_andThen ((savePrivateFile_replaces .key privateKeyDer t).mono
    (fun _ _ => trivial) fun _ _ _ h => h) (by rintro t' error - identity ⟨⟩) ?_
  rintro t' ⟨⟩ - hkey
  refine ((saveFile_replaces .cert certificateDer t').mono (fun _ _ => trivial)
    fun t'' answer ht'' hcert => (⟨ht'', hcert⟩ : Replaces .cert certificateDer t' t'' ∧ _)).bind ?_
  rintro t'' (error | ⟨⟩) - ⟨hsaved, hcert⟩
  · exact ⟨trivial, fun _ _ => trivial, fun _ _ _ => ⟨trivial, by rintro identity ⟨⟩⟩⟩
  · refine ⟨trivial, fun identity hidentity => ?_⟩
    have hkept := hsaved.others (.identity .key) (by rintro ⟨⟩) (by rintro ⟨⟩)
    cases hfits : fromDer tls crypto certificateDer privateKeyDer with
    | error error =>
      rw [hfits] at hidentity
      cases hidentity
    | ok identity' =>
      rw [hfits] at hidentity
      obtain rfl : identity' = identity := Option.some.inj hidentity
      exact holds_of_fromDer hfits (hcert rfl) (hkept.trans (hkey rfl))

/-- So is one that was made after others were put aside. -/
theorem regenerate_holds (files : List IdentityFile) (d : Disk) :
    Withstands (Disk.service clock generated) (fun _ => True)
      (fun t answer => ∀ identity, answer.toOption = some identity → Holds tls crypto identity t)
      (regenerate tls crypto isUnix files) d := by
  induction files generalizing d with
  | nil => exact generate_holds d
  | cons file files ih =>
    refine withstands_andThen (ψ := fun _ _ => True) ?_ (by rintro t error - identity ⟨⟩) ?_
    · exact ⟨trivial, fun _ _ => trivial, fun _ _ _ => ⟨trivial, fun _ _ => trivial,
        fun _ _ _ => ⟨trivial, trivial⟩⟩⟩
    · exact fun t _ _ _ => ih t

/-- Whatever is on the disk, what a start answers is in the files then. -/
theorem loadOrCreate_holds (d : Disk) :
    Withstands (Disk.service clock generated) (fun _ => True)
      (fun t answer => ∀ identity, answer.toOption = some identity → Holds tls crypto identity t)
      (loadOrCreate tls crypto isUnix) d := by
  refine loadOrCreate_withstands trivial fun task hresolves => ?_
  cases hresolves with
  | loaded found h =>
    refine ⟨trivial, fun identity hanswer => ?_⟩
    obtain rfl : found = identity := Option.some.inj hanswer
    exact h
  | failed error => exact ⟨trivial, by rintro identity ⟨⟩⟩
  | remade files _ _ => exact regenerate_holds files d

end Start

section Faultless

open Program

variable {now : ℕ} {pair : List UInt8 × List UInt8}

/-- A task when nothing fails. -/
def run {α : Type} (now : ℕ) (pair : List UInt8 × List UInt8) (task : Task α) (d : Disk) :
    Option (Disk × Except DiskError α) :=
  runAlone (fun d op => some (d.faultless now pair op)) task d

theorem run_andThen {α β : Type} {task : Task α} {next : α → Task β} {result : α}
    (h : run now pair task d = some (t, .ok result)) :
    run now pair (andThen task next) d = run now pair (next result) t := by
  change runAlone _ (task >>= _) d = _
  rw [runAlone_bind]
  change (run now pair task d).bind _ = _
  rw [h]
  rfl

theorem run_saveFile (now : ℕ) (pair : List UInt8 × List UInt8) (file : IdentityFile)
    (contents : List UInt8) (d : Disk) :
    ∃ t, run now pair (saveFile file contents) d = some (t, .ok ()) ∧
      t (.identity file) = some contents ∧
      ∀ name, name ≠ .identity file → name ≠ .temporary file → t name = d name := by
  refine ⟨Function.update (Function.update (Function.update d (.temporary file) (some contents))
    (.temporary file) none) (.identity file) (some contents), ?_, Function.update_self .., ?_⟩
  · cases file <;> rfl
  · intro name hne hne'
    rw [Function.update_of_ne hne, Function.update_of_ne hne', Function.update_of_ne hne']

theorem run_savePrivateFile (now : ℕ) (pair : List UInt8 × List UInt8) (isUnix : Bool)
    (file : IdentityFile) (contents : List UInt8) (d : Disk) :
    ∃ t, run now pair (savePrivateFile isUnix file contents) d = some (t, .ok ()) ∧
      t (.identity file) = some contents ∧
      ∀ name, name ≠ .identity file → name ≠ .temporary file → t name = d name := by
  obtain ⟨t, hrun, hspec⟩ := run_saveFile now pair file contents d
  refine ⟨t, ?_, hspec⟩
  rw [savePrivateFile, run_andThen hrun]
  cases isUnix <;> rfl

/-- A new pair is made and saved. -/
theorem run_generate (hfits : fromDer tls crypto pair.1 pair.2 = .ok identity) (d : Disk) :
    ∃ t, run now pair (generate tls crypto isUnix) d = some (t, .ok identity) ∧
      Holds tls crypto identity t := by
  obtain ⟨t, hkeyed, hkey, -⟩ := run_savePrivateFile now pair isUnix .key pair.2 d
  obtain ⟨t', hsaved, hcert, hothers⟩ := run_saveFile now pair .cert pair.1 t
  refine ⟨t', ?_, holds_of_fromDer hfits hcert ?_⟩
  · change run now pair (andThen (savePrivateFile isUnix .key pair.2) _) d = _
    rw [run_andThen hkeyed]
    change runAlone _ (saveFile .cert pair.1 >>= _) t = _
    rw [runAlone_bind]
    change (run now pair (saveFile .cert pair.1) t).bind _ = _
    rw [hsaved, ← hfits]
    rfl
  · rw [hothers _ (by rintro ⟨⟩) (by rintro ⟨⟩)]
    exact hkey

/-- Files that are there are put aside. -/
theorem run_quarantine {file : IdentityFile} {contents : List UInt8}
    (hthere : d (.identity file) = some contents) :
    run now pair (quarantineIdentityFile file) d =
      some (Function.update (Function.update d (.identity file) none) (.quarantined file now)
        (some contents), .ok ()) := by
  change some (d.faultless now pair (.rename (.identity file) (.quarantined file now))) = _
  rw [Disk.faultless, hthere]
  rfl

theorem run_regenerate (now : ℕ) (isUnix : Bool)
    (hfits : fromDer tls crypto pair.1 pair.2 = .ok identity)
    {files : List IdentityFile} (hnodup : files.Nodup)
    (hthere : ∀ file ∈ files, (d (.identity file)).isSome) :
    ∃ t, run now pair (regenerate tls crypto isUnix files) d = some (t, .ok identity) ∧
      Holds tls crypto identity t := by
  induction files generalizing d with
  | nil => exact run_generate hfits d
  | cons file files ih =>
    obtain ⟨hfresh, hnodup⟩ := List.nodup_cons.mp hnodup
    obtain ⟨contents, hcontents⟩ :=
      Option.isSome_iff_exists.mp (hthere file List.mem_cons_self)
    obtain ⟨t, hrun, hholds⟩ := ih hnodup
      (d := Function.update (Function.update d (.identity file) none) (.quarantined file now)
        (some contents)) fun other hother => by
      rw [Function.update_of_ne (by rintro ⟨⟩), Function.update_of_ne]
      · exact hthere other (List.mem_cons_of_mem _ hother)
      · rintro ⟨⟩
        exact hfresh hother
    refine ⟨t, ?_, hholds⟩
    rw [regenerate, run_andThen (run_quarantine hcontents)]
    exact hrun

/-- A start reads what is there. -/
theorem run_loadOrCreate (d : Disk) :
    run now pair (loadOrCreate tls crypto isUnix) d =
      run now pair (resolve tls crypto isUnix (d.readFile (.identity .cert))
        (d.readFile (.identity .key))) d := rfl

/-- A start without faults finds the identity in the files. -/
theorem run_of_holds (now : ℕ) (pair : List UInt8 × List UInt8) (isUnix : Bool)
    (h : Holds tls crypto identity d) :
    run now pair (loadOrCreate tls crypto isUnix) d = some (d, .ok identity) := by
  rw [run_loadOrCreate, Disk.readFile, Disk.readFile, h.cert, h.key]
  dsimp only
  rw [resolve, h.fits]
  rfl

/-- A start without faults gets an identity, whatever is on the disk. -/
theorem run_recovers (now : ℕ) (isUnix : Bool)
    (hfits : fromDer tls crypto pair.1 pair.2 = .ok identity) (d : Disk) :
    ∃ t found, run now pair (loadOrCreate tls crypto isUnix) d = some (t, .ok found) ∧
      Holds tls crypto found t := by
  rw [run_loadOrCreate, Disk.readFile, Disk.readFile]
  have hmade : ∀ files : List IdentityFile, files.Nodup →
      (∀ file ∈ files, (d (.identity file)).isSome) → ∃ t found,
        run now pair (regenerate tls crypto isUnix files) d = some (t, .ok found) ∧
          Holds tls crypto found t := fun files hnodup hthere => by
    obtain ⟨t, hrun⟩ := run_regenerate now isUnix hfits hnodup hthere
    exact ⟨t, identity, hrun⟩
  cases hcert : d (.identity .cert) with
  | some certificateDer =>
    cases hkey : d (.identity .key) with
    | some privateKeyDer =>
      dsimp only
      rw [resolve]
      cases hpair : fromDer tls crypto certificateDer privateKeyDer with
      | ok found => exact ⟨d, found, rfl, holds_of_fromDer hpair hcert hkey⟩
      | error error =>
        dsimp only
        rw [if_pos (fromDer_error hpair)]
        refine hmade _ (by decide) fun file _ => ?_
        cases file with
        | cert => rw [hcert]; rfl
        | key => rw [hkey]; rfl
    | none =>
      refine hmade [.cert] (by decide) fun file hfile => ?_
      obtain rfl := List.mem_singleton.mp hfile
      rw [hcert]
      rfl
  | none =>
    cases hkey : d (.identity .key) with
    | some privateKeyDer =>
      refine hmade [.key] (by decide) fun file hfile => ?_
      obtain rfl := List.mem_singleton.mp hfile
      rw [hkey]
      rfl
    | none => exact hmade [] (by decide) (by rintro file ⟨⟩)

end Faultless

section Keep

open Program

/-- The bytes are in the file still, or in one of its name that was put aside. -/
def Keeps (file : IdentityFile) (contents : List UInt8) (d : Disk) : Prop :=
  d (.identity file) = some contents ∨ ∃ stamp, d (.quarantined file stamp) = some contents

/-- No file was put aside at the time. -/
def FreshStamp (d : Disk) (stamp : ℕ) : Prop := ∀ file, d (.quarantined file stamp) = none

/-- The operation does not touch files that were put aside. -/
def Spares : IdentityOp → Prop
  | .write name _ | .remove name => ∀ file stamp, name ≠ .quarantined file stamp
  | .rename source target =>
    ∀ file stamp, source ≠ .quarantined file stamp ∧ target ≠ .quarantined file stamp
  | _ => True

theorem uses_andThen {α β : Type} {allowed : IdentityOp → Prop} {task : Task α}
    {next : α → Task β} (h : Uses allowed task) (hnext : ∀ result, Uses allowed (next result)) :
    Uses allowed (andThen task next) := by
  refine h.bind fun answer => ?_
  cases answer with
  | error error => trivial
  | ok result => exact hnext result

theorem saveFile_spares (file : IdentityFile) (contents : List UInt8) :
    Uses Spares (saveFile file contents) := by
  refine uses_andThen ⟨trivial, fun _ => trivial⟩ fun _ => ?_
  refine uses_andThen ⟨by rintro file stamp ⟨⟩, fun _ => trivial⟩ fun _ => ?_
  exact ⟨fun file stamp => ⟨by rintro ⟨⟩, by rintro ⟨⟩⟩, fun _ => trivial⟩

theorem generate_spares : Uses Spares (generate tls crypto isUnix) := by
  refine ⟨trivial, ?_⟩
  rintro (error | ⟨certificateDer, privateKeyDer⟩)
  · trivial
  refine uses_andThen (uses_andThen (saveFile_spares _ _) fun _ => ?_) fun _ => ?_
  · split
    · exact ⟨trivial, fun _ => trivial⟩
    · trivial
  · refine (saveFile_spares .cert certificateDer).bind ?_
    rintro (error | ⟨⟩)
    · exact ⟨by rintro file stamp ⟨⟩, fun _ => trivial⟩
    · trivial

theorem cutOff_aside {name : FileName} {bytes : List UInt8} {stamp : ℕ}
    (h : d.CutOff name bytes t) (hne : name ≠ .quarantined file stamp) :
    t (.quarantined file stamp) = d (.quarantined file stamp) := by
  obtain rfl | ⟨n, rfl⟩ := h
  · rfl
  · exact Function.update_of_ne hne.symm _ _

theorem renamed_aside {source target : FileName} {stamp : ℕ} (h : d.Renamed source target t)
    (hne : source ≠ .quarantined file stamp) (hne' : target ≠ .quarantined file stamp) :
    t (.quarantined file stamp) = d (.quarantined file stamp) := by
  obtain ⟨bytes, -, rfl⟩ := h
  rw [Function.update_of_ne hne'.symm, Function.update_of_ne hne.symm]

/-- An operation that spares the files put aside leaves them, however it ends. -/
theorem serves_aside {op : IdentityOp} {answer : op.Answer} (hspares : Spares op)
    (h : d.Serves clock generated op answer t) (file : IdentityFile) (stamp : ℕ) :
    t (.quarantined file stamp) = d (.quarantined file stamp) := by
  have hsame : t = d → t (.quarantined file stamp) = d (.quarantined file stamp) := by
    rintro rfl
    rfl
  cases op with
  | read name => exact hsame (serves_read h).1
  | createParent | setPermissions _ _ => exact hsame h
  | readClock => exact hsame h.1
  | write name bytes =>
    cases answer with
    | ok =>
      obtain rfl : t = Function.update d name (some bytes) := h
      exact Function.update_of_ne (hspares file stamp).symm _ _
    | error error => exact cutOff_aside h (hspares file stamp)
  | rename source target =>
    cases answer with
    | ok => exact renamed_aside h (hspares file stamp).1 (hspares file stamp).2
    | error error => exact hsame h
  | remove name =>
    cases answer with
    | ok =>
      obtain rfl : t = Function.update d name none := h
      exact Function.update_of_ne (hspares file stamp).symm _ _
    | error error => exact hsame h
  | generatePair =>
    cases answer with
    | ok pair => exact hsame h.1
    | error error => exact hsame h

/-- So does a kill in the middle of it. -/
theorem tears_aside {op : IdentityOp} (hspares : Spares op) (h : d.Tears op t)
    (file : IdentityFile) (stamp : ℕ) :
    t (.quarantined file stamp) = d (.quarantined file stamp) := by
  have hsame : t = d → t (.quarantined file stamp) = d (.quarantined file stamp) := by
    rintro rfl
    rfl
  cases op with
  | write name bytes => exact cutOff_aside h (hspares file stamp)
  | rename source target =>
    exact h.elim hsame fun h => renamed_aside h (hspares file stamp).1 (hspares file stamp).2
  | remove name =>
    obtain rfl | rfl := h
    · rfl
    · exact Function.update_of_ne (hspares file stamp).symm _ _
  | read _ | createParent | setPermissions _ _ | readClock | generatePair => exact hsame h

/-- A pair is made without a change to the files put aside. -/
theorem generate_aside (d : Disk) : Withstands (Disk.service clock generated)
    (fun t => ∀ file stamp, t (.quarantined file stamp) = d (.quarantined file stamp))
    (fun _ _ => True) (generate tls crypto isUnix) d :=
  generate_spares.withstands
    (fun _ _ _ _ hspares hs hserved file stamp =>
      (serves_aside hspares hserved file stamp).trans (hs file stamp))
    (fun _ _ _ hspares hs htorn file stamp =>
      (tears_aside hspares htorn file stamp).trans (hs file stamp)) fun _ _ => rfl

/-- Putting a file aside keeps every file's bytes. -/
theorem keeps_renamed {other : IdentityFile} {stamp : ℕ} (h : Keeps file contents d)
    (hfresh : FreshStamp d stamp)
    (hrenamed : d.Renamed (.identity other) (.quarantined other stamp) t) :
    Keeps file contents t := by
  obtain ⟨bytes, hbytes, rfl⟩ := hrenamed
  obtain hthere | ⟨stamp', haside⟩ := h
  · by_cases heq : file = other
    · subst heq
      obtain rfl := Option.some.inj (hthere.symm.trans hbytes)
      exact .inr ⟨stamp, Function.update_self ..⟩
    · refine .inl ?_
      rw [Function.update_of_ne (by rintro ⟨⟩), Function.update_of_ne (by rintro ⟨⟩; exact heq rfl)]
      exact hthere
  · refine .inr ⟨stamp', ?_⟩
    rw [Function.update_of_ne, Function.update_of_ne (by rintro ⟨⟩)]
    · exact haside
    · rintro ⟨⟩
      cases (hfresh file).symm.trans haside

theorem quarantine_keeps {other : IdentityFile} (h : Keeps file contents d) :
    Withstands (Disk.service FreshStamp generated) (Keeps file contents)
      (fun t answer => answer = .ok () → t (.identity other) = none ∧
        ∀ file, file ≠ other → t (.identity file) = d (.identity file))
      (quarantineIdentityFile other) d := by
  refine ⟨h, by rintro t rfl; exact h, ?_⟩
  rintro stamp t ⟨rfl, hfresh⟩
  refine withstands_call h ?_ ?_
  · rintro t' (rfl | hrenamed)
    · exact h
    · exact keeps_renamed h hfresh hrenamed
  · rintro (error | ⟨⟩) t' hserved
    · obtain rfl : t' = t := hserved
      exact ⟨h, by rintro ⟨⟩⟩
    · refine ⟨keeps_renamed h hfresh hserved, fun _ => ?_⟩
      obtain ⟨bytes, -, rfl⟩ := hserved
      refine ⟨?_, fun file hne => ?_⟩
      · rw [Function.update_of_ne (by rintro ⟨⟩), Function.update_self]
      · rw [Function.update_of_ne (by rintro ⟨⟩),
          Function.update_of_ne (by rintro ⟨⟩; exact hne rfl)]

/-- A pair is made anew only where the old files are put aside. -/
theorem regenerate_keeps {files : List IdentityFile} (h : Keeps file contents d)
    (hmissing : ∀ file, file ∉ files → d (.identity file) = none) :
    Withstands (Disk.service FreshStamp generated) (Keeps file contents) (fun _ _ => True)
      (regenerate tls crypto isUnix files) d := by
  induction files generalizing d with
  | nil =>
    obtain hthere | ⟨stamp, haside⟩ := h
    · cases (hmissing file List.not_mem_nil).symm.trans hthere
    · exact (generate_aside d).mono (fun t ht => .inr ⟨stamp, (ht file stamp).trans haside⟩)
        fun _ _ _ _ => trivial
  | cons other files ih =>
    refine withstands_andThen (quarantine_keeps h) (fun _ _ _ => trivial) ?_
    rintro t ⟨⟩ ht hgone
    obtain ⟨hnone, hothers⟩ := hgone rfl
    refine ih ht fun file' hfile' => ?_
    by_cases heq : file' = other
    · rw [heq]
      exact hnone
    · rw [hothers file' heq]
      exact hmissing file' fun hmem => (List.mem_cons.mp hmem).elim heq hfile'

theorem loadOrCreate_keeps (h : Keeps file contents d) :
    Withstands (Disk.service FreshStamp generated) (Keeps file contents) (fun _ _ => True)
      (loadOrCreate tls crypto isUnix) d := by
  refine loadOrCreate_withstands h fun task hresolves => ?_
  cases hresolves with
  | loaded found _ => exact ⟨h, trivial⟩
  | failed error => exact ⟨h, trivial⟩
  | remade files _ hmissing => exact regenerate_keeps h hmissing

end Keep

section Restarts

open Program

/-- The files of the identity are not touched between two starts. -/
def LeftAlone (d t : Disk) : Prop := ∀ file, t (.identity file) = d (.identity file)

theorem Holds.leftAlone (h : Holds tls crypto identity d) (halone : LeftAlone d t) :
    Holds tls crypto identity t :=
  ⟨(halone .cert).trans h.cert, (halone .key).trans h.key, h.fits⟩

/-- Starts of the PC over the files of its identity. -/
abbrev Starts (clock : Disk → ℕ → Prop) (generated : List UInt8 → List UInt8 → Prop)
    (tls : TlsProvider) (crypto : Crypto) (isUnix : Bool) :
    Disk → List (Option (Except DiskError PcIdentity)) → Disk → Prop :=
  Restarts (Disk.service clock generated) LeftAlone (loadOrCreate tls crypto isUnix)

/-- The identity a start gets, if it does. -/
def got (outcome : Option (Except DiskError PcIdentity)) : Option PcIdentity :=
  outcome.bind Except.toOption

/-- A TLS library that takes any pair. -/
def anyTls : TlsProvider := ⟨fun _ => .ok (), fun _ _ => .ok ()⟩

/-- A pair that is made. -/
def newPair : List UInt8 × List UInt8 := ([1], [2])

/-- The identity of this pair. -/
def newIdentity : PcIdentity := ⟨[1], [2], hexDigits [1]⟩

theorem leaves_run {α : Type} {task : Task α} {now : ℕ} {pair : List UInt8 × List UInt8}
    {answer : Except DiskError α} (hclock : ∀ d, clock d now) (hpair : generated pair.1 pair.2)
    (h : run now pair task d = some (t, answer)) :
    Leaves (Disk.service clock generated) task d (some answer) t := by
  refine leaves_of_runAlone (fun s op u answer hexecute => ?_) h
  obtain ⟨rfl, rfl⟩ := Prod.mk.inj (Option.some.inj hexecute)
  exact Disk.serves_faultless (hclock s) hpair op

/-- On an empty disk the first start is killed, the second one makes an identity and the third
one loads it. -/
theorem starts_newIdentity : ∃ t, Starts (fun _ _ => True) (fun _ _ => True) anyTls hexCrypto true
    (fun _ => none) [none, some (.ok newIdentity), some (.ok newIdentity)] t := by
  have hfits : fromDer anyTls hexCrypto newPair.1 newPair.2 = .ok newIdentity := rfl
  obtain ⟨t, hmade, hholds⟩ : ∃ t, run 5 newPair (loadOrCreate anyTls hexCrypto true)
      (fun _ => none) = some (t, .ok newIdentity) ∧ Holds anyTls hexCrypto newIdentity t :=
    run_regenerate 5 true hfits List.nodup_nil (by rintro file ⟨⟩)
  have hloaded := run_of_holds 5 newPair true hholds
  have hsecond : Leaves (Disk.service (fun _ _ => True) fun _ _ => True) _ _ _ _ :=
    leaves_run (fun _ => trivial) trivial hmade
  have hthird : Leaves (Disk.service (fun _ _ => True) fun _ _ => True) _ _ _ _ :=
    leaves_run (fun _ => trivial) trivial hloaded
  exact ⟨t, .again (fun _ => rfl) .crashed (.again (fun _ => rfl) hsecond
    (.again (fun _ => rfl) hthird .never))⟩

/-- Whatever is on the disk first, whichever operations fail and wherever the process is killed:
all starts that get an identity get the same one. -/
theorem identities_agree {outcomes : List (Option (Except DiskError PcIdentity))}
    (h : Starts clock generated tls crypto isUnix d outcomes t) :
    outcomes.Pairwise fun outcome outcome' => ∀ identity identity',
      got outcome = some identity → got outcome' = some identity' → identity' = identity :=
  Restarts.agree (K := Holds tls crypto) (fun _ _ _ hholds => hholds.leftAlone)
    loadOrCreate_holds (fun _ _ => loadOrCreate_of_holds) h

theorem identities_agree_newIdentity : ∃ t, Starts (fun _ _ => True) (fun _ _ => True) anyTls
      hexCrypto true (fun _ => none) [none, some (.ok newIdentity), some (.ok newIdentity)] t ∧
    [none, some (.ok newIdentity), some (.ok newIdentity)].Pairwise fun outcome outcome' =>
      ∀ identity identity', got outcome = some identity → got outcome' = some identity' →
        identity' = identity := by
  obtain ⟨t, h⟩ := starts_newIdentity
  exact ⟨t, h, identities_agree h⟩

/-- No certificate and no key is ever lost: what was in a file of the identity before any starts is
there after them, or under a name of its own. -/
theorem contents_kept {outcomes : List (Option (Except DiskError PcIdentity))}
    (h : Restarts (Disk.service FreshStamp generated)
      (fun d t => LeftAlone d t ∧ ∀ file stamp, t (.quarantined file stamp) =
        d (.quarantined file stamp)) (loadOrCreate tls crypto isUnix) d outcomes t)
    (hthere : d (.identity file) = some contents) : Keeps file contents t := by
  refine (Restarts.invariant (ψ := fun _ => True) (fun s t hs hbetween => ?_)
    (fun _ => loadOrCreate_keeps) h (.inl hthere)).1
  obtain hs | ⟨stamp, hs⟩ := hs
  · exact .inl ((hbetween.1 file).trans hs)
  · exact .inr ⟨stamp, (hbetween.2 file stamp).trans hs⟩

/-- A disk with a private key and no certificate. -/
def keyOnly : Disk := fun name => if name = .identity .key then some [7] else none

/-- The key alone is put aside. -/
def keyAside : Disk :=
  Function.update (Function.update keyOnly (.identity .key) none) (.quarantined .key 5) (some [7])

/-- A directory in which no two files are put aside at one time. -/
def freshService : Service Disk IdentityOp IdentityOp.Answer :=
  Disk.service FreshStamp fun _ _ => True

/-- The PC is killed as soon as the key is put aside. -/
theorem leaves_keyAside :
    Leaves freshService (loadOrCreate anyTls hexCrypto true) keyOnly none keyAside := by
  have hcert : freshService.serves keyOnly (.read (.identity .cert)) (.error ⟨.notFound, ""⟩)
      keyOnly := ⟨rfl, fun _ => rfl⟩
  have hkey : freshService.serves keyOnly (.read (.identity .key)) (.ok [7]) keyOnly := ⟨rfl, rfl⟩
  have hclock : freshService.serves keyOnly .readClock (5 : ℕ) keyOnly := ⟨rfl, fun _ => rfl⟩
  have hkilled : freshService.tears keyOnly (.rename (.identity .key) (.quarantined .key 5))
      keyAside := .inr ⟨[7], rfl, rfl⟩
  exact .served hcert (.served hkey (.served hclock (.torn hkilled)))

theorem contents_kept_keyAside : keyAside (.identity .key) = none ∧ Keeps .key [7] keyAside :=
  ⟨rfl, contents_kept (.again ⟨fun _ => rfl, fun _ _ => rfl⟩ leaves_keyAside .never) rfl⟩

/-- Whatever the starts before it have come to, a start without faults gets an identity, and none
but the one any of them got. -/
theorem start_recovers {outcomes : List (Option (Except DiskError PcIdentity))} {now : ℕ}
    {pair : List UInt8 × List UInt8}
    (h : Starts clock generated tls crypto isUnix d outcomes t)
    (hfits : fromDer tls crypto pair.1 pair.2 = .ok identity) :
    ∃ t' found, run now pair (loadOrCreate tls crypto isUnix) t = some (t', .ok found) ∧
      Holds tls crypto found t' ∧
      ∀ outcome ∈ outcomes, ∀ identity', got outcome = some identity' → identity' = found := by
  obtain ⟨t', found, hrun, hholds⟩ := run_recovers now isUnix hfits t
  refine ⟨t', found, hrun, hholds, fun outcome houtcome identity' hgot => ?_⟩
  obtain ⟨answer, rfl, hanswer⟩ := Option.bind_eq_some_iff.mp hgot
  have hkept : Holds tls crypto identity' t :=
    Restarts.kept (K := Holds tls crypto) (fun _ _ _ hholds => hholds.leftAlone)
      loadOrCreate_holds
      (fun _ _ hholds => (loadOrCreate_of_holds hholds).mono (fun _ h => h) fun _ _ _ _ => trivial)
      h houtcome hanswer
  have hsame := (run_of_holds now pair isUnix hkept).symm.trans hrun
  exact Except.ok.inj (Prod.mk.inj (Option.some.inj hsame)).2

theorem start_recovers_newIdentity : ∃ t, ∃ t' found,
    run 6 ([3], [4]) (loadOrCreate anyTls hexCrypto true) t = some (t', .ok found) ∧
      Holds anyTls hexCrypto found t' ∧
      ∀ outcome ∈ [none, some (.ok newIdentity), some (.ok newIdentity)], ∀ identity',
        got outcome = some identity' → identity' = found := by
  obtain ⟨t, h⟩ := starts_newIdentity
  exact ⟨t, start_recovers h
    (rfl : fromDer anyTls hexCrypto [3] [4] = .ok ⟨[3], [4], hexDigits [3]⟩)⟩

end Restarts

end PcIdentity

end Gemacast.Control
