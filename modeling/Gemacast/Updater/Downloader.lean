import Gemacast.Core.FileSystem
import Gemacast.Control.DeviceAuth
import Gemacast.Updater.Manifest

/-!
# Downloading an artifact

The bytes received are written to a file and hashed on the way; at the end the digest of
what was received is compared with the checksum of the manifest. The file itself is not read
again. What the disk answers comes from outside.
-/

namespace Gemacast.Updater

open Gemacast.Core Gemacast.Control

/-- A file open for writing. -/
structure File where
  /-- The file. -/
  inode : ℕ
  /-- Where the next byte goes. -/
  cursor : ℕ
  deriving DecidableEq, Repr

/-- Write all bytes, or fail after some of them. -/
def File.writeAll (file : File) (fs : FileSystem) (chunk : List UInt8)
    (failure : Option (ℕ × String)) : FileSystem × Except String File :=
  match failure with
  | none => (fs.write file.inode file.cursor chunk,
      .ok { file with cursor := file.cursor + chunk.length })
  | some (written, source) =>
    (fs.write file.inode file.cursor (chunk.take written), .error source)

/-- An artifact on its way to the disk. -/
structure DownloadedArtifact where
  /-- The path of the file. -/
  destination : String
  /-- The file. -/
  file : File
  /-- The bytes hashed. -/
  checksum : List UInt8
  /-- How many bytes have been written. -/
  bytesWritten : ℕ
  deriving DecidableEq, Repr

namespace DownloadedArtifact

/-- Open the file of an artifact. -/
def create (fs : FileSystem) (destination : String) (failure : Option String) :
    Except UpdaterError (FileSystem × DownloadedArtifact) :=
  match failure with
  | some source => .error (.createUpdateFile destination source)
  | none =>
    match fs.create destination with
    | none => .error (.createUpdateFile destination "Is a directory")
    | some (fs, inode) => .ok (fs, ⟨destination, ⟨inode, 0⟩, [], 0⟩)

/-- Write bytes received, and hash them. -/
def append (a : DownloadedArtifact) (fs : FileSystem) (chunk : List UInt8)
    (failure : Option (ℕ × String)) : FileSystem × Except UpdaterError DownloadedArtifact :=
  match a.file.writeAll fs chunk failure with
  | (fs, .error source) => (fs, .error (.writeUpdateFile a.destination source))
  | (fs, .ok file) =>
    (fs, .ok { a with
      file, checksum := a.checksum ++ chunk, bytesWritten := a.bytesWritten + chunk.length })

/-- Wait until the file is on the disk. -/
def synchronize (a : DownloadedArtifact) (failure : Option String) : Except UpdaterError ℕ :=
  match failure with
  | some source => .error (.syncUpdateFile a.destination source)
  | none => .ok a.bytesWritten

/-- Compare the digest of what was received; if it is another one, try to remove the file. -/
def verifyChecksum (crypto : Crypto) (a : DownloadedArtifact) (fs : FileSystem)
    (expectedChecksum : String) (removable : Bool) : FileSystem × Except UpdaterError Unit :=
  let actualChecksum := crypto.hexEncode (crypto.sha256 a.checksum)
  if EqIgnoreAsciiCase actualChecksum expectedChecksum then (fs, .ok ())
  else (if removable then fs.remove a.destination else fs,
    .error (.checksumMismatch a.destination expectedChecksum actualChecksum))

/-- The file at the destination is the one open, and holds the bytes hashed. -/
structure Intact (a : DownloadedArtifact) (fs : FileSystem) : Prop where
  /-- The path names the file. -/
  entry : fs.entry a.destination = some (.file a.file.inode)
  /-- The file holds what was hashed. -/
  contents : fs.contents a.file.inode = a.checksum
  /-- The next byte goes to its end. -/
  cursor : a.file.cursor = a.checksum.length

variable {crypto : Crypto} {a a' : DownloadedArtifact} {fs fs' : FileSystem}
  {chunk : List UInt8} {path expected : String} {removable : Bool}

/-- An intact file reads as the bytes hashed. -/
theorem Intact.read (h : a.Intact fs) : fs.read a.destination = some a.checksum := by
  rw [FileSystem.read_of_entry h.entry, h.contents]

/-- What leaves the destination as it was leaves an intact file intact. -/
theorem Intact.of_sameAt (h : a.Intact fs) (hsame : fs.SameAt fs' a.destination) :
    a.Intact fs' := by
  have hentry : fs'.entry a.destination = some (.file a.file.inode) := hsame.1.trans h.entry
  refine ⟨hentry, ?_, h.cursor⟩
  have hread : fs'.read a.destination = some a.checksum := hsame.2.trans h.read
  rw [FileSystem.read_of_entry hentry] at hread
  exact Option.some.inj hread

/-- A file just opened is intact, and no other path is touched. -/
theorem create_intact {failure : Option String} (h : create fs path failure = .ok (fs', a)) :
    a.Intact fs' ∧ a.destination = path ∧ ∀ path', path' ≠ path → fs.SameAt fs' path' := by
  unfold create at h
  split at h
  · cases h
  split at h
  · cases h
  next opened inode hcreate =>
  obtain ⟨rfl, rfl⟩ := Prod.mk.inj (Except.ok.inj h)
  obtain ⟨hentry, hempty⟩ := FileSystem.entry_create hcreate
  exact ⟨⟨hentry, hempty, rfl⟩, rfl, fun path' hne => FileSystem.sameAt_create hcreate hne⟩

/-- Writing touches no path but that of the file. -/
theorem append_sameAt {failure : Option (ℕ × String)} (h : a.Intact fs) {path' : String}
    (hne : path' ≠ a.destination) : fs.SameAt (a.append fs chunk failure).1 path' := by
  have hother : fs.entry path' ≠ some (.file a.file.inode) := fun hfile =>
    hne (fs.injective path' a.destination _ hfile h.entry)
  cases failure with
  | none => exact FileSystem.sameAt_write _ hother
  | some failure => exact FileSystem.sameAt_write _ hother

/-- A file that was written to is intact. -/
theorem append_intact {failure : Option (ℕ × String)} (h : a.Intact fs)
    (hok : (a.append fs chunk failure).2 = .ok a') :
    a'.Intact (a.append fs chunk failure).1 ∧ a'.destination = a.destination := by
  cases failure with
  | some failure => cases hok
  | none =>
    obtain rfl := Except.ok.inj hok
    have hlength : (fs.contents a.file.inode).length = a.file.cursor := by
      rw [h.contents, h.cursor]
    refine ⟨⟨h.entry, ?_, ?_⟩, rfl⟩
    · refine (FileSystem.contents_write_length hlength).trans ?_
      rw [h.contents]
    · rw [List.length_append, ← h.cursor]

/-- Verifying touches no path but that of the file, which it removes unless the digest is the
one expected. -/
theorem verifyChecksum_sameAt {path' : String} (hne : path' ≠ a.destination) :
    fs.SameAt (a.verifyChecksum crypto fs expected removable).1 path' := by
  unfold verifyChecksum
  dsimp only
  split
  · exact .refl
  · split
    · exact FileSystem.sameAt_remove hne
    · exact .refl

/-- A file verified holds bytes with the digest expected. -/
theorem verifyChecksum_ok (h : (a.verifyChecksum crypto fs expected removable).2 = .ok ()) :
    (a.verifyChecksum crypto fs expected removable).1 = fs ∧
      EqIgnoreAsciiCase (crypto.hexEncode (crypto.sha256 a.checksum)) expected := by
  unfold verifyChecksum at h ⊢
  dsimp only at h ⊢
  split at h
  · next heq => exact ⟨by rw [if_pos heq], heq⟩
  · cases h

/-- Another digest than the one expected is refused; what cannot be removed stays. -/
theorem verifyChecksum_error {error : UpdaterError}
    (h : (a.verifyChecksum crypto fs expected removable).2 = .error error) :
    ¬EqIgnoreAsciiCase (crypto.hexEncode (crypto.sha256 a.checksum)) expected ∧
      (removable = false → (a.verifyChecksum crypto fs expected removable).1 = fs) := by
  unfold verifyChecksum at h ⊢
  dsimp only at h ⊢
  split at h
  · cases h
  · next hne =>
    refine ⟨hne, ?_⟩
    rintro rfl
    rw [if_neg hne]
    rfl

end DownloadedArtifact

end Gemacast.Updater
