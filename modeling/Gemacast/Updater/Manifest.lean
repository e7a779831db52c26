import Gemacast.Core.Table
import Gemacast.Control.Ascii

/-!
# The manifest of a release

The manifest names a version and, for each platform, an artifact with its checksum. An
update is on offer if the version is newer than the one installed and the checksum is well
formed. How versions are parsed and ordered is a library's and comes as a parameter.
-/

namespace Gemacast.Updater

open Gemacast.Core Gemacast.Control

/-- Semantic versions. -/
structure Semver where
  /-- A parsed version. -/
  Version : Type
  /-- Parse a version, or tell why the text is none. -/
  parse : String → Except String Version
  /-- The order of precedence. -/
  le : Version → Version → Bool

/-- Why a check or a download fails; `source` is the text of the cause. -/
inductive UpdaterError
  | invalidCurrentVersion (version source : String)
  | invalidManifestVersion (version source : String)
  | manifestRequestFailed (source : String)
  | manifestHttpStatus (status source : String)
  | manifestBodyReadFailed (source : String)
  | manifestParseFailed (source : String)
  | platformNotPublished (platformKey : String)
  | missingChecksum (platformKey : String)
  | malformedChecksum (platformKey : String) (length expectedLength : ℕ)
  | artifactRequestFailed (source : String)
  | artifactHttpStatus (status source : String)
  | artifactStreamFailed (source : String)
  | createUpdateFile (path source : String)
  | writeUpdateFile (path source : String)
  | syncUpdateFile (path source : String)
  | checksumMismatch (path expected actual : String)
  deriving DecidableEq, Repr

/-- What is shown of an error. -/
def UpdaterError.text : UpdaterError → String
  | .invalidCurrentVersion version _ => "invalid current version '" ++ version ++ "'"
  | .invalidManifestVersion version _ =>
    "invalid version '" ++ version ++ "' in updater manifest"
  | .manifestRequestFailed _ => "failed to fetch updater manifest"
  | .manifestHttpStatus status _ =>
    "updater manifest request failed with HTTP status " ++ status
  | .manifestBodyReadFailed _ => "failed to read updater manifest body"
  | .manifestParseFailed _ => "failed to parse updater manifest"
  | .platformNotPublished platformKey =>
    "no update is published for platform '" ++ platformKey ++ "'"
  | .missingChecksum platformKey =>
    "updater manifest entry for '" ++ platformKey ++ "' carries no sha256 digest"
  | .malformedChecksum platformKey length expectedLength =>
    "updater manifest entry for '" ++ platformKey ++ "' has a malformed sha256 digest (" ++
      toString length ++ " chars, expected " ++ toString expectedLength ++ " hex digits)"
  | .artifactRequestFailed _ => "failed to request update artifact"
  | .artifactHttpStatus status _ =>
    "update artifact request failed with HTTP status " ++ status
  | .artifactStreamFailed _ => "failed to read update artifact stream"
  | .createUpdateFile path _ => "failed to create update file at " ++ path
  | .writeUpdateFile path _ => "failed to write update file at " ++ path
  | .syncUpdateFile path _ => "failed to sync update file at " ++ path
  | .checksumMismatch path expected actual =>
    "sha256 mismatch for " ++ path ++ ": expected " ++ expected ++ ", got " ++ actual

def sha256HexLength : ℕ := 64

/-- An update newer than what is installed. -/
structure AvailableUpdate where
  /-- Its version. -/
  version : String
  /-- Where its artifact is. -/
  downloadUrl : String
  /-- The checksum of the artifact. -/
  sha256 : String
  deriving DecidableEq, Repr

/-- The artifact of a platform. -/
structure PlatformRelease where
  /-- Where it is. -/
  url : String
  /-- Its checksum. -/
  sha256 : Option String
  deriving DecidableEq, Repr

/-- What the server publishes. -/
structure ReleaseManifest where
  /-- The version released. -/
  version : String
  /-- The artifacts by platform. -/
  platforms : Table String PlatformRelease

/-- White space, as Unicode defines it. -/
def isWhitespace (c : Char) : Bool :=
  let n := c.toNat
  (9 ≤ n && n ≤ 13) || n = 0x20 || n = 0x85 || n = 0xA0 || n = 0x1680 ||
    (0x2000 ≤ n && n ≤ 0x200A) || n = 0x2028 || n = 0x2029 || n = 0x202F || n = 0x205F ||
    n = 0x3000

/-- The characters without white space at either end. -/
def trim (s : String) : List Char :=
  ((s.toList.dropWhile isWhitespace).reverse.dropWhile isWhitespace).reverse

/-- A hexadecimal digit. -/
def isAsciiHexdigit (c : Char) : Bool :=
  ('0' ≤ c && c ≤ '9') || ('a' ≤ c && c ≤ 'f') || ('A' ≤ c && c ≤ 'F')

/-- The checksum of a platform in lower case, if it is one. -/
def PlatformRelease.verifiedChecksum (release : PlatformRelease) (platformKey : String) :
    Except UpdaterError String :=
  let checksum := trim (release.sha256.getD "")
  let length := (checksum.map Char.utf8Size).sum
  if checksum = [] then .error (.missingChecksum platformKey)
  else if length ≠ sha256HexLength ∨ checksum.all isAsciiHexdigit = false then
    .error (.malformedChecksum platformKey length sha256HexLength)
  else .ok (asciiLower (String.ofList checksum))

/-- The update a manifest offers, if it is newer than what is installed. -/
def ReleaseManifest.newerReleaseFor (semver : Semver) (manifest : ReleaseManifest)
    (installedVersion : semver.Version) (platformKey : String) :
    Except UpdaterError (Option AvailableUpdate) :=
  match semver.parse manifest.version with
  | .error source => .error (.invalidManifestVersion manifest.version source)
  | .ok releaseVersion =>
    if semver.le releaseVersion installedVersion then .ok none
    else
      match manifest.platforms.lookup platformKey with
      | none => .error (.platformNotPublished platformKey)
      | some platformRelease =>
        match platformRelease.verifiedChecksum platformKey with
        | .error error => .error error
        | .ok checksum => .ok (some ⟨manifest.version, platformRelease.url, checksum⟩)

/-- What a check finds: the manifest is fetched after the version installed has been parsed. -/
def findAvailableUpdate (semver : Semver) (currentVersion platformKey : String)
    (fetched : Except UpdaterError ReleaseManifest) :
    Except UpdaterError (Option AvailableUpdate) :=
  match semver.parse currentVersion with
  | .error source => .error (.invalidCurrentVersion currentVersion source)
  | .ok installedVersion =>
    match fetched with
    | .error error => .error error
    | .ok manifest => manifest.newerReleaseFor semver installedVersion platformKey

variable {semver : Semver} {manifest : ReleaseManifest} {installedVersion : semver.Version}
  {release : PlatformRelease} {platformKey checksum : String} {info : AvailableUpdate}

/-- A hexadecimal digit takes one byte. -/
theorem utf8Size_of_hexdigit {c : Char} (h : isAsciiHexdigit c = true) : c.utf8Size = 1 := by
  simp only [isAsciiHexdigit, Bool.or_eq_true, Bool.and_eq_true, decide_eq_true_eq] at h
  rw [Char.utf8Size_eq_one_iff]
  obtain (⟨-, h⟩ | ⟨-, h⟩) | ⟨-, h⟩ := h
  all_goals exact UInt32.le_trans h (by decide)

/-- A checksum accepted consists of 64 characters, letters in lower case. -/
theorem verifiedChecksum_wellFormed (h : release.verifiedChecksum platformKey = .ok checksum) :
    asciiLower checksum = checksum ∧ checksum.toList.length = sha256HexLength := by
  unfold PlatformRelease.verifiedChecksum at h
  dsimp only at h
  split at h
  · cases h
  split at h
  · cases h
  next hwell =>
  obtain rfl := Except.ok.inj h
  rw [not_or, not_not, Bool.not_eq_false, List.all_eq_true] at hwell
  obtain ⟨hlength, hhex⟩ := hwell
  have hones : (trim (release.sha256.getD "")).map Char.utf8Size =
      List.replicate (trim (release.sha256.getD "")).length 1 :=
    List.map_eq_replicate_iff.mpr fun c hc => utf8Size_of_hexdigit (hhex c hc)
  rw [hones, List.sum_replicate_nat, Nat.mul_one] at hlength
  refine ⟨asciiLower_asciiLower _, ?_⟩
  rw [asciiLower, String.toList_ofList, List.length_map, String.toList_ofList, hlength]

/-- An update on offer has a well-formed checksum and the version of the manifest. -/
theorem newerReleaseFor_wellFormed
    (h : manifest.newerReleaseFor semver installedVersion platformKey = .ok (some info)) :
    info.version = manifest.version ∧ asciiLower info.sha256 = info.sha256 := by
  unfold ReleaseManifest.newerReleaseFor at h
  split at h
  · cases h
  split at h
  · cases h
  split at h
  · cases h
  split at h
  · cases h
  next checksum hchecksum =>
  obtain rfl := Option.some.inj (Except.ok.inj h)
  exact ⟨rfl, (verifiedChecksum_wellFormed hchecksum).1⟩

end Gemacast.Updater
