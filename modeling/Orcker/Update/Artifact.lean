import Orcker.Base.Lines
import Orcker.Update.Select

/-!
# The artifact of a release

A release's files are told apart by their names alone. The hash is a parameter, as is the signature
check where it is called.
-/

namespace Orcker.Update

open Base

inductive Platform where
  | macOsAarch64
  | macOsX8664
  | linuxX8664
  | linuxAarch64
  | unsupported
  deriving DecidableEq

inductive ArtifactKind where
  | appTarGz
  | deb
  | pacman
  | rpm
  deriving DecidableEq

inductive PkgFormat where
  | deb
  | pacman
  | rpm
  deriving DecidableEq

/-- What is downloaded of a release. -/
structure ArtifactSelection where
  artifact : Asset
  signature : Asset
  checksums : Asset
  kind : ArtifactKind
  deriving DecidableEq

inductive AssetError where
  | noArtifactForPlatform (platform : Platform)
  | missingSignature (name : Str)
  | missingChecksums
  deriving DecidableEq

inductive VerifyError where
  | checksumMismatch
  | checksumMissing
  | badPublicKey
  | badSignature
  | signatureMismatch
  deriving DecidableEq

def Platform.debug : Platform → Str
  | .macOsAarch64 => "MacOsAarch64"
  | .macOsX8664 => "MacOsX86_64"
  | .linuxX8664 => "LinuxX86_64"
  | .linuxAarch64 => "LinuxAarch64"
  | .unsupported => "Unsupported"

def AssetError.display : AssetError → Str
  | .noArtifactForPlatform p => "no self-update artifact published for " ++ p.debug
  | .missingSignature name => "missing signature for " ++ name
  | .missingChecksums => "release has no SHA256SUMS manifest"

def VerifyError.display : VerifyError → Str
  | .checksumMismatch => "artifact SHA-256 does not match SHA256SUMS"
  | .checksumMissing => "artifact not listed in SHA256SUMS"
  | .badPublicKey => "embedded update public key is invalid"
  | .badSignature => "artifact signature is malformed"
  | .signatureMismatch => "artifact signature does not verify"

/-- A file with the extension whose name has one of the architecture's tags. -/
def isArtifact (ext : Str) (tags : List Str) (name : Str) : Bool :=
  ext.isSuffixOf name && tags.any (containsStr name)

def x8664Tags : List Str := ["x86_64", "amd64"]

def aarch64Tags : List Str := ["aarch64", "arm64"]

def isMacosAarch64Artifact : Str → Bool :=
  isArtifact ".app.tar.gz" ("AppleSilicon" :: aarch64Tags)

def isLinuxX8664Artifact : Str → Bool := isArtifact ".deb" x8664Tags

def isLinuxX8664Pacman : Str → Bool := isArtifact ".pkg.tar.zst" x8664Tags

def isLinuxX8664Rpm : Str → Bool := isArtifact ".rpm" x8664Tags

-- the published names have a capital "Arm64", so these look at the lowercase name
def isLinuxAarch64Artifact (name : Str) : Bool := isArtifact ".deb" aarch64Tags (lower name)

def isLinuxAarch64Pacman (name : Str) : Bool := isArtifact ".pkg.tar.zst" aarch64Tags (lower name)

def isLinuxAarch64Rpm (name : Str) : Bool := isArtifact ".rpm" aarch64Tags (lower name)

/-- The kind of artifact a platform and a package format install, and which names are such. -/
def artifactFor : Platform → PkgFormat → Option (ArtifactKind × (Str → Bool))
  | .macOsAarch64, _ => some (.appTarGz, isMacosAarch64Artifact)
  | .linuxX8664, .deb => some (.deb, isLinuxX8664Artifact)
  | .linuxX8664, .pacman => some (.pacman, isLinuxX8664Pacman)
  | .linuxAarch64, .deb => some (.deb, isLinuxAarch64Artifact)
  | .linuxAarch64, .pacman => some (.pacman, isLinuxAarch64Pacman)
  | .linuxX8664, .rpm => some (.rpm, isLinuxX8664Rpm)
  | .linuxAarch64, .rpm => some (.rpm, isLinuxAarch64Rpm)
  | .macOsX8664, _ | .unsupported, _ => none

variable {V : Type}

/-- The artifact, its `.minisig` (or else its `.sig`) and the checksums of a release. -/
def selectAsset (release : ReleaseMeta V) (platform : Platform) (format : PkgFormat) :
    Except AssetError ArtifactSelection := do
  let some (kind, isMatch) := artifactFor platform format
    | .error (.noArtifactForPlatform platform)
  let some artifact := release.assets.find? fun a => isMatch a.name
    | .error (.noArtifactForPlatform platform)
  let some signature := (release.assets.find? fun a => a.name == artifact.name ++ ".minisig").or
      (release.assets.find? fun a => a.name == artifact.name ++ ".sig")
    | .error (.missingSignature artifact.name)
  let some checksums := release.assets.find? fun a => a.name == "SHA256SUMS".toList
    | .error .missingChecksums
  .ok { artifact, signature, checksums, kind }

/-- The hash one line of `SHA256SUMS` gives for the file. -/
def sha256Line (filename line : Str) : Option Str :=
  match splitWhitespace line with
  | hex :: name :: _ =>
    let name := (name.dropPrefix? ['*']).getD name
    let name := (name.dropPrefix? "./").getD name
    if name = filename then some hex else none
  | _ => none

/-- The first line that lists the file. -/
def sha256For (sums filename : Str) : Option Str := (lines sums).findSome? (sha256Line filename)

/-- The bytes have the checksum that is listed. -/
def verifySha256 (sha256Hex : Bytes → Str) (bytes : Bytes) (sums filename : Str) :
    Except VerifyError Unit :=
  match sha256For sums filename with
  | none => .error .checksumMissing
  | some expected =>
    if lower (sha256Hex bytes) = lower expected then .ok () else .error .checksumMismatch

theorem verifySha256_eq_ok_iff {sha256Hex : Bytes → Str} {bytes : Bytes} {sums filename : Str} :
    verifySha256 sha256Hex bytes sums filename = .ok () ↔
      ∃ hex, sha256For sums filename = some hex ∧ lower (sha256Hex bytes) = lower hex := by
  unfold verifySha256
  cases sha256For sums filename with
  | none => simp
  | some hex =>
    show (if _ then _ else _) = _ ↔ _
    split_ifs with h <;> simp [h]

variable {platform : Platform} {format : PkgFormat} {name : Str}

theorem selectAsset_spec {release : ReleaseMeta V} {sel : ArtifactSelection}
    (h : selectAsset release platform format = .ok sel) :
    ∃ isMatch, artifactFor platform format = some (sel.kind, isMatch) ∧
      isMatch sel.artifact.name = true := by
  unfold selectAsset at h
  split at h
  · next kind isMatch hkind =>
    split at h
    · next artifact hartifact =>
      split at h
      · split at h
        · cases h
          exact ⟨isMatch, hkind, List.find?_some (p := fun a : Asset => isMatch a.name)
            hartifact⟩
        · cases h
      · cases h
    · cases h
  · cases h

theorem extension_of_isArtifact {ext : Str} {tags : List Str}
    (h : isArtifact ext tags name = true) : ext <:+ name := by
  rw [isArtifact, Bool.and_eq_true] at h
  exact List.isSuffixOf_iff_suffix.1 h.1

def extensions : List Str :=
  [".app.tar.gz", ".deb", ".pkg.tar.zst", ".rpm"]

theorem exists_extension {kind : ArtifactKind} {isMatch : Str → Bool}
    (h : artifactFor platform format = some (kind, isMatch)) (hname : isMatch name = true) :
    ∃ ext ∈ extensions, ext <:+ lower name := by
  have hlower : ∀ ext : Str, lower ext = ext → ext <:+ name → ext <:+ lower name := by
    intro ext hext hend
    rw [← hext]
    exact hend.map Char.toLower
  unfold artifactFor at h
  split at h <;> cases h
  · exact ⟨".app.tar.gz", by decide, hlower _ (by decide) (extension_of_isArtifact hname)⟩
  · exact ⟨".deb", by decide, hlower _ (by decide) (extension_of_isArtifact hname)⟩
  · exact ⟨".pkg.tar.zst", by decide, hlower _ (by decide) (extension_of_isArtifact hname)⟩
  · exact ⟨".deb", by decide, extension_of_isArtifact hname⟩
  · exact ⟨".pkg.tar.zst", by decide, extension_of_isArtifact hname⟩
  · exact ⟨".rpm", by decide, hlower _ (by decide) (extension_of_isArtifact hname)⟩
  · exact ⟨".rpm", by decide, extension_of_isArtifact hname⟩

theorem getLast?_of_extension {ext : Str} (hext : ext ∈ extensions) (h : ext <:+ lower name) :
    ∃ c, name.getLast? = some c ∧ c ≠ '/' ∧ c ≠ '.' := by
  have hletter : ∀ ext ∈ extensions, ∃ c, ext.getLast? = some c ∧ c ≠ '/' ∧ c ≠ '.' := by
    unfold extensions
    simp
  obtain ⟨c, hc, hslash, hdot⟩ := hletter ext hext
  have hlast : (lower name).getLast? = some c := by
    obtain ⟨front, hfront⟩ := h
    rw [← hfront, List.getLast?_append, hc, Option.some_or]
  rw [lower, List.getLast?_map, Option.map_eq_some_iff] at hlast
  obtain ⟨d, hd, rfl⟩ := hlast
  refine ⟨d, hd, ?_, ?_⟩
  · rintro rfl
    exact hslash rfl
  · rintro rfl
    exact hdot rfl

end Orcker.Update
