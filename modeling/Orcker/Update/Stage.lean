import Orcker.Base.Path
import Orcker.Base.Fallible
import Orcker.Base.Numeral
import Orcker.Update.Artifact
import Orcker.Update.Manifest

/-!
# Staging an update

Every download is whatever the network answers. A signature binds a file's content, not the version
it was published for, and nothing signs `SHA256SUMS`.
-/

namespace Orcker.Update

open Base List Path

/-- What the daemon is built with and runs on, and what the network and the disk answer. -/
structure StageEnv (V : Type) where
  sv : Semver V
  current : V
  platform : Platform
  format : PkgFormat
  cache : Path
  updateChannel : Str
  publicKey : Str
  verifyMinisign : Str → Str → Bytes → Except VerifyError Unit
  sha256Hex : Bytes → Str
  decodeManifest : Bytes → Option LatestManifest
  debugStr : Str → Str
  /-- The answer to the download of that number and URL. -/
  download : Nat → Str → Except Str Bytes
  createDirAll : Except Str Unit
  /-- Of the artifact, and of its signature. -/
  write : Nat → Except Str Unit

inductive Response (V : Type) where
  | internal (message : Str)
  /-- The version is sent as its text. -/
  | staged (path : Str) (version : V) (kind : ArtifactKind)
  deriving DecidableEq

/-- The texts of the channels. -/
def Channel.parse (s : Str) : Option Channel :=
  if s = "stable" then some .stable
  else if s = "edge" then some .edge
  else none

def latestManifestUrl : Str := "https://files.orcker.app/latest.json"

def latestManifestSigUrl : Str := "https://files.orcker.app/latest.json.minisig"

/-- One plain name, and no other component. -/
def isSafeFilename (name : Str) : Bool :=
  match (Path.ofStr name).components with
  | [.normal _] => true
  | _ => false

namespace StageEnv

variable {V : Type}

/-- The releases of the manifest, once its signature is checked. -/
def fetchReleases (env : StageEnv V) : Option (List (ReleaseMeta V)) := do
  let body ← (env.download 0 latestManifestUrl).toOption
  let sig ← (env.download 1 latestManifestSigUrl).toOption
  (env.verifyMinisign env.publicKey (lossy sig) body).toOption
  let manifest ← env.decodeManifest body
  some (manifestToReleases env.sv manifest)

/-- A file that passed both checks, and its signature. -/
structure Verified (V : Type) where
  version : V
  sel : ArtifactSelection
  artifact : Bytes
  sig : Str

def stagingDir (env : StageEnv V) : Path := env.cache.join "update"

theorem isText_cache_iff {env : StageEnv V} {name : Bytes} (h : slash ∉ name)
    (htext : Path.IsText ⟨name⟩) : (env.stagingDir.join ⟨name⟩).IsText ↔ env.cache.IsText := by
  constructor
  · intro hjoin
    exact (hjoin.of_join (isAbsolute_of_slash_notMem h)).of_join (by decide)
  · intro hcache
    exact (hcache.join ⟨_, rfl⟩).join htext

theorem sigPath_ne (env : StageEnv V) (name : Str) (h : slash ∉ utf8 name) :
    env.stagingDir.join (Path.ofStr (name ++ ".minisig")) ≠
      env.stagingDir.join (Path.ofStr name) := by
  intro heq
  have hsig : slash ∉ utf8 (name ++ ".minisig") := by
    rw [utf8_append, mem_append, not_or]
    exact ⟨h, by decide⟩
  have hlast := congrArg lastPiece heq
  rw [ofStr, ofStr, lastPiece_join h, lastPiece_join hsig, utf8_append] at hlast
  have hlength := congrArg length hlast
  rw [length_append] at hlength
  have : 0 < (utf8 ".minisig").length := by decide
  omega

/-- What was written to the path last. -/
def contentAt (written : List (Path × Bytes)) (path : Path) : Option Bytes :=
  (written.reverse.find? (·.1 = path)).map Prod.snd

theorem contentAt_first {p q : Path} {a b : Bytes} (h : q ≠ p) :
    contentAt [(p, a), (q, b)] p = some a := by
  simp [contentAt, h]

variable [LinearOrder V]

/-- What is to be downloaded, and which version it is said to be. -/
def choose (env : StageEnv V) (channelOverride : Option Channel) :
    Except Str (V × ArtifactSelection) := do
  let channel := channelOverride.getD ((Channel.parse env.updateChannel).getD .stable)
  let some releases := env.fetchReleases
    | .error "could not fetch releases (offline or rate-limited)"
  let some target := (selectTarget env.sv releases channel env.current).target
    | .error "already up to date — nothing to stage"
  let some rel := releases.find? (·.version = target)
    | .error "internal: resolved target release vanished"
  let sel ← (selectAsset rel env.platform env.format).mapError fun e =>
    "no installable artifact: " ++ e.display
  .ok (target, sel)

/-- The artifact, once its signature and checksum have been checked. -/
def fetchVerified (env : StageEnv V) (channelOverride : Option Channel) :
    Except Str (Verified V) := do
  let (version, sel) ← env.choose channelOverride
  let artifact ← (env.download 2 sel.artifact.url).mapError fun e =>
    "artifact download failed: " ++ e
  let sig ← (env.download 3 sel.signature.url).mapError fun e =>
    "signature download failed: " ++ e
  let sums ← (env.download 4 sel.checksums.url).mapError fun e =>
    "checksums download failed: " ++ e
  (verifySha256 env.sha256Hex artifact (lossy sums) sel.artifact.name).mapError fun e =>
    "checksum verification failed: " ++ e.display
  (env.verifyMinisign env.publicKey (lossy sig) artifact).mapError fun e =>
    "signature verification failed: " ++ e.display
  if isSafeFilename sel.artifact.name then .ok ⟨version, sel, artifact, lossy sig⟩
  else .error ("unsafe asset filename: " ++ env.debugStr sel.artifact.name)

/-- The answer, and the files that were written, in order. -/
def stageUpdate (env : StageEnv V) (channelOverride : Option Channel) :
    Response V × List (Path × Bytes) :=
  match env.fetchVerified channelOverride with
  | .error message => (.internal message, [])
  | .ok v =>
    match env.createDirAll with
    | .error e => (.internal ("could not create staging dir: " ++ e), [])
    | .ok () =>
      let path := env.stagingDir.join (Path.ofStr v.sel.artifact.name)
      match env.write 0 with
      | .error e => (.internal ("could not write staged artifact: " ++ e), [])
      | .ok () =>
        let sigPath := env.stagingDir.join (Path.ofStr (v.sel.artifact.name ++ ".minisig"))
        match env.write 1 with
        | .error e => (.internal ("could not write staged signature: " ++ e), [(path, v.artifact)])
        | .ok () => (.staged path.toStringLossy v.version v.sel.kind,
            [(path, v.artifact), (sigPath, utf8 v.sig)])

variable {env : StageEnv V} {channelOverride : Option Channel}

variable {c : V × ArtifactSelection}

theorem choose_spec (h : env.choose channelOverride = .ok c) :
    ∃ releases channel rel, env.fetchReleases = some releases ∧
      (selectTarget env.sv releases channel env.current).target = some c.1 ∧ rel ∈ releases ∧
      rel.version = c.1 ∧ selectAsset rel env.platform env.format = .ok c.2 := by
  unfold choose at h
  split at h
  · next releases hreleases =>
    simp only at h
    split at h
    · next target htarget =>
      split at h
      · next rel hrel =>
        obtain ⟨sel, hasset, hsel⟩ := bind_eq_ok_iff.1 h
        cases hsel
        have hversion := find?_some hrel
        exact ⟨releases, _, rel, hreleases, htarget, mem_of_find?_eq_some hrel,
          of_decide_eq_true hversion, mapError_eq_ok_iff.1 hasset⟩
      · cases h
    · cases h
  · cases h

theorem current_lt_of_choose (h : env.choose channelOverride = .ok c) : env.current < c.1 := by
  obtain ⟨releases, channel, rel, -, htarget, -⟩ := choose_spec h
  exact of_decide_eq_true (Option.filter_eq_some_iff.1 htarget).2

theorem getLast?_of_choose (h : env.choose channelOverride = .ok c) :
    ∃ l, c.2.artifact.name.getLast? = some l ∧ l ≠ '/' ∧ l ≠ '.' := by
  obtain ⟨releases, channel, rel, -, -, -, -, hasset⟩ := choose_spec h
  obtain ⟨isMatch, hkind, hname⟩ := selectAsset_spec hasset
  obtain ⟨ext, hext, hend⟩ := exists_extension hkind hname
  exact getLast?_of_extension hext hend

/-- Every check a verified file passed. -/
structure Passed (env : StageEnv V) (channelOverride : Option Channel) (v : Verified V) : Prop where
  chosen : env.choose channelOverride = .ok (v.version, v.sel)
  sums : ∃ sums hex, env.download 4 v.sel.checksums.url = .ok sums ∧
    sha256For (lossy sums) v.sel.artifact.name = some hex ∧
    lower (env.sha256Hex v.artifact) = lower hex
  signed : env.verifyMinisign env.publicKey v.sig v.artifact = .ok ()
  safe : isSafeFilename v.sel.artifact.name = true

theorem fetchVerified_spec {v : Verified V} (h : env.fetchVerified channelOverride = .ok v) :
    env.Passed channelOverride v := by
  unfold fetchVerified at h
  obtain ⟨⟨version, sel⟩, hchoose, h⟩ := bind_eq_ok_iff.1 h
  obtain ⟨artifact, -, h⟩ := bind_eq_ok_iff.1 h
  obtain ⟨sig, -, h⟩ := bind_eq_ok_iff.1 h
  obtain ⟨sums, hsums, h⟩ := bind_eq_ok_iff.1 h
  obtain ⟨hsha, h⟩ := check_bind_eq_ok_iff.1 h
  obtain ⟨hsigned, h⟩ := check_bind_eq_ok_iff.1 h
  split_ifs at h with hsafe
  cases h
  obtain ⟨hex, hhex, heq⟩ := verifySha256_eq_ok_iff.1 (mapError_eq_ok_iff.1 hsha)
  exact ⟨hchoose, ⟨sums, hex, mapError_eq_ok_iff.1 hsums, hhex, heq⟩,
    mapError_eq_ok_iff.1 hsigned, hsafe⟩

theorem stageUpdate_eq_staged {path : Str} {version : V} {kind : ArtifactKind}
    (h : (env.stageUpdate channelOverride).1 = .staged path version kind) :
    ∃ v, env.fetchVerified channelOverride = .ok v ∧ version = v.version ∧
      path = (env.stagingDir.join (Path.ofStr v.sel.artifact.name)).toStringLossy ∧
      (env.stageUpdate channelOverride).2 =
        [(env.stagingDir.join (Path.ofStr v.sel.artifact.name), v.artifact),
          (env.stagingDir.join (Path.ofStr (v.sel.artifact.name ++ ".minisig")), utf8 v.sig)] := by
  unfold stageUpdate at h ⊢
  split at h
  · cases h
  · next v hv =>
    refine ⟨v, hv, ?_⟩
    split at h
    · cases h
    · simp only at h ⊢
      split at h
      · cases h
      · split at h
        · cases h
        · cases h
          exact ⟨rfl, rfl, rfl⟩

theorem Passed.plain_name {v : Verified V} (h : env.Passed channelOverride v) :
    slash ∉ utf8 v.sel.artifact.name ∧
      Path.bodyComponent (utf8 v.sel.artifact.name) = some (.normal (utf8 v.sel.artifact.name)) := by
  obtain ⟨l, hlast, hslash, hdot⟩ := getLast?_of_choose h.chosen
  obtain ⟨n, hn⟩ : ∃ n, (ofStr v.sel.artifact.name).components = [.normal n] := by
    have hsafe := h.safe
    unfold isSafeFilename at hsafe
    split at hsafe
    · next n hn => exact ⟨n, hn⟩
    · cases hsafe
  obtain ⟨front, hname⟩ := getLast?_eq_some_iff.1 hlast
  have hone : utf8 [l] = encodeChar l := by simp [utf8]
  obtain ⟨b, hb⟩ : ∃ b, (encodeChar l).getLast? = some b := by
    rw [← Option.ne_none_iff_exists', ne_eq, getLast?_eq_none_iff]
    exact encodeChar_ne_nil l
  have hbytes : (utf8 v.sel.artifact.name).getLast? = some b := by
    rw [hname, utf8_append, hone, getLast?_append, hb, Option.some_or]
  have hmem := mem_of_getLast? hb
  have hbslash : b ≠ slash := by
    rintro rfl
    exact hslash (char_eq_iff_toNat.2 (mem_encodeChar_of_ascii (by decide) hmem))
  have hbdot : b ≠ dot := by
    rintro rfl
    exact hdot (char_eq_iff_toNat.2 (mem_encodeChar_of_ascii (by decide) hmem))
  exact normal_of_components_eq_singleton hn fun a r hr =>
    isSome_bodyComponent hbytes hbslash hbdot hr

/-- A newer version, at a file directly below the staging directory, with the bytes that were
published for that version and this platform. -/
def StagedAsPublished (env : StageEnv V) (published : V → Platform → PkgFormat → Option Bytes)
    (written : List (Path × Bytes)) (path : Str) (version : V) : Prop :=
  env.current < version ∧ env.stagingDir.IsChild (Path.ofStr path) ∧
    ∃ bytes, published version env.platform env.format = some bytes ∧
      contentAt written (Path.ofStr path) = some bytes

/-- The `SHA256SUMS` served for the chosen release has, for the chosen file, the hash of what was
published for its version and this platform. -/
def SumsOfPublished (env : StageEnv V) (published : V → Platform → PkgFormat → Option Bytes)
    (channelOverride : Option Channel) : Prop :=
  ∃ version sel sums hex bytes, env.choose channelOverride = .ok (version, sel) ∧
    env.download 4 sel.checksums.url = .ok sums ∧
    sha256For (lossy sums) sel.artifact.name = some hex ∧
    published version env.platform env.format = some bytes ∧
    lower (env.sha256Hex bytes) = lower hex

/-- Two files were written, and the first is what the key accepts under the second. -/
def StagedSigned (env : StageEnv V) (written : List (Path × Bytes)) : Prop :=
  ∃ path sigPath artifact sig, written = [(path, artifact), (sigPath, utf8 sig)] ∧
    env.verifyMinisign env.publicKey sig artifact = .ok ()

/-- A staged update is signed, under some version. What it is staged as is what it is, exactly when
the cache directory's path is text and the served checksums are those of the published file. -/
theorem staged_as_published_iff (env : StageEnv V)
    (published : V → Platform → PkgFormat → Option Bytes)
    (hsha : ∀ a b, lower (env.sha256Hex a) = lower (env.sha256Hex b) → a = b)
    {channelOverride : Option Channel} {path : Str} {version : V} {kind : ArtifactKind}
    (h : (env.stageUpdate channelOverride).1 = .staged path version kind) :
    env.StagedSigned (env.stageUpdate channelOverride).2 ∧
      (env.StagedAsPublished published (env.stageUpdate channelOverride).2 path version ↔
        env.cache.IsText ∧ env.SumsOfPublished published channelOverride) := by
  obtain ⟨v, hv, rfl, rfl, hwritten⟩ := stageUpdate_eq_staged h
  have hpassed := fetchVerified_spec hv
  refine ⟨⟨_, _, _, _, hwritten, hpassed.signed⟩, ?_⟩
  obtain ⟨hslash, hbody⟩ := hpassed.plain_name
  obtain ⟨sums, hex, hsums, hhex, heq⟩ := hpassed.sums
  have hcontent : contentAt (env.stageUpdate channelOverride).2
      (env.stagingDir.join (ofStr v.sel.artifact.name)) = some v.artifact := by
    rw [hwritten, contentAt_first (sigPath_ne env _ hslash)]
  have htext : (env.stagingDir.join (ofStr v.sel.artifact.name)).IsText ↔ env.cache.IsText :=
    isText_cache_iff hslash ⟨_, rfl⟩
  constructor
  · rintro ⟨-, ⟨name, hname, -, hpath⟩, bytes, hpublished, hbytes⟩
    -- the path is text, and a name below the directory, so the directory is text
    have hcache : env.cache.IsText :=
      Path.IsText.of_join
        (Path.IsText.of_join ⟨_, hpath.symm⟩ (isAbsolute_of_slash_notMem hname)) (by decide)
    have hrendered := (htext.2 hcache).rendered
    rw [rendered] at hrendered
    rw [hrendered, hcontent, Option.some.injEq] at hbytes
    refine ⟨hcache, v.version, v.sel, sums, hex, bytes, hpassed.chosen, hsums, hhex, hpublished, ?_⟩
    rw [← hbytes, heq]
  · rintro ⟨hcache, version, sel, sums', hex', bytes, hchoose, hsums', hhex', hpublished, heq'⟩
    obtain ⟨rfl, rfl⟩ := Prod.mk.inj (Except.ok.inj (hchoose.symm.trans hpassed.chosen))
    obtain rfl := Except.ok.inj (hsums'.symm.trans hsums)
    obtain rfl := Option.some.inj (hhex'.symm.trans hhex)
    have hrendered := (htext.2 hcache).rendered
    rw [rendered] at hrendered
    refine ⟨current_lt_of_choose hpassed.chosen, ?_, bytes, hpublished, ?_⟩
    · rw [hrendered]
      exact ⟨_, hslash, hbody, rfl⟩
    · rw [hrendered, hcontent, hsha _ _ (heq.trans heq'.symm)]

/-- Version 1 runs and version 3 is announced; every file is one byte, that of a release its
version, and its signature that byte's digits. -/
def announcing (served : Bytes) : StageEnv Nat where
  sv := ⟨fun s => if s = ['3'] then some 3 else none, Base.decimal, fun _ => false⟩
  current := 1
  platform := .linuxX8664
  format := .deb
  cache := "/home/ada/.cache/orcker"
  updateChannel := "stable"
  publicKey := "key"
  verifyMinisign _ sig bytes :=
    if sig = hexEncode bytes ∧ bytes ∈ [[0], [2], [3]] then .ok () else .error .signatureMismatch
  sha256Hex := hexEncode
  decodeManifest bytes := if bytes = [0] then
      some ⟨1, some ⟨"v3", false, false, none, [⟨"Orcker_Linux_x86_64.deb", "artifact", 1⟩,
        ⟨"Orcker_Linux_x86_64.deb.minisig", "signature", 2⟩, ⟨"SHA256SUMS", "checksums", 9⟩]⟩, none⟩
    else none
  debugStr s := s
  download _ url :=
    if url = latestManifestUrl then .ok [0]
    else if url = latestManifestSigUrl then .ok (utf8 (hexEncode [0]))
    else if url = "artifact" then .ok served
    else if url = "signature" then .ok (utf8 (hexEncode served))
    else .ok (utf8 (hexEncode served ++ "  Orcker_Linux_x86_64.deb\n"))
  createDirAll := .ok ()
  write _ := .ok ()

def publishedByte (version : Nat) : Platform → PkgFormat → Option Bytes
  | .linuxX8664, .deb => if version = 2 ∨ version = 3 then some [UInt8.ofNat version] else none
  | _, _ => none

theorem staged_as_published_three :
    (announcing [3]).StagedSigned ((announcing [3]).stageUpdate none).2 ∧
    (announcing [3]).StagedAsPublished publishedByte ((announcing [3]).stageUpdate none).2
      "/home/ada/.cache/orcker/update/Orcker_Linux_x86_64.deb" 3 := by
  have hstaged : ((announcing [3]).stageUpdate none).1 =
      .staged "/home/ada/.cache/orcker/update/Orcker_Linux_x86_64.deb" 3 .deb := by
    decide +kernel
  have hboth := staged_as_published_iff (announcing [3]) publishedByte
    (fun _ _ => lower_hexEncode_inj) hstaged
  refine ⟨hboth.1, hboth.2.2 ?_⟩
  exact ⟨⟨_, rfl⟩, 3, _, utf8 (hexEncode [3] ++ "  Orcker_Linux_x86_64.deb\n"), hexEncode [3], [3], rfl,
      by decide +kernel, by decide +kernel, rfl, rfl⟩

/-- The files of version 2, signed as ever, are staged as version 3 when the checksums served
with them are version 2's. -/
theorem staged_replayed_release :
    (∀ sig bytes, (announcing [2]).verifyMinisign (announcing [2]).publicKey sig bytes = .ok () →
      bytes = [0] ∨ ∃ version, publishedByte version .linuxX8664 .deb = some bytes) ∧
    (∀ a b, lower ((announcing [2]).sha256Hex a) = lower ((announcing [2]).sha256Hex b) → a = b) ∧
    ((announcing [2]).stageUpdate none).1 =
      .staged "/home/ada/.cache/orcker/update/Orcker_Linux_x86_64.deb" 3 .deb ∧
    ¬(announcing [2]).StagedAsPublished publishedByte ((announcing [2]).stageUpdate none).2
      "/home/ada/.cache/orcker/update/Orcker_Linux_x86_64.deb" 3 := by
  refine ⟨?_, ?_, by decide +kernel, ?_⟩
  · intro sig bytes h
    simp only [announcing] at h
    split_ifs at h with hsigned
    rcases hsigned with ⟨-, hmem⟩
    simp only [mem_cons, not_mem_nil, or_false] at hmem
    rcases hmem with rfl | rfl | rfl
    · exact .inl rfl
    · exact .inr ⟨2, rfl⟩
    · exact .inr ⟨3, rfl⟩
  · exact fun _ _ => lower_hexEncode_inj
  · rintro ⟨-, -, bytes, hpublished, hwritten⟩
    obtain rfl : [3] = bytes := Option.some.inj hpublished
    revert hwritten
    decide +kernel

end StageEnv

end Orcker.Update
