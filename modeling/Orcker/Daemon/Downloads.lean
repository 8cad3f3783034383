import Orcker.Base.Lines
import Orcker.Base.Fallible
import Orcker.Proxy.HttpsRedirect

/-!
# Downloads
-/

namespace Orcker.Daemon

open Base List Proxy.Redirect

/-- A host of GitHub's, in any case. -/
def isGithubHost (host : Str) : Bool :=
  lower host == "github.com" || lower host == "githubusercontent.com" ||
    ".githubusercontent.com".toList.isSuffixOf (lower host)

/-- What stands behind the user information. -/
def hostPort (authority : Str) : Str := ((rsplitOnce '@' authority).map (·.2)).getD authority

/-- The URL's host, found by hand, is one of GitHub's. -/
def hostIsTrusted (url : Str) : Bool :=
  match url.dropPrefix? "https://" with
  | none => false
  | some rest => isGithubHost ((hostPort (rest.takeWhile (· != '/'))).takeWhile (· != ':'))

structure ReleaseAsset where
  name : Str
  browserDownloadUrl : Str
  digest : Option Str

structure Release where
  tagName : Str
  assets : List ReleaseAsset

inductive CloudflaredInstallError where
  | unsupportedHost
  | download (detail : Str)
  | metadata (detail : Str)
  | sha256Mismatch (detail : Str)
  | missingDigest (detail : Str)
  | untrustedHost (url : Str)
  | unpack (detail : Str)
  | io (detail : Str)

/-- What an installation meets; `finish` is what it does with the bytes it has downloaded. -/
structure InstallWorld where
  /-- On macOS or not, and the token of the architecture. -/
  currentTarget : Option (Bool × Str)
  download : Str → Except Str Bytes
  parseRelease : Bytes → Except Str Release
  finish : Release → ReleaseAsset → Bytes → Except CloudflaredInstallError Unit

def latestReleaseApi : Str := "https://api.github.com/repos/cloudflare/cloudflared/releases/latest"

/-- The file for the platform. -/
def hostAsset : Bool × Str → Str
  | (true, token) => "cloudflared-darwin-" ++ token ++ ".tgz"
  | (false, token) => "cloudflared-linux-" ++ token

/-- The asset for this host, if it may be downloaded. -/
def chooseAsset (w : InstallWorld) : Except CloudflaredInstallError (Release × ReleaseAsset) := do
  let some target := w.currentTarget | .error .unsupportedHost
  let text ← (w.download latestReleaseApi).mapError fun e => .download ("release metadata: " ++ e)
  let release ← (w.parseRelease text).mapError fun e => .metadata ("parse release json: " ++ e)
  let some asset := release.assets.find? (·.name == hostAsset target)
    | .error (.metadata ("no asset " ++ hostAsset target ++ " in latest release"))
  if !hostIsTrusted asset.browserDownloadUrl then .error (.untrustedHost asset.browserDownloadUrl)
  else .ok (release, asset)

/-- The URL of the asset that is downloaded, if it comes to that, and the outcome. -/
def install (w : InstallWorld) : Option Str × Except CloudflaredInstallError Unit :=
  match chooseAsset w with
  | .error e => (none, .error e)
  | .ok (release, asset) =>
    (some asset.browserDownloadUrl, do
      let bytes ← (w.download asset.browserDownloadUrl).mapError fun e =>
        .download (asset.name ++ ": " ++ e)
      w.finish release asset bytes)

/-- The host of an authority: an IP literal in brackets, or what stands before the port. -/
def authorityHost (authority : Str) : Str :=
  match hostPort authority with
  | '[' :: literal => '[' :: literal.takeWhile (· != ']') ++ [']']
  | host => host.takeWhile (· != ':')

/-- The host of a URI is one of GitHub's, where the authority ends at a slash, a question mark or a
number sign. It may hold a backslash here, at which the client's own parser would end it too. -/
def OnGithub (url : Str) : Prop :=
  (splitUri url).any fun (authority, _) => isGithubHost (authorityHost authority)

/-- Without its query and fragment the URL is trusted, and the host is no IP literal. -/
def TrustedAlone (url : Str) : Prop :=
  hostIsTrusted (url.takeWhile fun c => c != '?' && c != '#') = true ∧
    (splitUri url).all fun (authority, _) => (hostPort authority).head? != some '['

theorem isGithubHost_bracket (s : Str) : isGithubHost (s ++ [']']) = false := by
  have hlast : (lower (s ++ [']'])).getLast? = some ']' := by
    rw [lower_append]
    exact getLast?_concat
  have hne : ∀ t : Str, t.getLast? = some 'm' → ¬t <:+ lower (s ++ [']']) := by
    rintro t ht ⟨front, heq⟩
    rw [← heq, getLast?_append, ht] at hlast
    cases hlast
  simp only [isGithubHost, Bool.or_eq_false_iff, beq_eq_false_iff_ne, ne_eq]
  refine ⟨⟨fun heq => hne "github.com" (by decide) ?_,
    fun heq => hne "githubusercontent.com" (by decide) ?_⟩,
    Bool.eq_false_iff.2 fun h => hne _ (by decide) (isSuffixOf_iff_suffix.1 h)⟩
  · rw [heq]
  · rw [heq]

theorem isGithubHost_authorityHost (authority : Str) : isGithubHost (authorityHost authority) = true ↔
    isGithubHost ((hostPort authority).takeWhile (· != ':')) = true ∧
      (hostPort authority).head? ≠ some '[' := by
  unfold authorityHost
  split
  · next literal h =>
    rw [isGithubHost_bracket]
    simp [h]
  · next h =>
    refine (and_iff_left fun hhead => ?_).symm
    obtain ⟨literal, hl⟩ := head?_eq_some_iff.1 hhead
    exact h literal hl

theorem onGithub_iff {url : Str} (h : hostIsTrusted url = true) :
    OnGithub url ↔ TrustedAlone url := by
  obtain ⟨rest, rfl⟩ : ∃ rest, url = "https://" ++ rest := by
    unfold hostIsTrusted at h
    split at h
    · cases h
    · next rest hrest => exact ⟨rest, dropPrefix?_eq_some.1 hrest⟩
  -- without a query the two readings end the authority at the same place
  have hcut : ("https://" ++ rest).takeWhile (fun c => c != '?' && c != '#') =
      "https://" ++ rest.takeWhile fun c => c != '?' && c != '#' :=
    takeWhile_append_of_pos (all_eq_true.1 (by decide))
  have hauthority : (rest.takeWhile fun c => c != '?' && c != '#').takeWhile (· != '/') =
      rest.takeWhile (!endsAuthority ·) := by
    rw [takeWhile_takeWhile]
    congr 1
    funext c
    unfold endsAuthority
    grind
  have hsplit : splitUri ("https://" ++ rest) =
      some (rest.takeWhile (!endsAuthority ·),
        rest.dropWhile (!endsAuthority ·)) := by
    unfold splitUri
    rw [dropPrefix?_eq_some.2 rfl]
    rfl
  unfold OnGithub TrustedAlone
  rw [hcut, hostIsTrusted, dropPrefix?_eq_some.2 rfl, hsplit]
  simp [hauthority, isGithubHost_authorityHost]

theorem hostIsTrusted_of_install {w : InstallWorld} {url : Str}
    (h : (install w).1 = some url) : hostIsTrusted url = true := by
  unfold install at h
  split at h
  · cases h
  · next release asset hasset =>
    obtain rfl := Option.some.inj h
    unfold chooseAsset at hasset
    split at hasset
    · obtain ⟨text, -, hasset⟩ := bind_eq_ok_iff.1 hasset
      obtain ⟨release, -, hasset⟩ := bind_eq_ok_iff.1 hasset
      split at hasset
      · split at hasset
        · cases hasset
        · next htrusted =>
          cases hasset
          simpa using htrusted
      · cases hasset
    · cases hasset

/-- A URL that is accepted is on a host of GitHub's exactly if it would be accepted without its query
and fragment and has no IP literal, and an asset is downloaded from such a URL only. -/
theorem download_host_iff (w : InstallWorld) (url : Str) :
    (hostIsTrusted url = true → (OnGithub url ↔ TrustedAlone url)) ∧
      ((install w).1 = some url → hostIsTrusted url = true ∧ (OnGithub url ↔ TrustedAlone url)) := by
  refine ⟨onGithub_iff, fun h => ?_⟩
  have htrusted := hostIsTrusted_of_install h
  exact ⟨htrusted, onGithub_iff htrusted⟩

/-- A release whose asset is on a host that has a trusted name in its query. -/
def queryWorld : InstallWorld where
  currentTarget := some (false, "amd64")
  download := fun _ => .ok []
  parseRelease := fun _ => .ok ⟨"1", [⟨"cloudflared-linux-amd64",
    "https://evil.example?.githubusercontent.com", none⟩]⟩
  finish := fun _ _ _ => .ok ()

/-- A plain URL of an asset. -/
theorem download_host_asset :
    hostIsTrusted "https://objects.githubusercontent.com:443/x?y" = true ∧
      (OnGithub "https://objects.githubusercontent.com:443/x?y" ↔
        TrustedAlone "https://objects.githubusercontent.com:443/x?y") :=
  have htrusted : hostIsTrusted "https://objects.githubusercontent.com:443/x?y" = true := by
    decide +kernel
  ⟨htrusted, (download_host_iff queryWorld _).1 htrusted⟩

theorem download_host_query :
    (install queryWorld).1 = some "https://evil.example?.githubusercontent.com".toList ∧
      ¬OnGithub "https://evil.example?.githubusercontent.com" := by
  unfold OnGithub
  decide +kernel

/-- The words of a line, behind any byte order mark. -/
def lineFields (line : Str) : List Str := splitWhitespace (trim (line.dropWhile (· == '\ufeff')))

def isAsciiHexdigit (c : Char) : Bool :=
  c.isDigit || 'a' ≤ c && c ≤ 'f' || 'A' ≤ c && c ≤ 'F'

/-- Could be a SHA-256 sum. -/
def isSha256Hex (hex : Str) : Bool := byteLen hex == 64 && hex.all isAsciiHexdigit

def shaForAssetIn (exactFilename : Str) : List Str → Option Str
  | [] => none
  | line :: rest =>
    match lineFields line with
    | [] => none  -- the `?` behind the first word
    | hex :: parts =>
      match parts.getLast? with
      | none => shaForAssetIn exactFilename rest
      | some name =>
        if (name.dropPrefix? ['*']).getD name = exactFilename ∧ isSha256Hex hex = true then
          some (lower hex)
        else shaForAssetIn exactFilename rest

/-- The checksum the list has for the file. -/
def shaForAsset (sumsText exactFilename : Str) : Option Str :=
  shaForAssetIn exactFilename (lines sumsText)

/-- The digest a line gives for the file: its first word, if the last of the others is the name. -/
def digestOf (filename line : Str) : Option Str := do
  let hex ← (lineFields line).head?
  let name ← (lineFields line).tail.getLast?
  if (name.dropPrefix? ['*']).getD name = filename ∧ isSha256Hex hex = true then some (lower hex)
  else none

/-- If a line gives the digest, no line before the first such is blank. -/
def NoBlankBefore (filename : Str) (ls : List Str) : Prop :=
  (∃ l ∈ ls, (digestOf filename l).isSome) →
    ∀ l ∈ ls.takeWhile (fun l => (digestOf filename l).isNone), lineFields l ≠ []

variable {filename line : Str} {ls : List Str}

theorem shaForAssetIn_cons (h : lineFields line ≠ []) : shaForAssetIn filename (line :: ls) =
    (digestOf filename line).or (shaForAssetIn filename ls) := by
  obtain ⟨hex, parts, hfields⟩ := exists_cons_of_ne_nil h
  rw [shaForAssetIn]
  unfold digestOf
  cases hlast : parts.getLast? with
  | none => simp [hfields, hlast]
  | some name =>
    simp only [hfields, hlast, head?_cons, tail_cons, Option.bind_eq_bind, Option.bind_some]
    split_ifs <;> rfl

/-- The lookup gives the digest of the first line that has one for the file, and nothing if there is
none, exactly if no blank line stands before that line. -/
theorem sha_for_asset_iff (sumsText filename : Str) :
    shaForAsset sumsText filename = (lines sumsText).findSome? (digestOf filename) ↔
      NoBlankBefore filename (lines sumsText) := by
  unfold shaForAsset
  induction lines sumsText with
  | nil => simp [shaForAssetIn, NoBlankBefore]
  | cons line ls ih =>
    by_cases hblank : lineFields line = []
    · have hnone : digestOf filename line = none := by simp [digestOf, hblank]
      have hcond : NoBlankBefore filename (line :: ls) ↔ ∀ l ∈ ls, digestOf filename l = none := by
        simp [NoBlankBefore, hblank, hnone]
      have hstop : shaForAssetIn filename (line :: ls) = none := by simp [shaForAssetIn, hblank]
      rw [hcond, hstop, findSome?_cons, hnone, ← findSome?_eq_none_iff]
      exact eq_comm
    · rw [shaForAssetIn_cons hblank, findSome?_cons]
      cases hdigest : digestOf filename line with
      | none => simpa [NoBlankBefore, hdigest, hblank] using ih
      | some d => simp [NoBlankBefore, hdigest]

/-- A blank line hides the digest behind it. -/
theorem sha_for_asset_blank :
    shaForAsset ('\n' :: replicate 64 'A' ++ "  bun.zip\n") "bun.zip" = none ∧
      (lines ('\n' :: replicate 64 'A' ++ "  bun.zip\n")).findSome?
        (digestOf "bun.zip") = some (replicate 64 'a') := by
  decide +kernel

end Orcker.Daemon
