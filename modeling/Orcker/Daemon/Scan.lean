import Orcker.Config.Validate
import Orcker.Core.Detect
import Orcker.Daemon.Mutate

/-!
# Scanning the parked roots

Every directory below a parked root is a site unless a linked site has its name.
-/

namespace Orcker.Daemon

open Base Orcker.Core Orcker.Schema List

inductive ReadDirError where
  | notFound
  | other (source : Str)

/-- One entry of a listing. Its name has no separator, and its metadata may be
unreadable. -/
structure DirEntry where
  fileName : Bytes
  isDir : Option Bool
  noSlash : slash ∉ fileName

/-- What a scan reads: directory listings, and the answers of the detection cache. -/
structure ScanWorld where
  readDir : Str → Except ReadDirError (List DirEntry)
  detect : Path → Detection

structure ScanError where
  path : Path
  source : Str
  deriving DecidableEq

/-- The site name of an entry; none for one that is not text, hidden, no
directory, without a valid name, or shadowed by a linked site. -/
def parkedSiteName (linked : List Str) (entry : DirEntry) : Option Str := do
  let name ← fromUtf8 entry.fileName
  guard (name.head? ≠ some '.')
  let isDir ← entry.isDir
  guard isDir
  let siteName ← normalizeSiteName name
  guard (siteName ∉ linked)
  return siteName

/-- Re-apply what is pinned for a parked site, the web root apart. -/
def applyOverride (ov : SiteOverride) (site : Site) : Site :=
  { site with
    php := ov.php.getD site.php
    secure := ov.secure.getD site.secure
    wpAutoLogin := ov.wpAutoLogin.getD site.wpAutoLogin
    wpAutoLoginUser := ov.wpAutoLoginUser.or site.wpAutoLoginUser
    frontController := ov.frontController.or site.frontController }

section Scan

variable (world : ScanWorld) (defaultPhp : PhpVersion) (cfg : Config)

/-- A parked site, and its root again when its web root has to be watched for. -/
def buildParkedSite (siteName : Str) (docRoot : Path) : Option (Site × List Path) :=
  match Site.parked siteName docRoot defaultPhp with
  | .error _ => none
  | .ok site =>
    let ov := cfg.overrides[docRoot.toStringLossy]?
    let site := match ov with
      | some ov => applyOverride ov site
      | none => site
    match ov.bind (·.webRoot) with
    | some rel => some ({ site with webSubpath := .ofStr rel }, [])
    | none =>
      let det := world.detect docRoot
      some ({ site with webSubpath := det.subpath }, if det.resolved then [] else [docRoot])

/-- The site that a directory is, and what is watched for it. -/
def scanEntry (parkedRoot : Str) (entry : DirEntry) : Option (Site × List Path) :=
  match parkedSiteName (linkedNames cfg) entry with
  | none => none
  | some siteName =>
    buildParkedSite world defaultPhp cfg siteName ((Path.ofStr parkedRoot).join ⟨entry.fileName⟩)

/-- A root that does not exist has no sites; any other failure ends the scan. -/
def scanRoot (parkedRoot : Str) : Except ScanError (List (Site × List Path)) :=
  match world.readDir parkedRoot with
  | .ok entries => .ok (entries.filterMap (scanEntry world defaultPhp cfg parkedRoot))
  | .error .notFound => .ok []
  | .error (.other source) => .error ⟨.ofStr parkedRoot, source⟩

/-- The parked sites, then the linked ones, and the roots to watch. -/
def scanSites : Except ScanError (List Site × List Path) := do
  let found ← cfg.parked.paths.toList.mapM (scanRoot world defaultPhp cfg)
  return (found.flatten.map Prod.fst ++ cfg.linked, found.flatten.flatMap Prod.snd)

end Scan

/-- A site found under a root by a directory name. -/
structure FoundAs (linked : List Str) (root : Str) (dirName : Str) (s : Site) : Prop where
  kind : s.kind = .parked
  notLinked : s.name.text ∉ linked
  normal : normalizeSiteName dirName = some s.name.text
  noSlash : slash ∉ utf8 dirName
  hidden : dirName.head? ≠ some '.'
  documentRoot : s.documentRoot = (Path.ofStr root).join (.ofStr dirName)

variable {linked : List Str} {entry : DirEntry} {siteName root : Str} {s : Site} {watch : List Path}
  {sites : List Site}

section Found

variable {world : ScanWorld} {defaultPhp : PhpVersion} {cfg : Config}

theorem parkedSiteName_eq_some_iff :
    parkedSiteName linked entry = some siteName ↔
      (∃ dirName, entry.fileName = utf8 dirName ∧ dirName.head? ≠ some '.' ∧
        entry.isDir = some true ∧ normalizeSiteName dirName = some siteName) ∧
        siteName ∉ linked := by
  simp only [parkedSiteName, Option.bind_eq_bind, Option.bind_eq_some_iff, Option.guard_eq_some',
    exists_const, Option.pure_def, Option.some.injEq]
  constructor
  · rintro ⟨dirName, hname, hhidden, isDir, hdir, rfl, siteName', hnormal, hlinked, rfl⟩
    exact ⟨⟨dirName, fromUtf8_eq_some_iff.1 hname, hhidden, hdir, hnormal⟩, hlinked⟩
  · rintro ⟨⟨dirName, hname, hhidden, hdir, hnormal⟩, hlinked⟩
    exact ⟨dirName, fromUtf8_eq_some_iff.2 hname, hhidden, true, hdir, rfl, siteName, hnormal,
      hlinked, rfl⟩

theorem buildParkedSite_eq_some {docRoot : Path}
    (h : buildParkedSite world defaultPhp cfg siteName docRoot = some (s, watch)) :
    ∃ name, SiteName.new siteName = .ok name ∧ s.name = name ∧ s.kind = .parked ∧
      s.documentRoot = docRoot := by
  rw [buildParkedSite] at h
  split at h
  · cases h
  rename_i site hsite
  obtain ⟨name, hname, rfl⟩ := map_eq_ok_iff.1 hsite
  refine ⟨name, hname, ?_⟩
  simp only at h
  split at h <;> split at h <;> (cases h; exact ⟨rfl, rfl, rfl⟩)

/-- A normalised name is a label, which the site keeps as it is. -/
theorem scanEntry_eq_some_iff :
    scanEntry world defaultPhp cfg root entry = some (s, watch) ↔
      parkedSiteName (linkedNames cfg) entry = some s.name.text ∧
        buildParkedSite world defaultPhp cfg s.name.text
          ((Path.ofStr root).join ⟨entry.fileName⟩) = some (s, watch) := by
  rw [scanEntry]
  constructor
  · intro h
    split at h
    · cases h
    rename_i siteName hname
    obtain ⟨⟨dirName, -, -, -, hnormal⟩, -⟩ := parkedSiteName_eq_some_iff.1 hname
    obtain ⟨name, hnew, rfl, -⟩ := buildParkedSite_eq_some h
    obtain ⟨name', hnew', htext⟩ := SiteName.exists_new (isLabel_of_normalize hnormal)
    have hsame : s.name.text = siteName := by
      rw [hnew, Except.ok.injEq] at hnew'
      rw [hnew', htext]
    rw [hsame]
    exact ⟨hname, h⟩
  · rintro ⟨hname, hbuild⟩
    rw [hname]
    exact hbuild

theorem scanEntry_found (h : scanEntry world defaultPhp cfg root entry = some (s, watch)) :
    ∃ dirName, FoundAs (linkedNames cfg) root dirName s := by
  obtain ⟨hname, hbuild⟩ := scanEntry_eq_some_iff.1 h
  obtain ⟨⟨dirName, hfile, hhidden, -, hnormal⟩, hlinked⟩ := parkedSiteName_eq_some_iff.1 hname
  obtain ⟨name, -, rfl, hkind, hroot⟩ := buildParkedSite_eq_some hbuild
  exact ⟨dirName, hkind, hlinked, hnormal, hfile ▸ entry.noSlash, hhidden, by
    rw [hroot, hfile]
    rfl⟩

theorem scanSites_spec (h : scanSites world defaultPhp cfg = .ok (sites, watch)) :
    ∃ parked, sites = parked ++ cfg.linked ∧ ∀ s, s ∈ parked ↔
      ∃ root ∈ cfg.parked.paths, ∃ entries, world.readDir root = .ok entries ∧
        ∃ entry ∈ entries, ∃ watch, scanEntry world defaultPhp cfg root entry = some (s, watch) := by
  simp only [scanSites, bind_eq_ok_iff, pure_eq_ok, Except.ok.injEq, Prod.mk.injEq] at h
  obtain ⟨found, hfound, rfl, -⟩ := h
  refine ⟨_, rfl, fun s => ?_⟩
  constructor
  · intro hs
    obtain ⟨⟨s, watch⟩, hmem, rfl⟩ := mem_map.1 hs
    obtain ⟨sitesOfRoot, hroot, hmem⟩ := mem_flatten.1 hmem
    obtain ⟨root, hmemRoot, hscan⟩ := exists_of_mapM_eq_ok hfound hroot
    refine ⟨root, Std.ExtTreeSet.mem_toList.1 hmemRoot, ?_⟩
    rw [scanRoot] at hscan
    split at hscan
    · rename_i entries hread
      cases hscan
      obtain ⟨entry, hentry, hsome⟩ := mem_filterMap.1 hmem
      exact ⟨entries, hread, entry, hentry, watch, hsome⟩
    · cases hscan
      cases hmem
    · cases hscan
  · rintro ⟨root, hmemRoot, entries, hread, entry, hentry, watch, hsome⟩
    obtain ⟨sitesOfRoot, hroot, hscan⟩ :=
      exists_mem_of_mapM_eq_ok hfound (Std.ExtTreeSet.mem_toList.2 hmemRoot)
    rw [scanRoot, hread] at hscan
    cases hscan
    refine mem_map.2 ⟨(s, watch), mem_flatten.2 ⟨_, hroot, ?_⟩, rfl⟩
    exact mem_filterMap.2 ⟨entry, hentry, hsome⟩

/-- The linked sites come last, and each parked site was found below a parked root. -/
theorem scanSites_ok (h : scanSites world defaultPhp cfg = .ok (sites, watch)) :
    ∃ parked, sites = parked ++ cfg.linked ∧ ∀ s ∈ parked, ∃ root ∈ cfg.parked.paths,
      ∃ dirName, FoundAs (linkedNames cfg) root dirName s := by
  obtain ⟨parked, rfl, hparked⟩ := scanSites_spec h
  refine ⟨parked, rfl, fun s hs => ?_⟩
  obtain ⟨root, hroot, -, -, entry, -, watch, hentry⟩ := (hparked s).1 hs
  exact ⟨root, hroot, scanEntry_found hentry⟩

theorem FoundAs.ofStr_overrideKey {dirName : Str} (h : FoundAs linked root dirName s) :
    Path.ofStr (overrideKey s) = s.documentRoot := by
  have htext : s.documentRoot.IsText := by
    rw [h.documentRoot]
    exact Path.IsText.join ⟨root, rfl⟩ ⟨dirName, rfl⟩
  exact htext.rendered

theorem FoundAs.name_eq {root' dirName dirName' : Str} {s' : Site}
    (h : FoundAs linked root dirName s) (h' : FoundAs linked root' dirName' s')
    (hkey : overrideKey s = overrideKey s') : s.name.text = s'.name.text := by
  have hroot : s.documentRoot = s'.documentRoot := by
    rw [← h.ofStr_overrideKey, hkey, h'.ofStr_overrideKey]
  have hdir : dirName = dirName' := by
    refine utf8_injective ?_
    rw [← Path.lastPiece_join h.noSlash, ← Path.lastPiece_join h'.noSlash]
    exact congrArg Path.lastPiece (h.documentRoot ▸ h'.documentRoot ▸ hroot)
  have hnormal := h.normal
  rw [hdir, h'.normal] at hnormal
  exact (Option.some.inj hnormal).symm

end Found

end Orcker.Daemon
