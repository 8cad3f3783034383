import Orcker.Update.Select

/-!
# The release manifests

A daemon that reads `latest.json` decides as one that reads the whole list.
-/

namespace Orcker.Update

open Base List

structure AssetEntry where
  name : Str
  browserDownloadUrl : Str
  size : Nat
  deriving DecidableEq

structure ReleaseEntry where
  tagName : Str
  prerelease : Bool
  draft : Bool
  body : Option Str
  assets : List AssetEntry
  deriving DecidableEq

/-- The latest stable release, and a release candidate only when that is newer. -/
structure LatestManifest where
  schema : Nat
  stable : Option ReleaseEntry
  rc : Option ReleaseEntry
  deriving DecidableEq

def latestSchema : Nat := 1

variable {V : Type}

def ReleaseEntry.version (sv : Semver V) (e : ReleaseEntry) : Option V := parseTag sv e.tagName

def ReleaseEntry.isPrerelease (sv : Semver V) (e : ReleaseEntry) (version : V) : Bool :=
  e.prerelease || sv.hasPre version

/-- Where an asset is mirrored. -/
def cdnUrl (cdnBase tag name : Str) : Str :=
  cdnBase.rdropWhile (· == '/') ++ "/releases/" ++ tag ++ "/" ++ name

/-- The URLs of the mirrored assets are those of the CDN. -/
def rewriteUrls (cdnBase : Str) (mirroredAssets : List (Str × Str)) (entry : ReleaseEntry) :
    ReleaseEntry :=
  { entry with
    assets := entry.assets.map fun a =>
      { a with
        browserDownloadUrl :=
          if (entry.tagName, a.name) ∈ mirroredAssets then cdnUrl cdnBase entry.tagName a.name
          else a.browserDownloadUrl } }

/-- A release that is published and has a version. -/
def keep (sv : Semver V) (cdnBase : Str) (mirroredAssets : List (Str × Str)) (r : ReleaseEntry) :
    Option (V × ReleaseEntry) :=
  if r.draft then none
  else (r.version sv).map fun v => (v, rewriteUrls cdnBase mirroredAssets r)

/-- Drafts and unreadable tags are left out. -/
def entryToMeta (sv : Semver V) (entry : ReleaseEntry) : Option (ReleaseMeta V) :=
  if entry.draft then none
  else (parseTag sv entry.tagName).map fun version =>
    { version
      tag := entry.tagName
      prerelease := entry.prerelease
      assets := entry.assets.map fun a => ⟨a.name, a.browserDownloadUrl, a.size⟩
      notes := entry.body }

def manifestToReleases (sv : Semver V) (manifest : LatestManifest) : List (ReleaseMeta V) :=
  (manifest.stable.toList ++ manifest.rc.toList).filterMap (entryToMeta sv)

variable [LinearOrder V]

/-- One turn of the loop over the kept releases: the best stable one and the best pre-release. -/
def buildStep (sv : Semver V) (best : Option (V × ReleaseEntry) × Option (V × ReleaseEntry))
    (item : V × ReleaseEntry) : Option (V × ReleaseEntry) × Option (V × ReleaseEntry) :=
  if item.2.isPrerelease sv item.1 then (best.1, better Prod.fst best.2 item)
  else (better Prod.fst best.1 item, best.2)

/-- `releases.json`, newest first, and `latest.json`. -/
def buildManifests (sv : Semver V) (releases : List ReleaseEntry) (cdnBase : Str)
    (mirroredAssets : List (Str × Str)) : List ReleaseEntry × LatestManifest :=
  let kept := (releases.filterMap (keep sv cdnBase mirroredAssets)).mergeSort
    fun a b => decide (b.1 ≤ a.1)
  let best := kept.foldl (buildStep sv) (none, none)
  let rc := best.2.filter fun pre => best.1.all fun s => s.1 < pre.1
  (kept.map Prod.snd, ⟨latestSchema, best.1.map Prod.snd, rc.map Prod.snd⟩)

/-- The kept releases that are pre-releases, or are not. -/
def ofKind (sv : Semver V) (pre : Bool) (kept : List (V × ReleaseEntry)) : List (V × ReleaseEntry) :=
  kept.filter fun item => item.2.isPrerelease sv item.1 == pre

theorem foldl_buildStep (sv : Semver V) (kept : List (V × ReleaseEntry))
    (best : Option (V × ReleaseEntry) × Option (V × ReleaseEntry)) :
    kept.foldl (buildStep sv) best = ((ofKind sv false kept).foldl (better Prod.fst) best.1,
      (ofKind sv true kept).foldl (better Prod.fst) best.2) := by
  induction kept generalizing best with
  | nil => rfl
  | cons item kept ih =>
    rw [foldl_cons, ih]
    cases hpre : item.2.isPrerelease sv item.1 <;> simp [buildStep, ofKind, hpre]

/-- The releases of `latest.json`, with their versions. -/
def latestOf (sv : Semver V) (kept : List (V × ReleaseEntry)) :
    Option (V × ReleaseEntry) × Option (V × ReleaseEntry) :=
  let stable := runningMax Prod.fst (ofKind sv false kept)
  (stable, (runningMax Prod.fst (ofKind sv true kept)).filter fun pre =>
    stable.all fun s => s.1 < pre.1)

variable {sv : Semver V} {kept : List (V × ReleaseEntry)} {item : V × ReleaseEntry}
  {releases : List ReleaseEntry} {cdnBase : Str} {mirroredAssets : List (Str × Str)}

theorem mem_of_latestOf (h : (latestOf sv kept).1 = some item ∨ (latestOf sv kept).2 = some item) :
    item ∈ kept := by
  rcases h with h | h
  · exact (mem_filter.1 (runningMax_eq_some h).1).1
  · exact (mem_filter.1 (runningMax_eq_some (Option.filter_eq_some_iff.1 h).1).1).1

theorem kind_of_latestOf :
    ((latestOf sv kept).1 = some item → item.2.isPrerelease sv item.1 = false) ∧
      ((latestOf sv kept).2 = some item → item.2.isPrerelease sv item.1 = true) := by
  constructor
  · intro h
    exact beq_iff_eq.1 (mem_filter.1 (runningMax_eq_some h).1).2
  · intro h
    exact beq_iff_eq.1 (mem_filter.1 (runningMax_eq_some (Option.filter_eq_some_iff.1 h).1).1).2

theorem isGreatest_stable {m : V} :
    IsGreatest {v | ∃ item ∈ ofKind sv false kept, item.1 = v} m ↔
      ∃ item, (latestOf sv kept).1 = some item ∧ item.1 = m := by
  constructor
  · rintro ⟨⟨item, hitem, rfl⟩, hmax⟩
    obtain ⟨s, hs, hle⟩ := exists_runningMax Prod.fst hitem
    exact ⟨s, hs, le_antisymm (hmax ⟨s, (runningMax_eq_some hs).1, rfl⟩) hle⟩
  · rintro ⟨item, hs, rfl⟩
    obtain ⟨hmem, hle⟩ := runningMax_eq_some hs
    refine ⟨⟨item, hmem, rfl⟩, ?_⟩
    rintro _ ⟨other, hother, rfl⟩
    exact hle other hother

theorem isGreatest_all {m : V} :
    IsGreatest {v | ∃ item ∈ kept, item.1 = v} m ↔
      IsGreatest {v | ∃ item, ((latestOf sv kept).1 = some item ∨ (latestOf sv kept).2 = some item) ∧
        item.1 = v} m := by
  refine isGreatest_iff_of_dominated ?_ ?_
  · rintro _ ⟨item, hitem, rfl⟩
    exact ⟨item, mem_of_latestOf hitem, rfl⟩
  rintro _ ⟨item, hitem, rfl⟩
  cases hpre : item.2.isPrerelease sv item.1 with
  | false =>
    have hkind : item ∈ ofKind sv false kept := mem_filter.2 ⟨hitem, by simp [hpre]⟩
    obtain ⟨s, hs, hle⟩ := exists_runningMax Prod.fst hkind
    exact ⟨s.1, ⟨s, .inl hs, rfl⟩, hle⟩
  | true =>
    have hkind : item ∈ ofKind sv true kept := mem_filter.2 ⟨hitem, by simp [hpre]⟩
    obtain ⟨p, hp, hle⟩ := exists_runningMax Prod.fst hkind
    by_cases hnewer : ((latestOf sv kept).1.all fun s => s.1 < p.1) = true
    · exact ⟨p.1, ⟨p, .inr (Option.filter_eq_some_iff.2 ⟨hp, hnewer⟩), rfl⟩, hle⟩
    · -- an older candidate is hidden behind the stable release
      cases hs : (latestOf sv kept).1 with
      | none => simp [hs] at hnewer
      | some s =>
        rw [hs, Option.all_some, decide_eq_true_iff, not_lt] at hnewer
        exact ⟨s.1, ⟨s, .inl rfl, rfl⟩, hle.trans hnewer⟩

/-- The releases that count, newest first. -/
def keptReleases (sv : Semver V) (releases : List ReleaseEntry) (cdnBase : Str)
    (mirroredAssets : List (Str × Str)) : List (V × ReleaseEntry) :=
  (releases.filterMap (keep sv cdnBase mirroredAssets)).mergeSort fun a b => decide (b.1 ≤ a.1)

theorem buildManifests_eq (sv : Semver V) (releases : List ReleaseEntry) (cdnBase : Str)
    (mirroredAssets : List (Str × Str)) :
    buildManifests sv releases cdnBase mirroredAssets =
      let kept := keptReleases sv releases cdnBase mirroredAssets
      (kept.map Prod.snd, ⟨latestSchema, (latestOf sv kept).1.map Prod.snd,
        (latestOf sv kept).2.map Prod.snd⟩) := by
  simp only [buildManifests, foldl_buildStep, keptReleases, latestOf, runningMax]

theorem mem_keptReleases :
    item ∈ keptReleases sv releases cdnBase mirroredAssets ↔
      ∃ r ∈ releases, r.draft = false ∧ parseTag sv r.tagName = some item.1 ∧
        item.2 = rewriteUrls cdnBase mirroredAssets r := by
  simp only [keptReleases, mem_mergeSort, mem_filterMap, keep, ReleaseEntry.version]
  refine exists_congr fun r => and_congr_right fun _ => ?_
  cases r.draft with
  | true => simp
  | false =>
    simp only [Bool.false_eq_true, if_false, Option.map_eq_some_iff, true_and]
    constructor
    · rintro ⟨v, hv, rfl⟩
      exact ⟨hv, rfl⟩
    · rintro ⟨hv, hitem⟩
      exact ⟨item.1, hv, Prod.ext rfl hitem.symm⟩

theorem entryToMeta_kept (h : item ∈ keptReleases sv releases cdnBase mirroredAssets) :
    ∃ m, entryToMeta sv item.2 = some m ∧ m.version = item.1 ∧
      m.isPrerelease sv = item.2.isPrerelease sv item.1 := by
  obtain ⟨r, -, hdraft, hparse, hitem⟩ := mem_keptReleases.1 h
  have hentry : item.2.draft = false ∧ parseTag sv item.2.tagName = some item.1 := by
    rw [hitem]
    exact ⟨hdraft, hparse⟩
  have hmeta : entryToMeta sv item.2 = some ⟨item.1, item.2.tagName, item.2.prerelease,
      item.2.assets.map fun a => ⟨a.name, a.browserDownloadUrl, a.size⟩, item.2.body⟩ := by
    simp only [entryToMeta, hentry.1, hentry.2, Bool.false_eq_true, if_false, Option.map_some]
  exact ⟨_, hmeta, rfl, rfl⟩

theorem offers_list {v : V} {pre : Bool} :
    Offers sv (releases.filterMap (entryToMeta sv)) v pre ↔
      ∃ item ∈ ofKind sv pre (keptReleases sv releases cdnBase mirroredAssets), item.1 = v := by
  constructor
  · rintro ⟨m, hm, rfl, rfl⟩
    obtain ⟨r, hr, hmeta⟩ := mem_filterMap.1 hm
    cases hdraft : r.draft with
    | true => simp [entryToMeta, hdraft] at hmeta
    | false =>
      simp only [entryToMeta, hdraft, Bool.false_eq_true, if_false, Option.map_eq_some_iff] at hmeta
      obtain ⟨v, hv, rfl⟩ := hmeta
      have hkept : (v, rewriteUrls cdnBase mirroredAssets r) ∈
          keptReleases sv releases cdnBase mirroredAssets :=
        mem_keptReleases.2 ⟨r, hr, hdraft, hv, rfl⟩
      exact ⟨_, mem_filter.2 ⟨hkept, beq_self_eq_true _⟩, rfl⟩
  · rintro ⟨item, hitem, rfl⟩
    obtain ⟨hkept, hpre⟩ := mem_filter.1 hitem
    obtain ⟨r, hr, hdraft, hparse, hrewritten⟩ := mem_keptReleases.1 hkept
    have hmeta : entryToMeta sv r = some ⟨item.1, r.tagName, r.prerelease,
        r.assets.map fun a => ⟨a.name, a.browserDownloadUrl, a.size⟩, r.body⟩ := by
      simp only [entryToMeta, hdraft, hparse, Bool.false_eq_true, if_false, Option.map_some]
    refine ⟨_, mem_filterMap.2 ⟨r, hr, hmeta⟩, rfl, ?_⟩
    rw [hrewritten] at hpre
    exact beq_iff_eq.1 hpre

theorem offers_manifest {v : V} {pre : Bool} :
    let latest := latestOf sv (keptReleases sv releases cdnBase mirroredAssets)
    Offers sv (manifestToReleases sv (buildManifests sv releases cdnBase mirroredAssets).2) v pre ↔
      ∃ item, (latest.1 = some item ∨ latest.2 = some item) ∧ item.1 = v ∧
        item.2.isPrerelease sv item.1 = pre := by
  intro latest
  have hmem : ∀ e, e ∈ latest.1.map Prod.snd ∨ e ∈ latest.2.map Prod.snd ↔
      ∃ item, (latest.1 = some item ∨ latest.2 = some item) ∧ item.2 = e := by
    intro e
    simp only [Option.mem_def, Option.map_eq_some_iff, or_and_right, exists_or]
  simp only [Offers, manifestToReleases, buildManifests_eq, mem_filterMap, mem_append,
    Option.mem_toList]
  constructor
  · rintro ⟨m, ⟨e, he, hm⟩, rfl, rfl⟩
    obtain ⟨item, hitem, rfl⟩ := (hmem e).1 he
    obtain ⟨m', hm', hversion, hpre⟩ := entryToMeta_kept (mem_of_latestOf hitem)
    obtain rfl := Option.some.inj (hm.symm.trans hm')
    exact ⟨item, hitem, hversion.symm, hpre.symm⟩
  · rintro ⟨item, hitem, rfl, rfl⟩
    obtain ⟨m, hm, hversion, hpre⟩ := entryToMeta_kept (mem_of_latestOf hitem)
    exact ⟨m, ⟨item.2, (hmem _).2 ⟨item, hitem, rfl⟩, hm⟩, hversion, hpre⟩

section

variable (sv : Semver V) (releases : List ReleaseEntry) (cdnBase : Str)
  (mirroredAssets : List (Str × Str))

theorem latestStable_manifest : runningMax id (stableVersions sv
    (manifestToReleases sv (buildManifests sv releases cdnBase mirroredAssets).2)) =
      runningMax id (stableVersions sv (releases.filterMap (entryToMeta sv))) := by
  have hlist : ∀ v, Offers sv (releases.filterMap (entryToMeta sv)) v false ↔
      ∃ item ∈ ofKind sv false (keptReleases sv releases cdnBase mirroredAssets), item.1 = v :=
    fun _ => offers_list
  refine Option.ext fun m => ?_
  rw [runningMax_id_eq_some_iff, runningMax_id_eq_some_iff]
  simp only [mem_stableVersions, hlist, offers_manifest]
  rw [isGreatest_stable]
  -- of the manifest's releases only the stable one counts here
  constructor
  · rintro ⟨⟨item, hitem, rfl, hpre⟩, -⟩
    refine ⟨item, hitem.resolve_right fun h => ?_, rfl⟩
    rw [kind_of_latestOf.2 h] at hpre
    cases hpre
  · rintro ⟨item, hitem, rfl⟩
    refine ⟨⟨item, .inl hitem, rfl, kind_of_latestOf.1 hitem⟩, ?_⟩
    rintro _ ⟨other, hother, rfl, hpre⟩
    rcases hother with hother | hother
    · rw [Option.some.inj (hother.symm.trans hitem)]
    · rw [kind_of_latestOf.2 hother] at hpre
      cases hpre

theorem mem_versions_list {v : V} : v ∈ (releases.filterMap (entryToMeta sv)).map (·.version) ↔
    ∃ item ∈ keptReleases sv releases cdnBase mirroredAssets, item.1 = v := by
  rw [mem_versions sv]
  constructor
  · rintro ⟨pre, hpre⟩
    obtain ⟨item, hitem, rfl⟩ := offers_list.1 hpre
    exact ⟨item, (mem_filter.1 hitem).1, rfl⟩
  · rintro ⟨item, hitem, rfl⟩
    exact ⟨_, offers_list.2 ⟨item, mem_filter.2 ⟨hitem, beq_self_eq_true _⟩, rfl⟩⟩

theorem mem_versions_manifest {v : V} : v ∈
    (manifestToReleases sv (buildManifests sv releases cdnBase mirroredAssets).2).map (·.version) ↔
      let latest := latestOf sv (keptReleases sv releases cdnBase mirroredAssets)
      ∃ item, (latest.1 = some item ∨ latest.2 = some item) ∧ item.1 = v := by
  rw [mem_versions sv]
  constructor
  · rintro ⟨pre, hpre⟩
    obtain ⟨item, hitem, rfl, -⟩ := offers_manifest.1 hpre
    exact ⟨item, hitem, rfl⟩
  · rintro ⟨item, hitem, rfl⟩
    exact ⟨_, offers_manifest.2 ⟨item, hitem, rfl, rfl⟩⟩

theorem latestEdge_manifest : runningMax id
    ((manifestToReleases sv (buildManifests sv releases cdnBase mirroredAssets).2).map (·.version)) =
      runningMax id ((releases.filterMap (entryToMeta sv)).map (·.version)) := by
  refine Option.ext fun m => ?_
  rw [runningMax_id_eq_some_iff, runningMax_id_eq_some_iff]
  simp only [mem_versions_list sv releases cdnBase mirroredAssets, mem_versions_manifest]
  exact isGreatest_all.symm

theorem mem_manifests {e : ReleaseEntry}
    (h : let m := buildManifests sv releases cdnBase mirroredAssets
      e ∈ m.1 ∨ m.2.stable = some e ∨ m.2.rc = some e) :
    ∃ r ∈ releases, r.draft = false ∧ (parseTag sv r.tagName).isSome ∧
      e = rewriteUrls cdnBase mirroredAssets r := by
  have hkept : ∃ item ∈ keptReleases sv releases cdnBase mirroredAssets, item.2 = e := by
    simp only [buildManifests_eq, mem_map, Option.map_eq_some_iff] at h
    rcases h with h | ⟨item, hitem, rfl⟩ | ⟨item, hitem, rfl⟩
    · exact h
    · exact ⟨item, mem_of_latestOf (.inl hitem), rfl⟩
    · exact ⟨item, mem_of_latestOf (.inr hitem), rfl⟩
  obtain ⟨item, hitem, rfl⟩ := hkept
  obtain ⟨r, hr, hdraft, hparse, hrewritten⟩ := mem_keptReleases.1 hitem
  exact ⟨r, hr, hdraft, hparse ▸ rfl, hrewritten⟩

/-- For every list of releases, channel and running version, the manifest leads to the same decision
as the whole list; and the URL of an asset in the manifests is the CDN's where exactly that asset is
mirrored, and the release's own elsewhere. -/
theorem manifest_decides_as_list (channel : Channel) (current : V) :
    let m := buildManifests sv releases cdnBase mirroredAssets
    selectTarget sv (manifestToReleases sv m.2) channel current =
      selectTarget sv (releases.filterMap (entryToMeta sv)) channel current ∧
    ∀ e, e ∈ m.1 ∨ m.2.stable = some e ∨ m.2.rc = some e →
      ∃ r ∈ releases, r.draft = false ∧ (parseTag sv r.tagName).isSome ∧ e.tagName = r.tagName ∧
        e.assets.length = r.assets.length ∧ ∀ (i : Nat) (a b : AssetEntry),
          e.assets[i]? = some a → r.assets[i]? = some b →
          a.name = b.name ∧ a.size = b.size ∧ a.browserDownloadUrl =
            if (r.tagName, b.name) ∈ mirroredAssets then cdnUrl cdnBase r.tagName b.name
            else b.browserDownloadUrl := by
  have hstable := latestStable_manifest sv releases cdnBase mirroredAssets
  have hedge := latestEdge_manifest sv releases cdnBase mirroredAssets
  unfold runningMax at hstable hedge
  refine ⟨by simp only [selectTarget, foldl_selectStep, hstable, hedge], fun e he => ?_⟩
  obtain ⟨r, hr, hdraft, hparse, rfl⟩ := mem_manifests sv releases cdnBase mirroredAssets he
  refine ⟨r, hr, hdraft, hparse, rfl, by simp [rewriteUrls], fun i a b ha hb => ?_⟩
  simp only [rewriteUrls, getElem?_map, hb, Option.map_some, Option.some.injEq] at ha
  subst ha
  exact ⟨rfl, rfl, rfl⟩

end

end Orcker.Update
