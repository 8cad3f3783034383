import Orcker.Base.Lines

/-!
# Reconciling the CDN with the published releases
-/

namespace Orcker.Update

open Base List

structure ExpectedAsset where
  tag : Str
  name : Str
  size : Nat
  sha256 : Option Str
  deriving DecidableEq

def ExpectedAsset.cdnPath (e : ExpectedAsset) : Str := "releases/" ++ e.tag ++ "/" ++ e.name

structure CdnObject where
  path : Str
  size : Nat
  checksum : Option Str
  deriving DecidableEq

/-- The tag of `releases/<tag>/<name>`. -/
def CdnObject.tag (o : CdnObject) : Option Str :=
  match o.path.splitOn '/' with
  | [releases, tag, name] =>
    if releases = "releases" ∧ tag ≠ [] ∧ name ≠ [] then some tag else none
  | _ => none

/-- Uploads what is missing, uploads again what differs and deletes what nobody expects. -/
structure ReconcilePlan where
  toUpload : List ExpectedAsset
  toUpdate : List ExpectedAsset
  toDelete : List Str
  deriving DecidableEq

/-- Both are known, and differ other than in case. -/
def checksumMismatch (expected cdn : Option Str) : Bool :=
  match expected, cdn with
  | some e, some c => lower e ≠ lower c
  | _, _ => false

/-- The object listed under a path; of several, the last. -/
def cdnByPath (cdn : List CdnObject) (path : Str) : Option CdnObject :=
  cdn.reverse.find? (·.path = path)

/-- In size, or in a checksum that is known. -/
def differs (exp : ExpectedAsset) (obj : CdnObject) : Bool :=
  obj.size ≠ exp.size || checksumMismatch exp.sha256 obj.checksum

/-- Does nothing expect this object, and is its tag unknown or published? -/
def stale (expected : List ExpectedAsset) (knownTags publicTags : List Str) (obj : CdnObject) :
    Bool :=
  if obj.path ∈ expected.map ExpectedAsset.cdnPath then false
  else
    match obj.tag with
    | none => false
    | some tag => tag ∉ knownTags || tag ∈ publicTags

/-- Only objects of unknown or published tags are deleted. -/
def reconcile (expected : List ExpectedAsset) (cdn : List CdnObject)
    (knownTags publicTags : List Str) : ReconcilePlan where
  toUpload := expected.filter fun exp => (cdnByPath cdn exp.cdnPath).isNone
  toUpdate := expected.filter fun exp => (cdnByPath cdn exp.cdnPath).any (differs exp)
  toDelete :=
    if expected.isEmpty then []
    else (cdn.filter (stale expected knownTags publicTags)).map (·.path)

/-- The object that stands for an uploaded asset. `listed` is the checksum the CDN lists for it. -/
def ExpectedAsset.stored (listed : ExpectedAsset → Option Str) (e : ExpectedAsset) : CdnObject :=
  ⟨e.cdnPath, e.size, listed e⟩

/-- The listing after the plan: deleted and replaced objects go, uploaded ones come. -/
def ReconcilePlan.apply (listed : ExpectedAsset → Option Str) (plan : ReconcilePlan)
    (cdn : List CdnObject) : List CdnObject :=
  let uploads := plan.toUpload ++ plan.toUpdate
  cdn.filter (fun o => o.path ∉ plan.toDelete && o.path ∉ uploads.map ExpectedAsset.cdnPath) ++
    uploads.map (ExpectedAsset.stored listed)

/-- Where an asset's checksum is known, the CDN lists it, in whatever case. -/
def ListsKnown (listed : ExpectedAsset → Option Str) : Prop :=
  ∀ e sum, e.sha256 = some sum → ∃ c, listed e = some c ∧ lower c = lower sum

variable {o : CdnObject}

theorem path_of_tag {tag : Str} (h : o.tag = some tag) :
    ∃ name, tag ≠ [] ∧ name ≠ [] ∧ '/' ∉ tag ∧ '/' ∉ name ∧
      o.path = "releases" ++ '/' :: (tag ++ '/' :: name) := by
  unfold CdnObject.tag at h
  split at h
  · next releases t name hsplit =>
    rw [Option.ite_none_right_eq_some] at h
    obtain ⟨⟨rfl, ht, hname⟩, heq⟩ := h
    obtain rfl := Option.some.inj heq
    have hfree : ∀ p ∈ o.path.splitOn '/', '/' ∉ p := fun p hp => notMem_of_mem_splitOn hp
    rw [hsplit] at hfree
    refine ⟨name, ht, hname, hfree t (by simp), hfree name (by simp), ?_⟩
    have hjoin : ['/'].intercalate (o.path.splitOn '/') = o.path := intercalate_splitOn '/'
    rw [← hjoin, hsplit]
    simp [intercalate_cons_cons]
  · cases h

theorem cdnByPath_eq_some_iff {cdn : List CdnObject} (hdistinct : (cdn.map (·.path)).Nodup)
    {path : Str} : cdnByPath cdn path = some o ↔ o ∈ cdn ∧ o.path = path := by
  have hfound : ∀ {o'}, cdnByPath cdn path = some o' → o' ∈ cdn ∧ o'.path = path := by
    intro o' h
    exact ⟨mem_reverse.1 (mem_of_find?_eq_some h), by simpa using find?_some h⟩
  refine ⟨hfound, fun ⟨hmem, hpath⟩ => ?_⟩
  cases hfind : cdnByPath cdn path with
  | none =>
    have := find?_eq_none.1 hfind o (mem_reverse.2 hmem)
    simp [hpath] at this
  | some o' =>
    obtain ⟨hmem', hpath'⟩ := hfound hfind
    rw [inj_on_of_nodup_map hdistinct hmem' hmem (hpath'.trans hpath.symm)]

section

variable {expected : List ExpectedAsset} {cdn : List CdnObject} {knownTags publicTags : List Str}
  {listed : ExpectedAsset → Option Str}

theorem mem_toDelete {path : Str} (h : path ∈ (reconcile expected cdn knownTags publicTags).toDelete) :
    ∃ o ∈ cdn, o.path = path ∧ stale expected knownTags publicTags o = true := by
  simp only [reconcile] at h
  split at h
  · cases h
  · obtain ⟨o, ho, rfl⟩ := mem_map.1 h
    exact ⟨o, (mem_filter.1 ho).1, rfl, (mem_filter.1 ho).2⟩

variable {o : CdnObject}

theorem path_notMem_of_stale (h : stale expected knownTags publicTags o = true) :
    o.path ∉ expected.map ExpectedAsset.cdnPath := by
  intro hmem
  simp [stale, hmem] at h

theorem stored_fits (hlisted : ListsKnown listed) (e : ExpectedAsset) :
    differs e (e.stored listed) = false := by
  have hsum : checksumMismatch e.sha256 (listed e) = false := by
    cases hsha : e.sha256 with
    | none => rfl
    | some sum =>
      obtain ⟨c, hc, hlower⟩ := hlisted e sum hsha
      simp [checksumMismatch, hc, hlower]
  simp [differs, ExpectedAsset.stored, hsum]

theorem mem_apply :
    let plan := reconcile expected cdn knownTags publicTags
    o ∈ plan.apply listed cdn ↔
      (o ∈ cdn ∧ o.path ∉ plan.toDelete ∧
        ∀ e ∈ expected, (cdnByPath cdn e.cdnPath).all (differs e) → e.cdnPath ≠ o.path) ∨
      ∃ e ∈ expected, (cdnByPath cdn e.cdnPath).all (differs e) ∧ e.stored listed = o := by
  intro plan
  have huploads : ∀ e, e ∈ plan.toUpload ++ plan.toUpdate ↔
      e ∈ expected ∧ (cdnByPath cdn e.cdnPath).all (differs e) := by
    intro e
    simp only [plan, reconcile, mem_append, mem_filter]
    cases cdnByPath cdn e.cdnPath <;> simp
  simp only [ReconcilePlan.apply, mem_append (s := cdn.filter _), mem_filter,
    Bool.and_eq_true, decide_eq_true_iff, mem_map, huploads, not_exists, not_and, and_assoc]

theorem nodup_uploads (hpaths : (expected.map ExpectedAsset.cdnPath).Nodup) :
    let plan := reconcile expected cdn knownTags publicTags
    ((plan.toUpload ++ plan.toUpdate).map ExpectedAsset.cdnPath).Nodup := by
  simp only [reconcile, map_append]
  refine nodup_append.2 ⟨hpaths.sublist (filter_sublist.map _),
    hpaths.sublist (filter_sublist.map _), ?_⟩
  rintro _ ha _ hb rfl
  obtain ⟨e, he, heq⟩ := mem_map.1 ha
  obtain ⟨e', he', heq'⟩ := mem_map.1 hb
  obtain ⟨he, hnone⟩ := mem_filter.1 he
  obtain ⟨he', hany⟩ := mem_filter.1 he'
  obtain rfl := inj_on_of_nodup_map hpaths he he' (heq.trans heq'.symm)
  rw [Option.isNone_iff_eq_none.1 hnone] at hany
  cases hany

theorem nodup_apply (hpaths : (expected.map ExpectedAsset.cdnPath).Nodup)
    (hcdn : (cdn.map (·.path)).Nodup) :
    (((reconcile expected cdn knownTags publicTags).apply listed cdn).map (·.path)).Nodup := by
  have hstored : ∀ l : List ExpectedAsset,
      (l.map (ExpectedAsset.stored listed)).map (·.path) = l.map ExpectedAsset.cdnPath := fun l => by
    rw [map_map]
    rfl
  unfold ReconcilePlan.apply
  rw [map_append, hstored]
  refine nodup_append.2 ⟨hcdn.sublist (filter_sublist.map _), nodup_uploads hpaths, ?_⟩
  rintro _ ha _ hb rfl
  obtain ⟨o, ho, rfl⟩ := mem_map.1 ha
  have hkept := (Bool.and_eq_true_iff.1 (mem_filter.1 ho).2).2
  exact of_decide_eq_true hkept hb

theorem expected_fits (hlisted : ListsKnown listed)
    (hpaths : (expected.map ExpectedAsset.cdnPath).Nodup) (hcdn : (cdn.map (·.path)).Nodup)
    {e : ExpectedAsset} (he : e ∈ expected) :
    ∃ o ∈ (reconcile expected cdn knownTags publicTags).apply listed cdn,
      o.path = e.cdnPath ∧ differs e o = false := by
  by_cases hupload : (cdnByPath cdn e.cdnPath).all (differs e) = true
  · exact ⟨e.stored listed, mem_apply.2 (.inr ⟨e, he, hupload, rfl⟩), rfl, stored_fits hlisted e⟩
  · -- an object that fits is neither deleted nor replaced
    cases hfound : cdnByPath cdn e.cdnPath with
    | none => simp [hfound] at hupload
    | some o =>
      obtain ⟨ho, hpath⟩ := (cdnByPath_eq_some_iff hcdn).1 hfound
      rw [hfound, Option.all_some, Bool.not_eq_true] at hupload
      refine ⟨o, mem_apply.2 (.inl ⟨ho, fun hdelete => ?_, fun e' he' hupload' heq => ?_⟩), hpath,
        hupload⟩
      · obtain ⟨o', -, hpath', hstale⟩ := mem_toDelete hdelete
        refine path_notMem_of_stale hstale ?_
        rw [hpath', hpath]
        exact mem_map_of_mem he
      · obtain rfl := inj_on_of_nodup_map hpaths he' he (heq.trans hpath)
        rw [hfound, Option.all_some, hupload] at hupload'
        cases hupload'

theorem not_stale_apply (hne : expected ≠ [])
    (h : o ∈ (reconcile expected cdn knownTags publicTags).apply listed cdn) :
    stale expected knownTags publicTags o = false := by
  by_contra hstale
  rw [Bool.not_eq_false] at hstale
  rcases mem_apply.1 h with ⟨ho, hkept, -⟩ | ⟨e, he, -, rfl⟩
  · refine hkept ?_
    simp only [reconcile, List.isEmpty_iff, hne, if_false]
    exact List.mem_map_of_mem (List.mem_filter.2 ⟨ho, hstale⟩)
  · exact path_notMem_of_stale hstale (mem_map_of_mem he)

end

/-- For expected assets and a listing with distinct paths, and any tags. After the plan has been
applied every expected asset is there, with its size and no checksum that contradicts, and nothing
is left to do. What the plan deletes is not expected and lies at `releases/<tag>/<name>`, of a tag
that is unknown or published; and when nothing is expected, nothing is deleted. -/
theorem reconcile_converges {listed : ExpectedAsset → Option Str} (hlisted : ListsKnown listed)
    {expected : List ExpectedAsset} {cdn : List CdnObject} (knownTags publicTags : List Str)
    (hpaths : (expected.map ExpectedAsset.cdnPath).Nodup) (hcdn : (cdn.map (·.path)).Nodup) :
    let plan := reconcile expected cdn knownTags publicTags
    let after := plan.apply listed cdn
    (∀ e ∈ expected, ∃ o ∈ after, o.path = e.cdnPath ∧ o.size = e.size ∧
      checksumMismatch e.sha256 o.checksum = false) ∧
    reconcile expected after knownTags publicTags = ⟨[], [], []⟩ ∧
    (∀ path ∈ plan.toDelete, path ∉ expected.map ExpectedAsset.cdnPath ∧
      ∃ tag name, tag ≠ [] ∧ name ≠ [] ∧ '/' ∉ tag ∧ '/' ∉ name ∧
        path = "releases".toList ++ '/' :: (tag ++ '/' :: name) ∧
        ¬ (tag ∈ knownTags ∧ tag ∉ publicTags)) ∧
    (expected = [] → plan.toDelete = []) := by
  intro plan after
  have hfits := fun e (he : e ∈ expected) =>
    @expected_fits expected cdn knownTags publicTags listed hlisted hpaths hcdn e he
  refine ⟨fun e he => ?_, ?_, fun path hpath => ?_, ?_⟩
  · obtain ⟨o, ho, hpath, hdiffers⟩ := hfits e he
    simp only [differs, Bool.or_eq_false_iff, decide_eq_false_iff_not, not_not] at hdiffers
    exact ⟨o, ho, hpath, hdiffers⟩
  · -- an asset that is found and fits is neither uploaded nor updated
    have hafter : ∀ e ∈ expected, ∃ o, cdnByPath after e.cdnPath = some o ∧ differs e o = false := by
      intro e he
      obtain ⟨o, ho, hpath, hdiffers⟩ := hfits e he
      exact ⟨o, (cdnByPath_eq_some_iff (nodup_apply hpaths hcdn)).2 ⟨ho, hpath⟩, hdiffers⟩
    refine ReconcilePlan.mk.injEq .. ▸ ⟨?_, ?_, ?_⟩
    · refine filter_eq_nil_iff.2 fun e he => ?_
      obtain ⟨o, ho, -⟩ := hafter e he
      simp [ho]
    · refine filter_eq_nil_iff.2 fun e he => ?_
      obtain ⟨o, ho, hdiffers⟩ := hafter e he
      simp [ho, hdiffers]
    · by_cases hne : expected = []
      · simp [hne]
      · simp only [List.isEmpty_iff, hne, if_false, List.map_eq_nil_iff, List.filter_eq_nil_iff]
        intro o ho
        rw [not_stale_apply hne ho]
        exact Bool.false_ne_true
  · obtain ⟨o, -, rfl, hstale⟩ := mem_toDelete hpath
    refine ⟨path_notMem_of_stale hstale, ?_⟩
    cases htag : o.tag with
    | none => simp [stale, htag] at hstale
    | some tag =>
      obtain ⟨name, ht, hname, htfree, hnfree, hpath⟩ := path_of_tag htag
      refine ⟨tag, name, ht, hname, htfree, hnfree, hpath, fun ⟨hknown, hprivate⟩ => ?_⟩
      simp [stale, htag, hknown, hprivate] at hstale
  · rintro rfl
    rfl

/-- One asset to upload, one to replace, one object to delete and one to keep. -/
theorem reconcile_converges_mixed :
    let expected : List ExpectedAsset := [⟨"v2", "a.deb", 10, some "ab"⟩, ⟨"v2", "b.deb", 20, none⟩]
    let cdn : List CdnObject := [⟨"releases/v2/b.deb", 7, none⟩, ⟨"releases/v1/a.deb", 9, none⟩,
      ⟨"releases/v3/a.deb", 9, none⟩]
    let plan := reconcile expected cdn ["v2", "v3"] ["v2"]
    plan.toDelete = ["releases/v1/a.deb".toList] ∧
      reconcile expected (plan.apply ExpectedAsset.sha256 cdn) ["v2", "v3"] ["v2"]
        = ⟨[], [], []⟩ := by
  intro expected cdn plan
  refine ⟨by decide +kernel, ?_⟩
  have hlisted : ListsKnown ExpectedAsset.sha256 := fun _ sum hsum => ⟨sum, hsum, rfl⟩
  exact (reconcile_converges hlisted ["v2", "v3"] ["v2"] (by decide +kernel)
    (by decide +kernel)).2.1

end Orcker.Update
