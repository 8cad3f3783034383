import Orcker.Daemon.RemoveDomain

/-!
# Linking and unlinking, seen from the other sites

`Link` moves what is stored under a document root to the new name, `Unlink` moves it back when the
directory will be found again. A directory can at the same time be a parked site under its own name.
-/

namespace Orcker.Daemon

open Base Orcker.Core Orcker.Schema List

theorem nodup_of_checkDistinct {α : Type} {before after : α → Except ConfigError Unit}
    {key : α → Str} {duplicate : ValidateErrorReason} {seen : StrSet} {l : List α}
    (h : checkDistinct before key duplicate after seen l = .ok ()) :
    (l.map key).Nodup ∧ ∀ a ∈ l, key a ∉ seen := by
  induction l generalizing seen with
  | nil => simp
  | cons a l ih =>
    rw [checkDistinct, check_bind_eq_ok_iff] at h
    obtain ⟨-, h⟩ := h
    split at h
    · cases h
    rename_i hnew
    rw [check_bind_eq_ok_iff] at h
    obtain ⟨hnodup, hseen⟩ := ih h.2
    have hmem : ∀ b ∈ l, key b ≠ key a ∧ key b ∉ seen := by
      intro b hb
      have := hseen b hb
      rw [Std.ExtTreeSet.mem_insert, Std.compare_eq_iff_eq, not_or] at this
      exact ⟨Ne.symm this.1, this.2⟩
    rw [map_cons, nodup_cons, forall_mem_cons]
    refine ⟨⟨?_, hnodup⟩, hnew, fun b hb => (hmem b hb).2⟩
    intro h
    obtain ⟨b, hb, heq⟩ := mem_map.1 h
    exact (hmem b hb).1 heq

theorem nodup_linkedNames {c : Config} (h : validate c = .ok ()) : (linkedNames c).Nodup := by
  have hunique : validateUniqueLinked c = .ok () := (validate_eq_ok_iff.1 h).2.1
  have hnodup := (nodup_of_checkDistinct hunique).1
  rwa [map_id] at hnodup

/-- Construction finds the same delta and rules for `s'` as for `s` before. -/
@[mk_iff] structure SameLookups (cfg cfg' : Config) (s s' : Site) : Prop where
  delta : deltaFor cfg' s' = deltaFor cfg s
  proxyRules : rulesOf cfg'.proxyRules.linked cfg'.proxyRules.parked s' =
    rulesOf cfg.proxyRules.linked cfg.proxyRules.parked s
  routeRules : rulesOf cfg'.routeRules.linked cfg'.routeRules.parked s' =
    rulesOf cfg.routeRules.linked cfg.routeRules.parked s

/-- Every site but `n` that both scans have keeps what is looked up for it. -/
def LeavesOthers (cfg cfg' : Config) (sites sites' : List Site) (n : Str) : Prop :=
  ∀ s ∈ sites, ∀ s' ∈ sites', s'.name = s.name → s'.documentRoot = s.documentRoot →
    s.name.text ≠ n → SameLookups cfg cfg' s s'

section Lookups

variable {α : Type} {linked parked : StrMap α} {s s' : Site} {n key : Str}

theorem rulesOf_congr (hname : s'.name = s.name) (hroot : s'.documentRoot = s.documentRoot)
    (hkind : s'.kind = s.kind) : rulesOf linked parked s' = rulesOf linked parked s := by
  rw [rulesOf, rulesOf, hname, hroot, hkind]

theorem rulesOf_moved_iff (hname : s.name.text ≠ n) :
    rulesOf (moveEntry parked linked key n).2 (moveEntry parked linked key n).1 s =
        rulesOf linked parked s ↔
      (s.kind = .parked → overrideKey s = key → parked[key]? = none) := by
  rw [rulesOf, rulesOf]
  cases s.kind with
  | linked =>
    simp only [getElem?_moveEntry_snd, if_neg hname, reduceCtorEq, IsEmpty.forall_iff]
  | parked =>
    simp only [getElem?_moveEntry_fst, forall_const]
    show (if overrideKey s = key then none else parked[overrideKey s]?) = parked[overrideKey s]? ↔ _
    by_cases hkey : overrideKey s = key
    · rw [if_pos hkey, hkey, eq_comm]
      exact ⟨fun h _ => h, fun h => h rfl⟩
    · rw [if_neg hkey]
      exact ⟨fun _ h => absurd h hkey, fun _ => rfl⟩

theorem rulesOf_demoted_iff {reparks : Bool} (hname : s.name.text ≠ n) :
    rulesOf (demote reparks linked parked n key).1 (demote reparks linked parked n key).2 s =
        rulesOf linked parked s ↔
      (reparks = true → s.kind = .parked → overrideKey s = key →
        linked[n]? = none ∨ linked[n]? = parked[key]?) := by
  have herase : (linked.erase n)[s.name.text]? = linked[s.name.text]? := by
    rw [OrdMap.getElem?_erase, if_neg hname]
  rw [rulesOf, rulesOf, demote]
  cases reparks with
  | false => cases s.kind <;> simp [herase]
  | true =>
    cases s.kind with
    | linked => simp [getElem?_moveEntry_fst, hname]
    | parked =>
      simp only [if_true, getElem?_moveEntry_snd, forall_const]
      show (if overrideKey s = key then linked[n]?.or parked[overrideKey s]?
        else parked[overrideKey s]?) = parked[overrideKey s]? ↔ _
      by_cases hkey : overrideKey s = key
      · rw [if_pos hkey, hkey]
        cases linked[n]? <;> simp
      · rw [if_neg hkey]
        exact ⟨fun _ h => absurd h hkey, fun _ => rfl⟩

end Lookups

section Scans

variable {world : ScanWorld} {defaultPhp : PhpVersion} {cfg cfg' : Config} {sites sites' : List Site}
  {watch watch' : List Path} {n : Str} {s s' : Site}

/-- The configurations differ in the linked site `n` only, as far as a scan can see. -/
structure RelinksOnly (cfg cfg' : Config) (n : Str) : Prop where
  parked : cfg'.parked = cfg.parked
  overrides : cfg'.overrides = cfg.overrides
  linked : ∀ s : Site, s.name.text ≠ n → (s ∈ cfg'.linked ↔ s ∈ cfg.linked)

theorem RelinksOnly.mem_linkedNames (h : RelinksOnly cfg cfg' n) {m : Str} (hm : m ≠ n) :
    m ∈ linkedNames cfg' ↔ m ∈ linkedNames cfg := by
  rw [linkedNames, linkedNames, mem_map, mem_map]
  constructor
  · rintro ⟨s, hs, rfl⟩
    exact ⟨s, (h.linked s hm).1 hs, rfl⟩
  · rintro ⟨s, hs, rfl⟩
    exact ⟨s, (h.linked s hm).2 hs, rfl⟩

section

variable (h : RelinksOnly cfg cfg' n)
  (hscan : scanSites world defaultPhp cfg = .ok (sites, watch))
  (hscan' : scanSites world defaultPhp cfg' = .ok (sites', watch'))

include h hscan hscan'

theorem RelinksOnly.mem_sites (hs : s ∈ sites) (hn : s.name.text ≠ n) : s ∈ sites' := by
  obtain ⟨parked, rfl, hparked⟩ := scanSites_spec hscan
  obtain ⟨parked', rfl, hparked'⟩ := scanSites_spec hscan'
  rw [mem_append] at hs ⊢
  rcases hs with hs | hs
  · obtain ⟨root, hroot, entries, hread, entry, hentry, w, hsome⟩ := (hparked s).1 hs
    obtain ⟨hname, hbuild⟩ := scanEntry_eq_some_iff.1 hsome
    obtain ⟨hentryName, hlinked⟩ := parkedSiteName_eq_some_iff.1 hname
    refine .inl ((hparked' s).2 ⟨root, h.parked ▸ hroot, entries, hread, entry, hentry, w,
      scanEntry_eq_some_iff.2 ⟨parkedSiteName_eq_some_iff.2 ⟨hentryName, ?_⟩, ?_⟩⟩)
    · rw [h.mem_linkedNames hn]
      exact hlinked
    · rw [buildParkedSite, h.overrides]
      exact hbuild
  · exact .inr ((h.linked s hn).2 hs)

theorem RelinksOnly.kind_eq (hvalid : validate cfg = .ok ()) (hs : s ∈ sites)
    (hs' : s' ∈ sites') (hname : s'.name = s.name) (hn : s.name.text ≠ n) : s'.kind = s.kind := by
  obtain ⟨parked, rfl, hfound⟩ := scanSites_ok hscan
  obtain ⟨parked', rfl, hfound'⟩ := scanSites_ok hscan'
  have hlinked : s'.name.text ∈ linkedNames cfg' ↔ s.name.text ∈ linkedNames cfg := by
    rw [hname]
    exact h.mem_linkedNames hn
  rcases mem_append.1 hs with hs | hs
  · obtain ⟨root, -, dirName, hf⟩ := hfound s hs
    rcases mem_append.1 hs' with hs' | hs'
    · obtain ⟨root', -, dirName', hf'⟩ := hfound' s' hs'
      rw [hf.kind, hf'.kind]
    · exact absurd (hlinked.1 (mem_map_of_mem hs')) hf.notLinked
  · rcases mem_append.1 hs' with hs' | hs'
    · obtain ⟨root', -, dirName', hf'⟩ := hfound' s' hs'
      exact absurd (hlinked.2 (mem_map_of_mem hs)) hf'.notLinked
    · -- A valid configuration has one linked site of a name.
      have hmem := (h.linked s' (hname ▸ hn)).1 hs'
      rw [inj_on_of_nodup_map (nodup_linkedNames hvalid) hmem hs (congrArg _ hname)]

theorem RelinksOnly.leavesOthers_iff (hvalid : validate cfg = .ok ()) :
    LeavesOthers cfg cfg' sites sites' n ↔
      ∀ s ∈ sites, s.name.text ≠ n → SameLookups cfg cfg' s s := by
  constructor
  · intro hleaves s hs hn
    exact hleaves s hs s (h.mem_sites hscan hscan' hs hn) rfl rfl hn
  · intro hsame s hs s' hs' hname hroot hn
    have hkind := h.kind_eq hscan hscan' hvalid hs hs' hname hn
    have hlookups := hsame s hs hn
    refine ⟨?_, ?_, ?_⟩
    · exact (rulesOf_congr hname hroot hkind).trans hlookups.delta
    · exact (rulesOf_congr hname hroot hkind).trans hlookups.proxyRules
    · exact (rulesOf_congr hname hroot hkind).trans hlookups.routeRules

end

theorem name_of_siteLinked {name : Str} {path : Path} {php : PhpVersion} {site : Site}
    (h : Site.linked name path php = .ok site) :
    site.name.text = lower name ∧ overrideKey site = path.toStringLossy := by
  obtain ⟨siteName, hnew, rfl⟩ := map_eq_ok_iff.1 h
  refine ⟨?_, rfl⟩
  unfold SiteName.new at hnew
  split at hnew
  · rename_i text htext
    cases hnew
    exact (validateAndLowercaseName_eq_ok htext).1
  · cases hnew

theorem relinksOnly_linkedConfig (cfg : Config) (site : Site) :
    RelinksOnly cfg (linkedConfig cfg site) site.name.text where
  parked := rfl
  overrides := rfl
  linked := by
    intro s hn
    show s ∈ cfg.linked ++ [site] ↔ _
    rw [mem_append, mem_singleton]
    refine or_iff_left fun heq => hn (heq ▸ rfl)

theorem relinksOnly_unlinkedConfig (cfg : Config) (site : Site) :
    RelinksOnly cfg (unlinkedConfig cfg site) site.name.text where
  parked := rfl
  overrides := rfl
  linked := by
    intro s hn
    show s ∈ cfg.linked.filter (fun s => s.name.text ≠ site.name.text) ↔ _
    rw [mem_filter, decide_eq_true_eq]
    exact and_iff_left hn

/-- Nothing is stored under the document root. -/
def NothingParked (cfg : Config) (key : Str) : Prop :=
  cfg.domains.parked[key]? = none ∧ cfg.proxyRules.parked[key]? = none ∧
    cfg.routeRules.parked[key]? = none

/-- What is stored for the name `n`, if anything, is stored for `key` as well. -/
def NothingToMove (cfg : Config) (n key : Str) : Prop :=
  (cfg.domains.linked[n]? = none ∨ cfg.domains.linked[n]? = cfg.domains.parked[key]?) ∧
  (cfg.proxyRules.linked[n]? = none ∨ cfg.proxyRules.linked[n]? = cfg.proxyRules.parked[key]?) ∧
  (cfg.routeRules.linked[n]? = none ∨ cfg.routeRules.linked[n]? = cfg.routeRules.parked[key]?)

theorem sameLookups_linked_iff {site : Site} (hn : s.name.text ≠ site.name.text) :
    SameLookups cfg (linkedConfig cfg site) s s ↔
      (s.kind = .parked → overrideKey s = overrideKey site →
        NothingParked cfg (overrideKey site)) := by
  rw [sameLookups_iff, NothingParked]
  refine (and_congr (rulesOf_moved_iff hn)
    (and_congr (rulesOf_moved_iff hn) (rulesOf_moved_iff hn))).trans ?_
  simp only [imp_and]

theorem sameLookups_unlinked_iff {site : Site} (hn : s.name.text ≠ site.name.text) :
    SameLookups cfg (unlinkedConfig cfg site) s s ↔
      (parentIsParkedRoot cfg (overrideKey site) = true → s.kind = .parked →
        overrideKey s = overrideKey site →
          NothingToMove cfg site.name.text (overrideKey site)) := by
  rw [sameLookups_iff, NothingToMove]
  refine (and_congr (rulesOf_demoted_iff hn)
    (and_congr (rulesOf_demoted_iff hn) (rulesOf_demoted_iff hn))).trans ?_
  simp only [imp_and]

/-- For every valid configuration and every tree. `Link` leaves the other sites
alone if none of them reads an entry under the linked document root; `Unlink` if
it names a project, or if no other site reads the entry that moves back. -/
theorem link_unlink_leave_others_iff (hvalid : validate cfg = .ok ())
    (hscan : scanSites world defaultPhp cfg = .ok (sites, watch)) (router : SiteRouter)
    (name : Str) (canonical : Option Path) (php : PhpVersion) (c' : Config) (applied : Applied)
    (hscan' : scanSites world defaultPhp c' = .ok (sites', watch')) :
    (∀ path, apply cfg router (.link path name) canonical php = .ok (c', applied) →
      (LeavesOthers cfg c' sites sites' (lower name) ↔
        ∀ s ∈ sites, s.name.text ≠ lower name → s.kind = .parked →
          canonical.map Path.toStringLossy = some (overrideKey s) →
            NothingParked cfg (overrideKey s))) ∧
    (apply cfg router (.unlink name) canonical php = .ok (c', applied) →
      (LeavesOthers cfg c' sites sites' (lower name) ↔
        (∃ p ∈ cfg.projects, p.name.text = lower name) ∨
        ∀ site ∈ cfg.linked, site.name.text = lower name →
          parentIsParkedRoot cfg (overrideKey site) = true →
          ∀ s ∈ sites, s.name.text ≠ lower name → s.kind = .parked →
            overrideKey s = overrideKey site →
              NothingToMove cfg (lower name) (overrideKey site))) := by
  refine ⟨fun path happly => ?_, fun happly => ?_⟩
  · obtain ⟨path, site, rfl, hsite, -, rfl⟩ := applyLink_ok happly
    obtain ⟨hname, hkey⟩ := name_of_siteLinked hsite
    rw [← hname, (relinksOnly_linkedConfig cfg site).leavesOthers_iff hscan hscan' hvalid]
    refine forall_congr' fun s => forall_congr' fun _ => forall_congr' fun hn => ?_
    rw [sameLookups_linked_iff hn, Option.map_some, Option.some.injEq, ← hkey]
    refine forall_congr' fun _ => ?_
    constructor
    · intro h heq
      exact heq ▸ h heq.symm
    · intro h heq
      exact heq ▸ h heq.symm
  · rcases applyUnlink_ok happly with ⟨hproject, rfl⟩ | ⟨hprojects, site, hsite, hname, rfl⟩
    · refine iff_of_true ?_ (.inl hproject)
      have honly : RelinksOnly cfg (withoutProject cfg (lower name)) (lower name) :=
        ⟨rfl, rfl, fun _ _ => Iff.rfl⟩
      rw [honly.leavesOthers_iff hscan hscan' hvalid]
      exact fun s _ _ => ⟨rfl, rfl, rfl⟩
    · rw [← hname] at hprojects ⊢
      rw [(relinksOnly_unlinkedConfig cfg site).leavesOthers_iff hscan hscan' hvalid,
        or_iff_right fun ⟨p, hp, hpname⟩ => hprojects p hp hpname]
      constructor
      · intro h site' hsite' hname' hreparks s hs hn hkind hkey
        -- The name is one linked site's.
        obtain rfl := inj_on_of_nodup_map (nodup_linkedNames hvalid) hsite' hsite hname'
        exact (sameLookups_unlinked_iff hn).1 (h s hs hn) hreparks hkind hkey
      · intro h s hs hn
        exact (sameLookups_unlinked_iff hn).2 fun hreparks => h site hsite rfl hreparks s hs hn

end Scans

def workSite : Site := .ofName .linked shopName (.ofStr "/work/shop") defaultPhp

def workConfig : Config := { blogConfig apiDomain none with linked := [workSite] }

theorem link_leaves_others_work :
    LeavesOthers (blogConfig apiDomain none) workConfig [blogSite .parked]
      [blogSite .parked, workSite] "shop".toList := by
  have hvalid : validate (blogConfig apiDomain none) = .ok () := by decide +kernel
  have hscan : scanSites blogWorld defaultPhp (blogConfig apiDomain none) =
      .ok ([blogSite .parked], []) := by decide +kernel
  have hscan' : scanSites blogWorld defaultPhp workConfig =
      .ok ([blogSite .parked, workSite], []) := by decide +kernel
  have hlink : apply (blogConfig apiDomain none)
      (build (blogConfig apiDomain none) [blogSite .parked]).router
      (.link "/work/shop" "shop") (some (.ofStr "/work/shop".toList)) defaultPhp =
        .ok (workConfig, ⟨"linked shop"⟩) := by decide +kernel
  have hlower : lower "shop".toList = "shop".toList := by decide +kernel
  have hiff := ((link_unlink_leave_others_iff hvalid hscan _ _ _ _ _ _ hscan').1 _ hlink).2
  rw [hlower] at hiff
  refine hiff fun s hs _ _ hkey => ?_
  obtain rfl := mem_singleton.1 hs
  exact absurd hkey (by decide +kernel)

/-- Linking the directory of the parked site `blog` as `shop` takes the domains
of `blog`, which stays. -/
theorem link_strips_other_site :
    validate (blogConfig apiDomain none) = .ok () ∧
      scanSites blogWorld defaultPhp (blogConfig apiDomain none) =
        .ok ([blogSite .parked], []) ∧
      apply (blogConfig apiDomain none)
          (build (blogConfig apiDomain none) [blogSite .parked]).router
          (.link "/srv/sites/blog" "shop") (some (.ofStr "/srv/sites/blog".toList)) defaultPhp =
        .ok (shopConfig (some ⟨[apiDomain], [], none⟩), ⟨"linked shop"⟩) ∧
      scanSites blogWorld defaultPhp (shopConfig (some ⟨[apiDomain], [], none⟩)) =
        .ok ([blogSite .parked, shopSite], []) ∧
      deltaFor (blogConfig apiDomain none) (blogSite .parked) = some ⟨[apiDomain], [], none⟩ ∧
      deltaFor (shopConfig (some ⟨[apiDomain], [], none⟩)) (blogSite .parked) = none := by
  decide +kernel

end Orcker.Daemon
