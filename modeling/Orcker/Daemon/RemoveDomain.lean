import Orcker.Daemon.AddDomain

/-!
# Removing a domain stops routing it

A domain is in the set of a claimant because it is added, because it is the apex, or both;
`RemoveDomain` edits one of the two.
-/

namespace Orcker.Daemon

open Base Orcker.Core Orcker.Schema List

/-- The effective set planned for a name: a site's, else a proxy's. -/
def domainsOf (cfg : Config) (sites : List Site) (n : Str) : List Domain :=
  let sitePlans := planSites cfg sites
  match sitePlans.find? fun p => p.site.name.text = n with
  | some plan => plan.effective
  | none =>
    match (planProxies cfg sitePlans).find? fun p => p.proxy.name.text = n with
    | some plan => plan.effective
    | none => []

theorem domainsOf_eq {cfg : Config} {sites : List Site} {e : Entrant}
    (he : e ∈ entrants cfg sites) (helig : e.eligible = true) :
    domainsOf cfg sites e.name.text = e.effective cfg.domains := by
  have hsite : ∀ n, (planSites cfg sites).find? (fun p => p.site.name.text = n) =
      ((firstSites sites).find? fun s => s.name.text = n).map fun s =>
        ⟨s, (planDomains s.name.toProxyName (deltaFor cfg s)).1,
          (planDomains s.name.toProxyName (deltaFor cfg s)).2⟩ := by
    intro n
    rw [planSites, find?_map]
    rfl
  rw [domainsOf]
  rcases mem_append.1 he with he | he
  · obtain ⟨s, hs, rfl⟩ := mem_map.1 he
    have hfind := (find?_eq_some_iff_of_nodup (nodup_firstSites sites)).2 ⟨hs, rfl⟩
    have hname : (siteEntrant s).name.text = s.name.text := rfl
    simp only [hname, hsite, hfind, Option.map_some]
    rw [deltaFor_eq]
    rfl
  · obtain ⟨p, hp, rfl⟩ := mem_map.1 he
    have hfree : p.name.text ∉ (firstSites sites).map fun s => s.name.text := by
      rw [proxyEntrant, Bool.not_eq_true', decide_eq_false_iff_not] at helig
      exact helig
    have hnone : (firstSites sites).find? (fun s => s.name.text = p.name.text) = none := by
      rw [find?_eq_none]
      intro s hs heq
      exact hfree (mem_map.2 ⟨s, hs, by simpa using heq⟩)
    have hnodup : ((firstProxies cfg).map fun p => p.name.text).Nodup := nodup_map_keepFirst _ _ _
    have hfind := (find?_eq_some_iff_of_nodup hnodup).2 ⟨hp, rfl⟩
    have hname : ∀ names, (proxyEntrant names p).name = p.name := fun _ => rfl
    have hproxy : (planProxies cfg (planSites cfg sites)).find?
        (fun q => q.proxy.name.text = p.name.text) = some
          ⟨p, (planDomains p.name cfg.domains.proxy[p.name.text]?).1,
            (planDomains p.name cfg.domains.proxy[p.name.text]?).2,
            p.name.text ∈ (planSites cfg sites).map fun p => p.site.name.text⟩ := by
      rw [planProxies, find?_map]
      show ((firstProxies cfg).find? fun q => q.name.text = p.name.text).map _ = _
      rw [hfind]
      rfl
    simp only [hname, hsite, hnone, Option.map_none, hproxy]
    rfl

section Without

variable {delta : DomainDelta} {name : ProxyName} {dom d : Domain} {added suppressed : List Domain}

theorem exists_exact_of_exactCount (h : exactCount (Domain.apex name) added suppressed ≠ 0) :
    Domain.apex name ∉ suppressed ∨ ∃ e ∈ added, e.isWildcard = false := by
  by_cases hapex : Domain.apex name ∈ suppressed
  · refine .inr ?_
    rw [exactCount, if_pos hapex, Nat.zero_add, ← Nat.pos_iff_ne_zero,
      length_filter_pos_iff] at h
    obtain ⟨e, he, hexact⟩ := h
    exact ⟨e, he, by simpa using hexact⟩
  · exact .inl hapex

theorem mem_effectiveDomains_of_exactCount
    (h : exactCount (Domain.apex name) added suppressed ≠ 0) :
    d ∈ effectiveDomains name added suppressed ↔
      (d = Domain.apex name ∧ Domain.apex name ∉ suppressed) ∨ d ∈ added := by
  rw [mem_effectiveDomains]
  refine or_congr_left (and_congr_right fun _ => or_iff_left_of_imp fun hwild => ?_)
  refine (exists_exact_of_exactCount h).resolve_right fun hex => ?_
  obtain ⟨e, he, hexact⟩ := hex
  rw [hwild e he] at hexact
  cases hexact

/-- The apex is wanted twice: it is added, and not suppressed. -/
def WantedTwice (delta : DomainDelta) (name : ProxyName) (dom : Domain) : Prop :=
  dom = Domain.apex name ∧ dom ∈ delta.added ∧ dom ∉ delta.suppressed

theorem mem_without_iff
    (hwithout : DomainDelta.without (Domain.apex name) dom delta = some (added, suppressed))
    (hcount : exactCount (Domain.apex name) added suppressed ≠ 0) :
    dom ∈ effectiveDomains name added suppressed ↔ WantedTwice delta name dom := by
  rw [mem_effectiveDomains_of_exactCount hcount]
  rw [DomainDelta.without] at hwithout
  split at hwithout
  · rename_i hadded
    cases hwithout
    constructor
    · rintro (⟨rfl, h⟩ | h)
      · exact ⟨rfl, hadded, h⟩
      · exact absurd rfl (of_decide_eq_true (mem_filter.1 h).2)
    · rintro ⟨rfl, -, h⟩
      exact .inl ⟨rfl, h⟩
  · rename_i hadded
    split at hwithout
    · rename_i hdom
      cases hwithout
      refine iff_of_false ?_ fun h => hadded h.2.1
      rintro (⟨-, h⟩ | h)
      · refine h ?_
        split
        · rename_i hmem
          exact hmem
        · exact mem_append_right _ mem_cons_self
      · exact hadded h
    · cases hwithout

theorem mem_without_of_ne
    (hwithout : DomainDelta.without (Domain.apex name) dom delta = some (added, suppressed))
    (hcount : exactCount (Domain.apex name) added suppressed ≠ 0) (hne : d ≠ dom)
    (hd : d ∈ effectiveOf delta name) : d ∈ effectiveDomains name added suppressed := by
  rw [mem_effectiveDomains_of_exactCount hcount]
  rw [mem_effectiveOf] at hd
  rw [DomainDelta.without] at hwithout
  split at hwithout
  · cases hwithout
    rcases hd with ⟨rfl, hd | hwild⟩ | hd
    · exact .inl ⟨rfl, hd⟩
    · -- Only wildcards were added, so the exact domain that is left is the apex.
      refine .inl ⟨rfl, (exists_exact_of_exactCount hcount).resolve_right ?_⟩
      rintro ⟨e, he, hexact⟩
      rw [hwild e (mem_filter.1 he).1] at hexact
      cases hexact
    · exact .inr (mem_filter.2 ⟨hd, decide_eq_true hne⟩)
  · split at hwithout
    · rename_i hdom
      cases hwithout
      exact .inr (hd.resolve_left fun h => hne (h.1.trans hdom.symm))
    · cases hwithout

end Without

/-- The domain is out of the set of `n` and not routed to it, an exact domain is
left, and nothing else of the set is lost. -/
structure IsRemoved (cfg cfg' : Config) (sites : List Site) (n : Str) (d : Domain) : Prop where
  gone : d ∉ domainsOf cfg' sites n
  unrouted : (build cfg' sites).router.domainOwner d ≠ some n
  exact : ∃ x ∈ domainsOf cfg' sites n, x.isWildcard = false
  kept : ∀ x ∈ domainsOf cfg sites n, x ≠ d → x ∈ domainsOf cfg' sites n

/-- The delta a mutation of the name `n` edits has the apex twice. -/
def ApexTwice (cfg : Config) (router : SiteRouter) (n : Str) (d : Domain) : Prop :=
  ∃ t claimant, resolveDomainTarget cfg router n = .ok (t, claimant) ∧
    WantedTwice (deltaOf cfg t) claimant d

section Removing

variable {world : ScanWorld} {defaultPhp : PhpVersion} {cfg : Config} {sites : List Site}
  {watch : List Path} {n : Str} {t : DomainTarget} {claimant : ProxyName} {e : Entrant}
  {d : Domain}

theorem domainOwner_ne_of_notMem (he : e ∈ entrants cfg sites) (helig : e.eligible = true)
    (h : d ∉ e.effective cfg.domains) :
    (build cfg sites).router.domainOwner d ≠ some e.name.text := by
  rw [Ne, build_domainOwner_iff he helig]
  intro howner
  exact h (Entrant.wants_iff.1 (wants_of_owner howner).2).2

theorem domainsOf_of_misfiled (hmis : Misfiled cfg (build cfg sites).router n)
    (delta : Option DomainDelta) :
    domainsOf { cfg with domains := (DomainTarget.linked n).put cfg.domains delta } sites n =
      domainsOf cfg sites n := by
  obtain ⟨-, s, hs, hkind⟩ := hmis
  obtain ⟨hmem, rfl⟩ := siteEntrant_mem hs
  have hbefore := domainsOf_eq hmem rfl
  have hafter := @domainsOf_eq
    { cfg with domains := (DomainTarget.linked s.name.text).put cfg.domains delta } sites
    (siteEntrant s) hmem rfl
  have hsource : (siteEntrant s).source = .parked (overrideKey s) := by
    show siteSource s = _
    rw [siteSource, hkind]
  refine hafter.trans (Eq.trans ?_ hbefore.symm)
  rw [effective_eq, effective_eq, DomainTarget.get_put, if_neg]
  rw [hsource]
  exact DomainTarget.noConfusion

theorem isRemoved_iff_of_misfiled (hmis : Misfiled cfg (build cfg sites).router n)
    (delta : DomainDelta) :
    IsRemoved cfg (storeDelta cfg (.linked n) delta) sites n d ↔ d ∉ domainsOf cfg sites n := by
  have hsame : domainsOf (storeDelta cfg (.linked n) delta) sites n = domainsOf cfg sites n :=
    domainsOf_of_misfiled hmis _
  obtain ⟨-, s, hs, -⟩ := hmis
  obtain ⟨hmem, rfl⟩ := siteEntrant_mem hs
  have hmem' : siteEntrant s ∈ entrants (storeDelta cfg (.linked s.name.text) delta) sites := hmem
  have hafter := domainsOf_eq hmem' rfl
  constructor
  · intro h
    rw [← hsame]
    exact h.gone
  · intro h
    rw [← hsame] at h
    refine ⟨h, ?_, ?_, fun x hx _ => hsame ▸ hx⟩
    · refine domainOwner_ne_of_notMem hmem' rfl ?_
      rw [← hafter]
      exact h
    · exact hafter ▸ effective_eq .. ▸ exists_exact_effectiveDomains _ _ _

theorem isRemoved_iff (hreader : Reader cfg sites t e) {added suppressed : List Domain}
    (hwithout : DomainDelta.without (Domain.apex e.name) d (deltaOf cfg t) =
      some (added, suppressed))
    (hcount : exactCount (Domain.apex e.name) added suppressed ≠ 0) (primary : Option Domain) :
    IsRemoved cfg (storeDelta cfg t { added, suppressed, primary }) sites e.name.text d ↔
      ¬WantedTwice (deltaOf cfg t) e.name d := by
  have hmem : e ∈ entrants (storeDelta cfg t { added, suppressed, primary }) sites := hreader.mem
  have hbefore : domainsOf cfg sites e.name.text = effectiveOf (deltaOf cfg t) e.name := by
    rw [domainsOf_eq hreader.mem hreader.eligible, effective_eq_deltaOf, hreader.source]
  have heff : e.effective (storeDelta cfg t { added, suppressed, primary }).domains =
      effectiveDomains e.name added suppressed := by
    rw [effective_storeDelta, if_pos hreader.source]
    rfl
  have hafter := domainsOf_eq hmem hreader.eligible
  rw [heff] at hafter
  rw [← mem_without_iff hwithout hcount]
  constructor
  · intro h
    rw [← hafter]
    exact h.gone
  · intro h
    refine ⟨hafter ▸ h, ?_, ?_, fun x hx hne => ?_⟩
    · refine domainOwner_ne_of_notMem hmem hreader.eligible ?_
      rw [heff]
      exact h
    · rw [hafter]
      exact exists_exact_effectiveDomains _ _ _
    · rw [hafter]
      rw [hbefore] at hx
      exact mem_without_of_ne hwithout hcount hne hx

/-- For every scan: a successful `RemoveDomain` removes the domain unless the
edited delta has the apex twice, or is not the one the site reads; a successful
`ResetDomains` leaves the apex alone unless the edited delta is not the one the
site reads. -/
theorem removed_domain_iff (hscan : scanSites world defaultPhp cfg = .ok (sites, watch))
    (name : Str) (canonical : Option Path) (php : PhpVersion) (c' : Config) (applied : Applied) :
    (∀ domain d, Domain.parse domain cfg.tld.text = .ok d →
      apply cfg (build cfg sites).router (.removeDomain name domain) canonical php =
        .ok (c', applied) →
      (IsRemoved cfg c' sites (lower name) d ↔
        (Misfiled cfg (build cfg sites).router (lower name) →
          d ∉ domainsOf cfg sites (lower name)) ∧
        (¬Misfiled cfg (build cfg sites).router (lower name) →
          ¬ApexTwice cfg (build cfg sites).router (lower name) d))) ∧
    (apply cfg (build cfg sites).router (.resetDomains name) canonical php = .ok (c', applied) →
      ((∃ apex, apex.sub = lower name ∧ domainsOf c' sites (lower name) = [apex]) ↔
        (Misfiled cfg (build cfg sites).router (lower name) →
          ∃ apex, apex.sub = lower name ∧ domainsOf cfg sites (lower name) = [apex]))) := by
  refine ⟨fun domain d hd happly => ?_, fun happly => ?_⟩
  · obtain ⟨t, claimant, dom, added, suppressed, hresolve, hdom, hwithout, hcount, primary, rfl⟩ :=
      applyRemoveDomain_ok happly
    obtain rfl : dom = d := by
      rw [hd, Except.ok.injEq] at hdom
      exact hdom.symm
    rcases reader_of_resolve hscan hresolve with ⟨hmis, rfl⟩ | ⟨hmis, e, rfl, hname, hreader⟩
    · rw [isRemoved_iff_of_misfiled hmis]
      exact ⟨fun h => ⟨fun _ => h, fun h' => absurd hmis h'⟩, fun h => h.1 hmis⟩
    · have htwice : ApexTwice cfg (build cfg sites).router (lower name) dom ↔
          WantedTwice (deltaOf cfg t) e.name dom := by
        constructor
        · rintro ⟨t', claimant', hresolve', h⟩
          rw [hresolve] at hresolve'
          cases hresolve'
          exact h
        · intro h
          exact ⟨t, _, hresolve, h⟩
      rw [htwice]
      rw [← hname] at hmis ⊢
      rw [isRemoved_iff hreader hwithout hcount]
      exact ⟨fun h => ⟨fun h' => absurd h' hmis, fun _ => h⟩, fun h => h.2 hmis⟩
  · obtain ⟨t, claimant, hresolve, rfl⟩ := applyResetDomains_ok happly
    rcases reader_of_resolve hscan hresolve with ⟨hmis, rfl⟩ | ⟨hmis, e, rfl, hname, hreader⟩
    · rw [domainsOf_of_misfiled hmis]
      exact ⟨fun h _ => h, fun h => h hmis⟩
    · refine iff_of_true ⟨Domain.apex e.name, ?_, ?_⟩ fun h => absurd h hmis
      · rw [Domain.apex_eq]
        exact hname
      · have hmem : e ∈ entrants { cfg with domains := t.put cfg.domains none } sites := hreader.mem
        rw [← hname, domainsOf_eq hmem hreader.eligible, effective_eq, DomainTarget.get_put,
          if_pos hreader.source]
        exact effectiveOf_default e.name

end Removing

theorem removed_domain_blog :
    IsRemoved (blogConfig apiDomain none) parkedConfig [blogSite .parked] "blog".toList apiDomain ∧
      domainsOf parkedConfig [blogSite .parked] "blog".toList =
        [Domain.apex blogName.toProxyName] := by
  have hscan : scanSites blogWorld defaultPhp (blogConfig apiDomain none) =
      .ok ([blogSite .parked], []) := by decide +kernel
  have hmis : ¬Misfiled (blogConfig apiDomain none)
      (build (blogConfig apiDomain none) [blogSite .parked]).router "blog".toList :=
    fun h => absurd h.1 (by decide +kernel)
  have hapex : apiDomain ≠ Domain.apex blogName.toProxyName := by decide +kernel
  have htwice : ¬ApexTwice (blogConfig apiDomain none)
      (build (blogConfig apiDomain none) [blogSite .parked]).router "blog".toList apiDomain := by
    rintro ⟨t, claimant, hresolve, heq, -⟩
    rw [show resolveDomainTarget _ _ _ = .ok (.parked "/srv/sites/blog".toList,
      blogName.toProxyName) by decide +kernel] at hresolve
    cases hresolve
    exact hapex heq
  have hremoved := removed_domain_iff hscan "blog" none defaultPhp parkedConfig
  have hfirst := ((hremoved ⟨"removed api.test from blog"⟩).1 "api.test" apiDomain
    (by decide +kernel) (by decide +kernel)).2
  have hsecond := ((hremoved ⟨"blog domains reset to default"⟩).2 (by decide +kernel)).2
  rw [show lower "blog".toList = "blog".toList by decide +kernel] at hfirst hsecond
  refine ⟨hfirst ⟨fun h => absurd h hmis, fun _ => htwice⟩, ?_⟩
  obtain ⟨apex, hapex, hset⟩ := hsecond fun h => absurd h hmis
  have hblog : (Domain.apex blogName.toProxyName).sub = "blog".toList := by decide +kernel
  rw [hset, Domain.ext (hapex.trans hblog.symm)]

def shopName : SiteName := ⟨"shop", by decide +kernel⟩

def shopDomain : Domain := ⟨"shop", by decide +kernel⟩

def shopSite : Site := .ofName .linked shopName (.ofStr "/srv/sites/blog") defaultPhp

/-- `shop.test` was added to the parked site `blog`, whose directory was then
linked as `shop`. -/
def shopConfig (delta : Option DomainDelta) : Config :=
  { parkedConfig with linked := [shopSite], domains := ⟨OrdMap.put ∅ "shop" delta, ∅, ∅⟩ }

theorem reached_shopConfig : Reached twoTexts (shopConfig (some ⟨[shopDomain], [], none⟩)) := by
  have hadd : apply parkedConfig (build parkedConfig [blogSite .parked]).router
      (.addDomain "blog" "shop.test") none defaultPhp =
        .ok (blogConfig shopDomain none, ⟨"added shop.test to blog"⟩) := by decide +kernel
  have hlink : apply (blogConfig shopDomain none)
      (build (blogConfig shopDomain none) [blogSite .parked]).router
      (.link "/srv/sites/blog" "shop") (some (.ofStr "/srv/sites/blog")) defaultPhp =
        .ok (shopConfig (some ⟨[shopDomain], [], none⟩), ⟨"linked shop"⟩) := by decide +kernel
  refine .apply (.apply reached_parkedConfig _ _ _ hadd ?_) _ _ _ hlink ?_
  · decide +kernel
  · decide +kernel

/-- The removal is acknowledged, and the domain stays. -/
theorem removed_apex_still_routed :
    Reached twoTexts (shopConfig (some ⟨[shopDomain], [], none⟩)) ∧
      scanSites blogWorld defaultPhp (shopConfig (some ⟨[shopDomain], [], none⟩)) =
        .ok ([blogSite .parked, shopSite], []) ∧
      Domain.parse "shop.test".toList (shopConfig (some ⟨[shopDomain], [], none⟩)).tld.text =
        .ok shopDomain ∧
      apply (shopConfig (some ⟨[shopDomain], [], none⟩))
          (build (shopConfig (some ⟨[shopDomain], [], none⟩)) [blogSite .parked, shopSite]).router
          (.removeDomain "shop" "shop.test") none defaultPhp =
        .ok (shopConfig none, ⟨"removed shop.test from shop"⟩) ∧
      shopDomain ∈ domainsOf (shopConfig none) [blogSite .parked, shopSite] "shop".toList ∧
      (build (shopConfig none) [blogSite .parked, shopSite]).router.domainOwner shopDomain =
        some "shop".toList := by
  refine ⟨reached_shopConfig, ?_⟩
  decide +kernel

end Orcker.Daemon
