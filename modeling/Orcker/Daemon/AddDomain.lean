import Orcker.Daemon.DomainEdits
import Orcker.Daemon.SaveLoad

/-!
# Adding a domain and choosing a primary take effect

After a successful `AddDomain` or `SetPrimaryDomain` the rebuilt router gives the domain to the
name, takes nothing from anybody else and, for the latter, shows the domain as the name's primary.
-/

namespace Orcker.Daemon

open Base Orcker.Core Orcker.Schema

/-- The domain is routed to `n`, and no other claimant lost one. -/
structure TakesEffect (router router' : SiteRouter) (n : Str) (d : Domain) : Prop where
  owner : router'.domainOwner d = some n
  others : ∀ m x, m ≠ n → router.domainOwner x = some m → router'.domainOwner x = some m

/-- `n` is a parked site whose document root a second routed site of kind `parked`
has too, and the exact domain `dom` costs that one the apex it owns. -/
def Starves (cfg : Config) (router : SiteRouter) (n : Str) (dom : Domain) : Prop :=
  ∃ s s', n ∉ linkedNames cfg ∧ router.sites[n]? = some s ∧ router.sites[s'.name.text]? = some s' ∧
    s'.name.text ≠ n ∧ s'.kind = .parked ∧ overrideKey s' = overrideKey s ∧
    LosesApex (deltaOf cfg (.parked (overrideKey s))) s.name.toProxyName s'.name.toProxyName dom ∧
    router.domainOwner (Domain.apex s'.name.toProxyName) = some s'.name.text

section Effect

variable {world : ScanWorld} {defaultPhp : PhpVersion} {cfg : Config} {sites : List Site}
  {watch : List Path} {n : Str} {t : DomainTarget} {claimant : ProxyName} {e : Entrant}
  {dom : Domain} {delta : DomainDelta}

theorem starves_iff (hscan : scanSites world defaultPhp cfg = .ok (sites, watch))
    (hresolve : resolveDomainTarget cfg (build cfg sites).router n = .ok (t, claimant))
    (hreader : Reader cfg sites t e) (hname : e.name.text = n) :
    Starves cfg (build cfg sites).router n dom ↔
      ∃ e' ∈ entrants cfg sites, e' ≠ e ∧ e'.source = t ∧
        LosesApex (deltaOf cfg t) e.name e'.name dom ∧
        owner (entrants cfg sites) cfg.domains (Domain.apex e'.name) = some e' := by
  have hself : ∀ s, (build cfg sites).router.sites[n]? = some s → e = siteEntrant s := by
    intro s hs
    obtain ⟨hmem, hsname⟩ := siteEntrant_mem hs
    exact entrant_unique hreader.mem hreader.eligible hmem rfl (hname.trans hsname.symm)
  constructor
  · rintro ⟨s, s', hn, hs, hs', hne, hkind, hkey, hloses, howner⟩
    obtain rfl := hself s hs
    have hmem' := (siteEntrant_mem hs').1
    have ht : t = .parked (overrideKey s) :=
      hreader.source.symm.trans (reader_of_parked hscan hs hn).2.source
    subst ht
    refine ⟨siteEntrant s', hmem', ?_, ?_, hloses, ?_⟩
    · intro heq
      exact hne ((congrArg (fun e => e.name.text) heq).trans hname)
    · show siteSource s' = _
      rw [siteSource, hkind, hkey]
    · exact (build_domainOwner_iff hmem' rfl).1 howner
  · rintro ⟨e', he', hne, hsource, hloses, howner⟩
    -- Only a document root has two readers.
    obtain ⟨key, rfl⟩ := hreader.others e' he' hsource hne
    rcases resolveDomainTarget_ok hresolve with
      ⟨_, _, ht, -⟩ | ⟨hlinked, s, hs, ht, -⟩ | ⟨_, _, _, _, ht, -⟩
    · cases ht
    · cases ht
      obtain rfl := hself s hs
      obtain ⟨s', hs', hkind, hkey, rfl⟩ := source_eq_parked he' hsource
      refine ⟨s, s', notMem_linkedNames_iff.2 hlinked, hs, hs', ?_, hkind, hkey, hloses, ?_⟩
      · intro heq
        exact hne (entrant_unique he' rfl hreader.mem rfl (heq.trans hname.symm))
      · exact (build_domainOwner_iff he' rfl).2 howner
    · cases ht

/-- The stored delta is read by nobody, so routing stays as it was. -/
theorem build_of_misfiled (hmis : Misfiled cfg (build cfg sites).router n) (d : Domain) :
    (build (storeDelta cfg (.linked n) delta) sites).router.domainOwner d =
        (build cfg sites).router.domainOwner d ∧
      (build (storeDelta cfg (.linked n) delta) sites).router.primaryDomain n =
        (build cfg sites).router.primaryDomain n := by
  obtain ⟨-, s, hs, hkind⟩ := hmis
  have hget : ∀ e ∈ entrants cfg sites,
      e.source.get (storeDelta cfg (.linked n) delta).domains = e.source.get cfg.domains := by
    intro e he
    rw [storeDelta, DomainTarget.get_put, if_neg]
    intro hsource
    obtain ⟨s', hs', hkind', -⟩ := source_eq_linked he hsource
    rw [hs, Option.some.injEq] at hs'
    rw [← hs', hkind] at hkind'
    cases hkind'
  have heff : ∀ e ∈ entrants cfg sites,
      e.effective (storeDelta cfg (.linked n) delta).domains = e.effective cfg.domains := by
    intro e he
    rw [effective_eq, effective_eq, hget e he]
  have howner : ∀ d, (build (storeDelta cfg (.linked n) delta) sites).router.domainOwner d =
      (build cfg sites).router.domainOwner d := by
    intro d
    rw [build_domainOwner_eq, build_domainOwner_eq, ← owner_congr heff]
    rfl
  refine ⟨howner d, ?_⟩
  obtain ⟨hmem, hname⟩ := siteEntrant_mem hs
  have hmem' : siteEntrant s ∈ entrants (storeDelta cfg (.linked n) delta) sites := hmem
  have hprimary := build_primary hmem rfl
  have hprimary' := build_primary hmem' rfl
  rw [hget _ hmem] at hprimary'
  have hwon : wonDomains (storeDelta cfg (.linked n) delta) sites (siteEntrant s) =
      wonDomains cfg sites (siteEntrant s) := by
    rw [wonDomains, wonDomains, heff _ hmem]
    refine List.filter_congr fun d _ => ?_
    rw [howner]
  have hn : (siteEntrant s).name.text = n := hname
  rw [hwon, hn] at hprimary'
  rw [hn] at hprimary
  exact hprimary'.trans hprimary.symm

theorem takesEffect_iff_of_misfiled (hmis : Misfiled cfg (build cfg sites).router n) :
    TakesEffect (build cfg sites).router (build (storeDelta cfg (.linked n) delta) sites).router n
        dom ↔ (build cfg sites).router.domainOwner dom = some n := by
  have howner : ∀ d, (build (storeDelta cfg (.linked n) delta) sites).router.domainOwner d =
      (build cfg sites).router.domainOwner d := fun d => (build_of_misfiled hmis d).1
  constructor
  · intro h
    rw [← howner]
    exact h.owner
  · intro h
    refine ⟨(howner dom).trans h, fun m x _ hx => ?_⟩
    rw [howner]
    exact hx

/-- Where the claimant reads what is edited, a second reader that loses its apex
is all that can go wrong. -/
theorem takesEffect_iff (hscan : scanSites world defaultPhp cfg = .ok (sites, watch))
    (hresolve : resolveDomainTarget cfg (build cfg sites).router n = .ok (t, claimant))
    (hreader : Reader cfg sites t e) (hname : e.name.text = n)
    (hadds : AddsTo cfg t e.name dom delta)
    (hfree : ∀ o, (build cfg sites).router.domainOwner dom = some o → o = n) :
    TakesEffect (build cfg sites).router (build (storeDelta cfg t delta) sites).router n dom ↔
      ¬Starves cfg (build cfg sites).router n dom := by
  have hfree' : ∀ o, owner (entrants cfg sites) cfg.domains dom = some o → o = e := by
    intro o ho
    obtain ⟨hmem, hwants⟩ := wants_of_owner ho
    have helig := (Entrant.wants_iff.1 hwants).1
    refine entrant_unique hmem helig hreader.mem hreader.eligible ?_
    rw [hname]
    exact hfree _ ((build_domainOwner_iff hmem helig).2 ho)
  have hafter : ∀ {e' : Entrant} {d : Domain}, e' ∈ entrants cfg sites → e'.eligible = true →
      ((build (storeDelta cfg t delta) sites).router.domainOwner d = some e'.name.text ↔
        owner (entrants cfg sites) (storeDelta cfg t delta).domains d = some e') :=
    fun he' helig' => @build_domainOwner_iff (storeDelta cfg t delta) sites _ _ he' helig'
  rw [starves_iff hscan hresolve hreader hname]
  constructor
  · rintro heffect ⟨e', he', hne, hsource, hloses, howner⟩
    have helig' := (Entrant.wants_iff.1 (wants_of_owner howner).2).1
    have hdom : dom ≠ Domain.apex e'.name := by
      rintro rfl
      exact hne (hfree' e' howner)
    refine owner_lost hadds hdom hsource hloses ((hafter he' helig').1 ?_)
    refine heffect.others _ _ ?_ ((build_domainOwner_iff he' helig').2 howner)
    intro heq
    exact hne (entrant_unique he' helig' hreader.mem hreader.eligible (heq.trans hname.symm))
  · intro hnone
    refine ⟨?_, fun m x hm hx => ?_⟩
    · rw [← hname, hafter hreader.mem hreader.eligible]
      exact owner_added hadds hreader hfree'
    · rw [build_domainOwner_eq, Option.map_eq_some_iff] at hx
      obtain ⟨e', ho, rfl⟩ := hx
      obtain ⟨he', hwants⟩ := wants_of_owner ho
      rw [hafter he' (Entrant.wants_iff.1 hwants).1]
      refine owner_kept hadds hfree' ho (fun heq => hm (heq ▸ hname)) ?_
      rintro ⟨hsource, hloses, rfl⟩
      exact hnone ⟨e', he', fun heq => hm (heq ▸ hname), hsource, hloses, ho⟩

theorem choosePrimary_of_mem {name : ProxyName} {effective : List Domain} {d : Domain}
    (hexact : d.isWildcard = false) (h : d ∈ effective) :
    choosePrimary name effective (some d) = d := by
  rw [choosePrimary]
  simp only [hexact, h, Bool.not_false, and_self, if_true]

theorem primaryDomain_of_owner (hreader : Reader cfg sites t e)
    (hadds : AddsTo cfg t e.name dom delta) (hexact : dom.isWildcard = false)
    (hstored : delta.primary = if dom = Domain.apex e.name then none else some dom)
    (howner : (build (storeDelta cfg t delta) sites).router.domainOwner dom = some e.name.text) :
    (build (storeDelta cfg t delta) sites).router.primaryDomain e.name.text = some dom := by
  have hmem : e ∈ entrants (storeDelta cfg t delta) sites := hreader.mem
  have hdelta : (e.source.get (storeDelta cfg t delta).domains).getD .default = delta := by
    have h := deltaOf_storeDelta cfg t e.source delta
    rwa [if_pos hreader.source] at h
  have hwanted := (Entrant.wants_iff.1 (wants_self hadds hreader)).2
  have heff : dom ∈ effectiveOf delta e.name := by
    rwa [effective_eq, hdelta] at hwanted
  have hplanned : (planDomains e.name (e.source.get (storeDelta cfg t delta).domains)).2 = dom := by
    rw [planDomains_eq, hdelta, hstored]
    split
    · rename_i hdom
      rw [hdom] at heff
      rw [choosePrimary]
      simp only [if_pos heff, hdom]
    · exact choosePrimary_of_mem hexact heff
  have hprimary := build_primary hmem hreader.eligible
  rw [hplanned] at hprimary
  rw [SiteRouter.primaryDomain, hprimary, Option.some.injEq]
  refine choosePrimary_of_mem hexact (List.mem_filter.2 ⟨hwanted, ?_⟩)
  exact decide_eq_true howner

/-- For every scan and every successful `AddDomain` or `SetPrimaryDomain`: a
misfiled site gets nothing it did not have, and any other site gets the domain,
with nothing lost to others unless a second reader of its delta is starved. -/
theorem added_domain_takes_effect_iff
    (hscan : scanSites world defaultPhp cfg = .ok (sites, watch)) (name domain : Str)
    (canonical : Option Path) (php : PhpVersion) (d : Domain)
    (hd : Domain.parse domain cfg.tld.text = .ok d) (c' : Config) (applied : Applied) :
    (apply cfg (build cfg sites).router (.addDomain name domain) canonical php =
        .ok (c', applied) →
      (TakesEffect (build cfg sites).router (build c' sites).router (lower name) d ↔
        (Misfiled cfg (build cfg sites).router (lower name) →
          (build cfg sites).router.domainOwner d = some (lower name)) ∧
        (¬Misfiled cfg (build cfg sites).router (lower name) →
          ¬Starves cfg (build cfg sites).router (lower name) d))) ∧
    (apply cfg (build cfg sites).router (.setPrimaryDomain name domain) canonical php =
        .ok (c', applied) →
      (TakesEffect (build cfg sites).router (build c' sites).router (lower name) d ∧
          (build c' sites).router.primaryDomain (lower name) = some d ↔
        (Misfiled cfg (build cfg sites).router (lower name) →
          (build cfg sites).router.domainOwner d = some (lower name) ∧
          (build cfg sites).router.primaryDomain (lower name) = some d) ∧
        (¬Misfiled cfg (build cfg sites).router (lower name) →
          ¬Starves cfg (build cfg sites).router (lower name) d))) := by
  refine ⟨fun happly => ?_, fun happly => ?_⟩
  · obtain ⟨t, claimant, dom, hresolve, hdom, hfree, rfl⟩ := applyAddDomain_ok happly
    obtain rfl : dom = d := by
      rw [hd, Except.ok.injEq] at hdom
      exact hdom.symm
    rcases reader_of_resolve hscan hresolve with ⟨hmis, rfl⟩ | ⟨hmis, e, rfl, hname, hreader⟩
    · rw [takesEffect_iff_of_misfiled hmis]
      exact ⟨fun h => ⟨fun _ => h, fun h' => absurd hmis h'⟩, fun h => h.1 hmis⟩
    · rw [takesEffect_iff hscan hresolve hreader hname (fun _ => rfl) hfree]
      exact ⟨fun h => ⟨fun h' => absurd h' hmis, fun _ => h⟩, fun h => h.2 hmis⟩
  · obtain ⟨t, claimant, dom, hresolve, hdom, hexact, hfree, rfl⟩ :=
      applySetPrimaryDomain_ok happly
    obtain rfl : dom = d := by
      rw [hd, Except.ok.injEq] at hdom
      exact hdom.symm
    rcases reader_of_resolve hscan hresolve with ⟨hmis, rfl⟩ | ⟨hmis, e, rfl, hname, hreader⟩
    · rw [takesEffect_iff_of_misfiled hmis, (build_of_misfiled hmis dom).2]
      exact ⟨fun h => ⟨fun _ => h, fun h' => absurd hmis h'⟩, fun h => h.1 hmis⟩
    · have hadds : AddsTo cfg t e.name dom
          (DomainDelta.setPrimary (Domain.apex e.name) dom (deltaOf cfg t)) := fun _ => rfl
      rw [← takesEffect_iff hscan hresolve hreader hname hadds hfree]
      constructor
      · intro h
        exact ⟨fun h' => absurd h' hmis, fun _ => h.1⟩
      · intro h
        have heffect := h.2 hmis
        refine ⟨heffect, ?_⟩
        have howner := heffect.owner
        rw [← hname] at howner ⊢
        exact primaryDomain_of_owner hreader hadds hexact rfl howner

end Effect

/-- A directory `blog` below the one parked root. -/
def blogWorld : ScanWorld where
  readDir root :=
    if root = "/srv/sites" then .ok [⟨utf8 "blog", some true, by decide +kernel⟩]
    else .error .notFound
  detect _ := ⟨.ofStr [], true⟩

def blogName : SiteName := ⟨"blog", by decide +kernel⟩

def apiDomain : Domain := ⟨"api", by decide +kernel⟩

def blogSite (kind : SiteKind) : Site :=
  .ofName kind blogName (.ofStr "/srv/sites/blog") defaultPhp

def blogConfig (added : Domain) (primary : Option Domain) : Config :=
  { parkedConfig with
    domains := ⟨∅, OrdMap.put ∅ "/srv/sites/blog" (some ⟨[added], [], primary⟩), ∅⟩ }

theorem added_domain_takes_effect_blog :
    scanSites blogWorld defaultPhp parkedConfig = .ok ([blogSite .parked], []) ∧
      TakesEffect (build parkedConfig [blogSite .parked]).router
        (build (blogConfig apiDomain none) [blogSite .parked]).router "blog".toList apiDomain ∧
      (build (blogConfig apiDomain (some apiDomain)) [blogSite .parked]).router.primaryDomain
        "blog".toList = some apiDomain := by
  have hscan : scanSites blogWorld defaultPhp parkedConfig = .ok ([blogSite .parked], []) := by
    decide +kernel
  have hd : Domain.parse "api.test".toList parkedConfig.tld.text = .ok apiDomain := by
    decide +kernel
  have hadd : apply parkedConfig (build parkedConfig [blogSite .parked]).router
      (.addDomain "Blog" "api.test") none defaultPhp =
        .ok (blogConfig apiDomain none, ⟨"added api.test to blog"⟩) := by decide +kernel
  have hset : apply parkedConfig (build parkedConfig [blogSite .parked]).router
      (.setPrimaryDomain "Blog" "api.test") none defaultPhp =
        .ok (blogConfig apiDomain (some apiDomain), ⟨"blog primary domain is api.test"⟩) := by
    decide +kernel
  have hmis : ¬Misfiled parkedConfig (build parkedConfig [blogSite .parked]).router "blog".toList :=
    fun h => absurd h.1 (by decide +kernel)
  have hstarves : ¬Starves parkedConfig (build parkedConfig [blogSite .parked]).router "blog".toList
      apiDomain := by
    rintro ⟨s, s', -, -, -, -, -, -, hloses, -⟩
    have hmem : _ ∈ DomainDelta.default.suppressed := hloses.suppressed
    cases hmem
  have hlower : lower "Blog".toList = "blog".toList := by decide +kernel
  have heffect := added_domain_takes_effect_iff hscan "Blog" "api.test" none defaultPhp apiDomain hd
  have hfirst := ((heffect _ _).1 hadd).2
  have hsecond := ((heffect _ _).2 hset).2
  rw [hlower] at hfirst hsecond
  refine ⟨hscan, ?_, ?_⟩
  · exact hfirst ⟨fun h => absurd h hmis, fun _ => hstarves⟩
  · exact (hsecond ⟨fun h => absurd h hmis, fun _ => hstarves⟩).2

def misfiledConfig : Config := { Config.default with linked := [blogSite .parked] }

def misfiledConfigAfter : Config :=
  { misfiledConfig with
    domains := ⟨OrdMap.put ∅ "blog" (some ⟨[apiDomain], [], none⟩), ∅, ∅⟩ }

/-- The domain is stored where nothing reads it. -/
theorem added_domain_not_routed :
    validate misfiledConfig = .ok () ∧
      scanSites blogWorld defaultPhp misfiledConfig = .ok ([blogSite .parked], []) ∧
      Domain.parse "api.test".toList misfiledConfig.tld.text = .ok apiDomain ∧
      apply misfiledConfig (build misfiledConfig [blogSite .parked]).router
          (.addDomain "blog" "api.test") none defaultPhp =
        .ok (misfiledConfigAfter, ⟨"added api.test to blog"⟩) ∧
      (build misfiledConfigAfter [blogSite .parked]).router.domainOwner apiDomain ≠
        some "blog".toList := by
  decide +kernel

end Orcker.Daemon
