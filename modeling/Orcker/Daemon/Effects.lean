import Orcker.Daemon.Mutate

/-!
# What a successful mutation did

One inversion lemma per handler: from its success, the checks that passed and the
configuration it returned. Everything proved about mutations goes through these.
-/

namespace Orcker.Daemon

open Base Orcker.Core Orcker.Schema

variable {cfg c' : Config} {router : SiteRouter} {a : Applied}

variable {canonical : Option Path}

theorem applyPark_ok (h : applyPark cfg canonical = .ok (c', a)) :
    ∃ path, canonical = some path ∧
      c' = { cfg with parked := ⟨cfg.parked.paths.insert path.toStringLossy⟩ } := by
  cases canonical with
  | none => cases h
  | some path =>
    cases h
    exact ⟨path, rfl, rfl⟩

/-- What is stored for the directory moves to the linked name. -/
def linkedConfig (cfg : Config) (site : Site) : Config :=
  let key := overrideKey site
  let nameLc := site.name.text
  let deltas := moveEntry cfg.domains.parked cfg.domains.linked key nameLc
  let proxyRules := moveEntry cfg.proxyRules.parked cfg.proxyRules.linked key nameLc
  let routeRules := moveEntry cfg.routeRules.parked cfg.routeRules.linked key nameLc
  { cfg with
    domains := { cfg.domains with parked := deltas.1, linked := deltas.2 }
    proxyRules := ⟨proxyRules.2, proxyRules.1⟩
    routeRules := ⟨routeRules.2, routeRules.1⟩
    linked := cfg.linked ++ [site] }

variable {name : Str} {php : PhpVersion}

theorem applyLink_ok (h : applyLink cfg name canonical php = .ok (c', a)) :
    ∃ path site, canonical = some path ∧ Site.linked name path php = .ok site ∧
      (∀ s ∈ cfg.linked, s.name.text ≠ site.name.text) ∧ c' = linkedConfig cfg site := by
  cases canonical with
  | none => cases h
  | some path =>
    rw [applyLink] at h
    simp only at h
    split at h
    · cases h
    rename_i site hsite
    split at h
    · cases h
    rename_i hnew
    cases h
    refine ⟨path, site, rfl, hsite, ?_, rfl⟩
    simpa using hnew

/-- What is stored for the name goes, or moves back to the directory. -/
def unlinkedConfig (cfg : Config) (site : Site) : Config :=
  let key := overrideKey site
  let nameLc := site.name.text
  let reparks := parentIsParkedRoot cfg key
  let deltas := demote reparks cfg.domains.linked cfg.domains.parked nameLc key
  let proxyRules := demote reparks cfg.proxyRules.linked cfg.proxyRules.parked nameLc key
  let routeRules := demote reparks cfg.routeRules.linked cfg.routeRules.parked nameLc key
  { cfg with
    linked := cfg.linked.filter fun s => s.name.text ≠ nameLc
    domains := { cfg.domains with linked := deltas.1, parked := deltas.2 }
    proxyRules := ⟨proxyRules.1, proxyRules.2⟩
    routeRules := ⟨routeRules.1, routeRules.2⟩ }

/-- The project and its delta are gone. -/
def withoutProject (cfg : Config) (nameLc : Str) : Config :=
  { cfg with
    projects := cfg.projects.filter fun p => p.name.text ≠ nameLc
    domains := { cfg.domains with proxy := cfg.domains.proxy.erase nameLc } }

theorem applyUnlink_ok (h : applyUnlink cfg router name = .ok (c', a)) :
    ((∃ p ∈ cfg.projects, p.name.text = lower name) ∧ c' = withoutProject cfg (lower name)) ∨
    (∀ p ∈ cfg.projects, p.name.text ≠ lower name) ∧
      ∃ site ∈ cfg.linked, site.name.text = lower name ∧ c' = unlinkedConfig cfg site := by
  rw [applyUnlink] at h
  simp only at h
  split at h
  · rename_i project hproject
    cases h
    refine .inl ⟨⟨project, List.mem_of_find?_eq_some hproject, ?_⟩, rfl⟩
    simpa using List.find?_some hproject
  · rename_i hprojects
    split at h
    · split at h
      · cases h
      · cases h
    · rename_i site hsite
      have hname : site.name.text = lower name := by simpa using List.find?_some hsite
      cases h
      refine .inr ⟨fun p hp => ?_, site, List.mem_of_find?_eq_some hsite, hname, ?_⟩
      · simpa using List.find?_eq_none.1 hprojects p hp
      · rw [unlinkedConfig, hname]

/-- A switch sits on a linked site, a parked site's pin, a proxy or a project. -/
inductive Switched (cfg : Config) : (Site → Site) → (SiteOverride → SiteOverride) → Config → Prop
  | linked {f g} {p : Site → Bool} {l : List Site} (h : updateFirst p f cfg.linked = some l) :
    Switched cfg f g { cfg with linked := l }
  | parked {f g} (key : Str) : Switched cfg f g (editOverride cfg key g)
  | proxies {f g} (l : List ProxySite) : Switched cfg f g { cfg with proxies := l }
  | projects {f g} (l : List ContainerProject) : Switched cfg f g { cfg with projects := l }

theorem applySetSecure_ok {secure : Bool} (h : applySetSecure cfg router name secure = .ok (c', a))
    : Switched cfg (·.set (.secure secure)) (fun ov => { ov with secure := some secure }) c' := by
  rw [applySetSecure] at h
  split at h
  · rename_i l hl
    cases h
    exact .linked hl
  split at h
  · cases h
    exact .parked _
  split at h
  · rename_i l hl
    cases h
    exact .proxies l
  split at h
  · rename_i l hl
    cases h
    exact .projects l
  · cases h

theorem applySetFrontController_ok {enabled : Bool}
    (h : applySetFrontController cfg router name enabled = .ok (c', a)) :
    Switched cfg (·.set (.frontController (some enabled)))
      (fun ov => { ov with frontController := some enabled }) c' := by
  rw [applySetFrontController] at h
  split at h
  · rename_i l hl
    cases h
    exact .linked hl
  split at h
  · cases h
    exact .parked _
  · cases h

theorem applyAddProxy_ok {url : Str} (h : applyAddProxy cfg router name url = .ok (c', a)) :
    ∃ target proxy, UpstreamTarget.fromUrlStr url = .ok target ∧
      ProxySite.new name target = .ok proxy ∧ router.sites[proxy.name.text]? = none ∧
      (∀ p ∈ cfg.proxies, p.name.text ≠ proxy.name.text) ∧
      router.domainOwner (Domain.apex proxy.name) = none ∧
      c' = { cfg with proxies := cfg.proxies ++ [proxy] } := by
  simp only [applyAddProxy, parseTarget, bind_eq_ok_iff, mapError_eq_ok_iff, pure_eq_ok,
    Except.ok.injEq] at h
  obtain ⟨target, ⟨t, ht, _, _, rfl⟩, proxy, hproxy, h⟩ := h
  split at h
  · cases h
  rename_i htaken
  split at h
  · cases h
  rename_i howner
  cases h
  rw [Bool.or_eq_true, not_or] at htaken
  refine ⟨t, proxy, ht, hproxy, ?_, ?_, howner, rfl⟩
  · simpa using htaken.1
  · simpa using htaken.2

theorem applyRemoveProxy_ok (h : applyRemoveProxy cfg name = .ok (c', a)) :
    c' = { cfg with
      proxies := cfg.proxies.filter fun p => p.name.text ≠ lower name
      domains := { cfg.domains with proxy := cfg.domains.proxy.erase (lower name) } } := by
  rw [applyRemoveProxy] at h
  simp only at h
  split at h
  · cases h
  · cases h
    rfl

theorem applyRule_ok
    (h : (∃ site pathPrefix url, applyAddProxyRule cfg router site pathPrefix url = .ok (c', a)) ∨
      (∃ site pathPrefix, applyRemoveProxyRule cfg router site pathPrefix = .ok (c', a)) ∨
      (∃ site pathPrefix target,
        applyAddRouteRule cfg router site pathPrefix target = .ok (c', a)) ∨
      ∃ site pathPrefix, applyRemoveRouteRule cfg router site pathPrefix = .ok (c', a)) :
    ∃ proxyRules routeRules, c' = { cfg with proxyRules, routeRules } := by
  simp only [applyAddProxyRule, applyRemoveProxyRule, applyAddRouteRule, applyRemoveRouteRule,
    bind_eq_ok_iff, pure_eq_ok, Except.ok.injEq, Prod.mk.injEq] at h
  rcases h with ⟨_, _, _, _, _, _, _, _, _, maps, _, rfl, _⟩ | ⟨_, _, _, _, maps, _, rfl, _⟩ |
    ⟨_, _, _, _, _, _, _, maps, _, rfl, _⟩ | ⟨_, _, _, _, maps, _, rfl, _⟩
  · exact ⟨⟨maps.1, maps.2⟩, cfg.routeRules, rfl⟩
  · exact ⟨⟨maps.1, maps.2⟩, cfg.routeRules, rfl⟩
  · exact ⟨cfg.proxyRules, ⟨maps.1, maps.2⟩, rfl⟩
  · exact ⟨cfg.proxyRules, ⟨maps.1, maps.2⟩, rfl⟩

theorem rejectIfClaimedElsewhere_ok {nameLc tld : Str} {dom : Domain}
    (h : rejectIfClaimedElsewhere router nameLc dom tld = .ok ()) {owner : Str}
    (howner : router.domainOwner dom = some owner) : owner = nameLc := by
  rw [rejectIfClaimedElsewhere, howner] at h
  simp only at h
  split at h
  · cases h
  · rename_i heq
    exact not_not.1 heq

theorem resolveDomainTarget_ok {n : Str} {target : DomainTarget} {claimant : ProxyName}
    (h : resolveDomainTarget cfg router n = .ok (target, claimant)) :
    (∃ s, cfg.linked.find? (fun s => s.name.text = n) = some s ∧ target = .linked n ∧
        claimant = s.name.toProxyName) ∨
      ((∀ s ∈ cfg.linked, s.name.text ≠ n) ∧ ∃ s, router.sites[n]? = some s ∧
        target = .parked (overrideKey s) ∧ claimant = s.name.toProxyName) ∨
      (∀ s ∈ cfg.linked, s.name.text ≠ n) ∧ router.sites[n]? = none ∧
        ∃ p, cfg.proxies.find? (fun p => p.name.text = n) = some p ∧ target = .proxy n ∧
          claimant = p.name := by
  rw [resolveDomainTarget] at h
  split at h
  · rename_i s hs
    cases h
    exact .inl ⟨s, hs, rfl, rfl⟩
  · rename_i hnone
    have hnone : ∀ s ∈ cfg.linked, s.name.text ≠ n := by
      intro s hs
      simpa using List.find?_eq_none.1 hnone s hs
    split at h
    · rename_i s hs
      cases h
      exact .inr (.inl ⟨hnone, s, hs, rfl, rfl⟩)
    · rename_i hsites
      split at h
      · rename_i p hp
        cases h
        exact .inr (.inr ⟨hnone, hsites, p, hp, rfl, rfl⟩)
      · cases h

variable {domain : Str}

theorem applyAddDomain_ok (h : applyAddDomain cfg router name domain = .ok (c', a)) :
    ∃ target claimant dom, resolveDomainTarget cfg router (lower name) = .ok (target, claimant) ∧
      Domain.parse domain cfg.tld.text = .ok dom ∧
      (∀ owner, router.domainOwner dom = some owner → owner = lower name) ∧
      c' = storeDelta cfg target
        (DomainDelta.add (Domain.apex claimant) dom (deltaOf cfg target)) := by
  simp only [applyAddDomain, parseDomain, bind_eq_ok_iff, mapError_eq_ok_iff, pure_eq_ok,
    Except.ok.injEq, Prod.mk.injEq] at h
  obtain ⟨⟨target, claimant⟩, htarget, dom, hdom, _, hreject, rfl, _⟩ := h
  exact ⟨target, claimant, dom, htarget, hdom, fun _ => rejectIfClaimedElsewhere_ok hreject, rfl⟩

theorem applySetPrimaryDomain_ok (h : applySetPrimaryDomain cfg router name domain = .ok (c', a)) :
    ∃ target claimant dom, resolveDomainTarget cfg router (lower name) = .ok (target, claimant) ∧
      Domain.parse domain cfg.tld.text = .ok dom ∧ dom.isWildcard = false ∧
      (∀ owner, router.domainOwner dom = some owner → owner = lower name) ∧
      c' = storeDelta cfg target
        (DomainDelta.setPrimary (Domain.apex claimant) dom (deltaOf cfg target)) := by
  simp only [applySetPrimaryDomain, parseDomain, bind_eq_ok_iff, mapError_eq_ok_iff] at h
  obtain ⟨⟨target, claimant⟩, htarget, dom, hdom, h⟩ := h
  split at h
  · cases h
  rename_i hexact
  simp only [bind_eq_ok_iff, pure_eq_ok, Except.ok.injEq, Prod.mk.injEq] at h
  obtain ⟨_, hreject, rfl, _⟩ := h
  exact ⟨target, claimant, dom, htarget, hdom, by simpa using hexact,
    fun _ => rejectIfClaimedElsewhere_ok hreject, rfl⟩

theorem applyRemoveDomain_ok (h : applyRemoveDomain cfg router name domain = .ok (c', a)) :
    ∃ target claimant dom added suppressed,
      resolveDomainTarget cfg router (lower name) = .ok (target, claimant) ∧
      Domain.parse domain cfg.tld.text = .ok dom ∧
      DomainDelta.without (Domain.apex claimant) dom (deltaOf cfg target) =
        some (added, suppressed) ∧
      exactCount (Domain.apex claimant) added suppressed ≠ 0 ∧
      ∃ primary, c' = storeDelta cfg target { added, suppressed, primary } := by
  simp only [applyRemoveDomain, parseDomain, bind_eq_ok_iff, mapError_eq_ok_iff] at h
  obtain ⟨⟨target, claimant⟩, htarget, dom, hdom, h⟩ := h
  split at h
  · cases h
  rename_i added suppressed hwithout
  split at h
  · cases h
  rename_i hcount
  cases h
  exact ⟨target, claimant, dom, added, suppressed, htarget, hdom, hwithout, hcount, _, rfl⟩

theorem applyResetDomains_ok (h : applyResetDomains cfg router name = .ok (c', a)) :
    ∃ target claimant, resolveDomainTarget cfg router (lower name) = .ok (target, claimant) ∧
      c' = { cfg with domains := target.put cfg.domains none } := by
  simp only [applyResetDomains, bind_eq_ok_iff, pure_eq_ok, Except.ok.injEq, Prod.mk.injEq] at h
  obtain ⟨⟨target, claimant⟩, htarget, rfl, _⟩ := h
  exact ⟨target, claimant, htarget, rfl⟩

/-- The requests about groups. -/
def EditsGroups : Request → Prop
  | .createGroup _ | .deleteGroup _ | .setGroupOrder _ | .setSiteGroup _ _ | .renameGroup _ _ => True
  | _ => False

theorem apply_editsGroups {req : Request} (h : apply cfg router req canonical php = .ok (c', a))
    (hreq : EditsGroups req) : ∃ groups, c' = { cfg with groups } := by
  cases req with
  | createGroup name =>
    simp only [apply, applyCreateGroup, bind_eq_ok_iff] at h
    obtain ⟨name, _, h⟩ := h
    split at h <;> cases h
    exact ⟨_, rfl⟩
  | deleteGroup name =>
    cases h
    exact ⟨_, rfl⟩
  | setGroupOrder order =>
    rw [apply, applySetGroupOrder] at h
    split at h <;> cases h
    exact ⟨_, rfl⟩
  | setSiteGroup site group =>
    cases group with
    | none =>
      cases h
      exact ⟨_, rfl⟩
    | some g =>
      simp only [apply, applySetSiteGroup] at h
      split at h <;> cases h
      exact ⟨_, rfl⟩
  | renameGroup old new =>
    simp only [apply, applyRenameGroup, bind_eq_ok_iff] at h
    obtain ⟨name, _, h⟩ := h
    split at h
    · cases h
    split at h <;> cases h
    exact ⟨_, rfl⟩
  | _ => exact hreq.elim

/-- What a request can make of the configuration. -/
inductive Step (cfg : Config) (router : SiteRouter) (php : PhpVersion) : Config → Prop
  | park (paths : StrSet) : Step cfg router php { cfg with parked := ⟨paths⟩ }
  | link {name : Str} {path : Path} {site : Site} (hsite : Site.linked name path php = .ok site)
      (hnew : ∀ s ∈ cfg.linked, s.name.text ≠ site.name.text) :
    Step cfg router php (linkedConfig cfg site)
  | unpark (path : Str) : Step cfg router php (applyUnpark cfg path).1
  | unlinkProject (name : Str) : Step cfg router php (withoutProject cfg name)
  | unlink {site : Site} (hsite : site ∈ cfg.linked) :
    Step cfg router php (unlinkedConfig cfg site)
  | switch {f : Site.Setter} {g : SiteOverride → SiteOverride} {c' : Config}
      (h : Switched cfg (·.set f) g c') (hphp : ∀ s : Site, (s.set f).php = s.php)
      (hpin : ∀ ov, (g ov).php = ov.php) : Step cfg router php c'
  | domains (domains : DomainsSection) : Step cfg router php { cfg with domains }
  | proxies (proxies : List ProxySite) (domains : DomainsSection) :
    Step cfg router php { cfg with proxies, domains }
  | rules (proxyRules : ProxyRulesSection) (routeRules : RouteRulesSection) :
    Step cfg router php { cfg with proxyRules, routeRules }
  | groups (groups : GroupsSection) : Step cfg router php { cfg with groups }

theorem step_of_apply {req : Request} (h : apply cfg router req canonical php = .ok (c', a)) :
    Step cfg router php c' := by
  cases req with
  | park _ =>
    obtain ⟨path, -, rfl⟩ := applyPark_ok h
    exact .park _
  | link _ name =>
    obtain ⟨path, site, -, hsite, hnew, rfl⟩ := applyLink_ok h
    exact .link hsite hnew
  | unpark path =>
    cases h
    exact .unpark path
  | unlink name =>
    rcases applyUnlink_ok h with ⟨-, rfl⟩ | ⟨-, site, hsite, -, rfl⟩
    · exact .unlinkProject _
    · exact .unlink hsite
  | setSecure name secure => exact .switch (applySetSecure_ok h) (fun _ => rfl) fun _ => rfl
  | setFrontController name enabled =>
    exact .switch (applySetFrontController_ok h) (fun _ => rfl) fun _ => rfl
  | addDomain name domain =>
    obtain ⟨target, claimant, dom, -, -, -, rfl⟩ := applyAddDomain_ok h
    exact .domains _
  | removeDomain name domain =>
    obtain ⟨target, claimant, dom, added, suppressed, -, -, -, -, primary, rfl⟩ :=
      applyRemoveDomain_ok h
    exact .domains _
  | setPrimaryDomain name domain =>
    obtain ⟨target, claimant, dom, -, -, -, -, rfl⟩ := applySetPrimaryDomain_ok h
    exact .domains _
  | resetDomains name =>
    obtain ⟨target, claimant, -, rfl⟩ := applyResetDomains_ok h
    exact .domains _
  | addProxy name url =>
    obtain ⟨target, proxy, -, -, -, -, -, rfl⟩ := applyAddProxy_ok h
    exact .proxies _ cfg.domains
  | removeProxy name =>
    obtain rfl := applyRemoveProxy_ok h
    exact .proxies _ _
  | addProxyRule site pathPrefix url =>
    obtain ⟨proxyRules, routeRules, rfl⟩ := applyRule_ok (.inl ⟨_, _, _, h⟩)
    exact .rules _ _
  | removeProxyRule site pathPrefix =>
    obtain ⟨proxyRules, routeRules, rfl⟩ := applyRule_ok (.inr (.inl ⟨_, _, h⟩))
    exact .rules _ _
  | addRouteRule site pathPrefix target =>
    obtain ⟨proxyRules, routeRules, rfl⟩ := applyRule_ok (.inr (.inr (.inl ⟨_, _, _, h⟩)))
    exact .rules _ _
  | removeRouteRule site pathPrefix =>
    obtain ⟨proxyRules, routeRules, rfl⟩ := applyRule_ok (.inr (.inr (.inr ⟨_, _, h⟩)))
    exact .rules _ _
  | createGroup | deleteGroup | setGroupOrder | setSiteGroup | renameGroup =>
    obtain ⟨groups, rfl⟩ := apply_editsGroups h trivial
    exact .groups _
  | other => cases h

end Orcker.Daemon
