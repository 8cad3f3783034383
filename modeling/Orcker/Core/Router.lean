import Orcker.Core.Site

/-!
# The host router

The router keeps two namespaces of claimants, PHP sites and whole-host proxies,
the effective domains and the primary of each, and two indices from a domain to
its owner. Operations pass the state explicitly and return it with their result
even when they fail, so what a failed call leaves behind is part of the model.
-/

namespace Orcker.Core

open Base

/-- Router configuration; the dotted suffix is a cache of the TLD. -/
structure RouterConfig where
  tld : Tld
  dottedTld : Str
  dotted_eq : dottedTld = '.' :: tld.text
  deriving DecidableEq

def RouterConfig.withTld (tld : Tld) : RouterConfig := ⟨tld, '.' :: tld.text, rfl⟩

/-- Exact and wildcard sub-parts, each mapped to the name of its owner. -/
structure DomainIndex where
  exact : StrMap Str
  wildcards : StrMap Str

variable {ix : DomainIndex}

namespace DomainIndex

/-- The owner of a domain. -/
def lookup (ix : DomainIndex) (d : Domain) : Option Str :=
  if d.isWildcard then ix.wildcards[d.sub]? else ix.exact[d.sub]?

/-- Index a domain, whoever held it. -/
def insert (ix : DomainIndex) (name : Str) (d : Domain) : DomainIndex :=
  if d.isWildcard then { ix with wildcards := ix.wildcards.insert d.sub name }
  else { ix with exact := ix.exact.insert d.sub name }

/-- Drop the entry of `d`, if `name` holds it. -/
def release (ix : DomainIndex) (name : Str) (d : Domain) : DomainIndex :=
  if ix.lookup d = some name then
    if d.isWildcard then { ix with wildcards := ix.wildcards.erase d.sub }
    else { ix with exact := ix.exact.erase d.sub }
  else ix

/-- Every key sits in the index its kind selects. -/
structure Sorted (ix : DomainIndex) : Prop where
  exact_keys : ∀ k n, ix.exact[k]? = some n → ∃ d : Domain, d.sub = k ∧ d.isWildcard = false
  wildcard_keys : ∀ k n, ix.wildcards[k]? = some n → ∃ d : Domain, d.sub = k ∧ d.isWildcard = true

theorem lookup_insert (ix : DomainIndex) (name : Str) (d e : Domain) :
    (ix.insert name e).lookup d = if d = e then some name else ix.lookup d := by
  unfold insert lookup
  by_cases hde : d = e
  · subst hde
    rw [if_pos rfl]
    by_cases hw : d.isWildcard <;> simp [hw]
  · have hsub : d.sub ≠ e.sub := fun h => hde (Domain.ext h)
    rw [if_neg hde]
    by_cases hd : d.isWildcard <;> by_cases he : e.isWildcard <;>
      simp [hd, he, OrdMap.getElem?_insert, hsub]

theorem lookup_release (ix : DomainIndex) (name : Str) (d e : Domain) :
    (ix.release name e).lookup d =
      if d = e ∧ ix.lookup d = some name then none else ix.lookup d := by
  by_cases hde : d = e
  · subst hde
    unfold release
    by_cases hl : ix.lookup d = some name
    · rw [if_pos (show d = d ∧ ix.lookup d = some name from ⟨rfl, hl⟩), if_pos hl]
      by_cases hw : d.isWildcard <;> simp [lookup, hw]
    · rw [if_neg hl, if_neg (fun h => hl h.2)]
  · have hsub : d.sub ≠ e.sub := fun h => hde (Domain.ext h)
    rw [if_neg (fun h => hde h.1)]
    unfold release
    split
    · unfold lookup
      by_cases hd : d.isWildcard <;> by_cases he : e.isWildcard <;>
        simp [hd, he, OrdMap.getElem?_erase, hsub]
    · rfl

/-- Indexing a list of domains gives all of them to the name. -/
theorem lookup_foldl_insert (ix : DomainIndex) (name : Str) (ds : List Domain) (d : Domain) :
    (ds.foldl (insert · name) ix).lookup d = if d ∈ ds then some name else ix.lookup d := by
  induction ds generalizing ix with
  | nil => simp
  | cons e ds ih =>
    rw [List.foldl_cons, ih, lookup_insert]
    by_cases hds : d ∈ ds <;> by_cases hde : d = e <;> simp [hds, hde]

/-- Releasing a list of domains takes away what the name held of it. -/
theorem lookup_foldl_release (ix : DomainIndex) (name : Str) (ds : List Domain) (d : Domain) :
    (ds.foldl (release · name) ix).lookup d =
      if d ∈ ds ∧ ix.lookup d = some name then none else ix.lookup d := by
  induction ds generalizing ix with
  | nil => simp
  | cons e ds ih =>
    rw [List.foldl_cons, ih, lookup_release]
    by_cases hl : ix.lookup d = some name <;> by_cases hds : d ∈ ds <;> by_cases hde : d = e <;>
      simp [hl, hds, hde]

theorem Sorted.insert (h : ix.Sorted) (name : Str) (d : Domain) : (ix.insert name d).Sorted := by
  unfold DomainIndex.insert
  split
  · rename_i hw
    refine ⟨h.exact_keys, fun k n hk => ?_⟩
    by_cases hsub : k = d.sub
    · exact ⟨d, hsub.symm, hw⟩
    · exact h.wildcard_keys k n (by simpa [OrdMap.getElem?_insert, hsub] using hk)
  · rename_i hw
    refine ⟨fun k n hk => ?_, h.wildcard_keys⟩
    by_cases hsub : k = d.sub
    · exact ⟨d, hsub.symm, by simpa using hw⟩
    · exact h.exact_keys k n (by simpa [OrdMap.getElem?_insert, hsub] using hk)

theorem Sorted.release (h : ix.Sorted) (name : Str) (d : Domain) : (ix.release name d).Sorted := by
  unfold DomainIndex.release
  split
  · split
    · refine ⟨h.exact_keys, fun k n hk => h.wildcard_keys k n ?_⟩
      rw [OrdMap.getElem?_erase] at hk
      split at hk
      · cases hk
      · exact hk
    · refine ⟨fun k n hk => h.exact_keys k n ?_, h.wildcard_keys⟩
      rw [OrdMap.getElem?_erase] at hk
      split at hk
      · cases hk
      · exact hk
  · exact h

theorem Sorted.foldl_insert (h : ix.Sorted) (name : Str) (ds : List Domain) :
    (ds.foldl (DomainIndex.insert · name) ix).Sorted := by
  induction ds generalizing ix with
  | nil => exact h
  | cons d ds ih => exact ih (h.insert name d)

theorem Sorted.foldl_release (h : ix.Sorted) (name : Str) (ds : List Domain) :
    (ds.foldl (DomainIndex.release · name) ix).Sorted := by
  induction ds generalizing ix with
  | nil => exact h
  | cons d ds ih => exact ih (h.release name d)

end DomainIndex

/-- Host to site router: the configuration, the two indices, and six maps keyed
by claimant name. -/
structure SiteRouter extends DomainIndex where
  config : RouterConfig
  sites : StrMap Site
  domains : StrMap (List Domain)
  primaries : StrMap Domain
  proxySites : StrMap ProxySite
  proxyRules : StrMap (List ProxyRule)
  routeRules : StrMap (List RouteRule)

/-- A claimant of hosts. -/
inductive Route where
  | php (site : Site)
  | proxy (proxy : ProxySite)
  deriving DecidableEq

namespace SiteRouter

def new (config : RouterConfig) : SiteRouter where
  exact := ∅
  wildcards := ∅
  config := config
  sites := ∅
  domains := ∅
  primaries := ∅
  proxySites := ∅
  proxyRules := ∅
  routeRules := ∅

/-- The body both inserts share: refuse a taken name, then a taken domain, and
only then touch the maps; `store` is the claimant's own map. -/
def insertClaimant (r : SiteRouter) (name : Str) (effective : List Domain) (primary : Domain)
    (store : SiteRouter → SiteRouter) : Except CoreError Unit × SiteRouter :=
  if r.sites.contains name || r.proxySites.contains name then (.error (.duplicateSite name), r)
  else
    match effective.find? fun d => (r.lookup d).isSome with
    | some d => (.error (.duplicateDomain d.sub), r)
    | none =>
      let r := { r with toDomainIndex := effective.foldl (DomainIndex.insert · name) r.toDomainIndex }
      let r := { r with primaries := r.primaries.insert name primary }
      let r := { r with domains := r.domains.insert name effective }
      (.ok (), store r)

/-- Refused if the name is taken, or one of the domains. -/
def insertWithDomains (r : SiteRouter) (site : Site) (effective : List Domain)
    (primary : Domain) : Except CoreError Unit × SiteRouter :=
  r.insertClaimant site.name.text effective primary fun r =>
    { r with sites := r.sites.insert site.name.text site }

/-- A site with its apex alone. -/
def insert (r : SiteRouter) (site : Site) : Except CoreError Unit × SiteRouter :=
  let apex := Domain.apex site.name.toProxyName
  r.insertWithDomains site [apex] apex

def insertProxyWithDomains (r : SiteRouter) (proxy : ProxySite) (effective : List Domain)
    (primary : Domain) : Except CoreError Unit × SiteRouter :=
  r.insertClaimant proxy.name.text effective primary fun r =>
    { r with proxySites := r.proxySites.insert proxy.name.text proxy }

def insertProxy (r : SiteRouter) (proxy : ProxySite) : Except CoreError Unit × SiteRouter :=
  let apex := Domain.apex proxy.name
  r.insertProxyWithDomains proxy [apex] apex

/-- Forget the domains of `name`, freeing the index entries it holds, and its
primary. -/
def releaseClaimant (r : SiteRouter) (name : Str) : SiteRouter :=
  let r :=
    match r.domains[name]? with
    | none => r
    | some ds =>
      { r with
        domains := r.domains.erase name
        toDomainIndex := ds.foldl (DomainIndex.release · name) r.toDomainIndex }
  { r with primaries := r.primaries.erase name }

/-- The site and all that was indexed for it. -/
def remove (r : SiteRouter) (name : Str) : Except CoreError Site × SiteRouter :=
  let removed := r.sites[name]?
  let r := { r with sites := r.sites.erase name }
  match removed with
  | none => (.error (.siteNotFound name), r)
  | some site =>
    let r := r.releaseClaimant name
    let r := { r with proxyRules := r.proxyRules.erase name }
    let r := { r with routeRules := r.routeRules.erase name }
    (.ok site, r)

/-- Unlike `remove`, this leaves the rule maps alone. -/
def removeProxy (r : SiteRouter) (name : Str) : Except CoreError ProxySite × SiteRouter :=
  let removed := r.proxySites[name]?
  let r := { r with proxySites := r.proxySites.erase name }
  match removed with
  | none => (.error (.siteNotFound name), r)
  | some proxy => (.ok proxy, r.releaseClaimant name)

/-- No rules is no entry. -/
def setProxyRules (r : SiteRouter) (site : Str) (rules : List ProxyRule) : SiteRouter :=
  if rules.isEmpty then { r with proxyRules := r.proxyRules.erase site }
  else { r with proxyRules := r.proxyRules.insert site rules }

def setRouteRules (r : SiteRouter) (site : Str) (rules : List RouteRule) : SiteRouter :=
  if rules.isEmpty then { r with routeRules := r.routeRules.erase site }
  else { r with routeRules := r.routeRules.insert site rules }

/-- A setter applied in place through the mutable borrow of a site. -/
def updateSite (r : SiteRouter) (name : Str) (f : Site.Setter) : SiteRouter :=
  match r.sites[name]? with
  | none => r
  | some site => { r with sites := r.sites.insert name (site.set f) }

def domainOwner (r : SiteRouter) (d : Domain) : Option Str := r.lookup d

def primaryDomain (r : SiteRouter) (name : Str) : Option Domain := r.primaries[name]?

/-- The claimant's primary as a full host name; `<name>.<tld>` without one. -/
def primaryFqdn (r : SiteRouter) (name : Str) : Str :=
  match r.primaries[name]? with
  | none => name ++ '.' :: r.config.tld.text
  | some d => d.toFqdn r.config.tld.text

/-- The route of an already resolved name: PHP first, then proxy. -/
def routeFor (r : SiteRouter) (name : Str) : Option Route :=
  match r.sites[name]? with
  | some site => some (.php site)
  | none => (r.proxySites[name]?).map .proxy

end SiteRouter

end Orcker.Core
