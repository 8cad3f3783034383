import Orcker.Config.Validate
import Orcker.Daemon.Entrants

/-!
# The advertised address of a claimant

Links, tunnel origins and WordPress URLs are built from a claimant's primary domain. It is chosen
twice, among all domains the claimant wants and then among those it got.
-/

namespace Orcker.Core

open Base List

/-- What is chosen if there is no stored primary to keep. -/
def fallbackPrimary (name : ProxyName) (effective : List Domain) : Domain :=
  if Domain.apex name ∈ effective then Domain.apex name
  else (effective.find? fun d => !d.isWildcard).getD (Domain.apex name)

/-- The stored primary can be used. -/
def Keepable (effective : List Domain) (stored : Option Domain) (p : Domain) : Prop :=
  stored = some p ∧ p.isWildcard = false ∧ p ∈ effective

variable {name : ProxyName} {stored : Option Domain} {effective : List Domain}

theorem choosePrimary_of_keepable {p : Domain} (h : Keepable effective stored p) :
    choosePrimary name effective stored = p := by
  obtain ⟨rfl, hp, hmem⟩ := h
  exact if_pos ⟨by simp [hp], hmem⟩

theorem choosePrimary_of_not_keepable (h : ∀ p, ¬Keepable effective stored p) :
    choosePrimary name effective stored = fallbackPrimary name effective := by
  cases stored with
  | none => rfl
  | some p => exact if_neg fun hp => h p ⟨rfl, by simpa using hp.1, hp.2⟩

theorem fallbackPrimary_isWildcard : (fallbackPrimary name effective).isWildcard = false := by
  unfold fallbackPrimary
  split
  · simp [name.exact]
  · cases hfind : effective.find? fun d => !d.isWildcard with
    | none => simp [name.exact]
    | some d => simpa using find?_some hfind

theorem choosePrimary_isWildcard : (choosePrimary name effective stored).isWildcard = false := by
  by_cases h : ∃ p, Keepable effective stored p
  · obtain ⟨p, hp⟩ := h
    rw [choosePrimary_of_keepable hp]
    exact hp.2.1
  · rw [choosePrimary_of_not_keepable (not_exists.1 h)]
    exact fallbackPrimary_isWildcard

theorem choosePrimary_of_no_exact (h : ∀ d ∈ effective, d.isWildcard = true) :
    choosePrimary name effective stored = Domain.apex name := by
  have hfind : (effective.find? fun d => !d.isWildcard) = none :=
    find?_eq_none.2 fun d hd => by simp [h d hd]
  have hkeep : ∀ p, ¬Keepable effective stored p := by
    rintro p ⟨-, hp, hmem⟩
    rw [h p hmem] at hp
    cases hp
  rw [choosePrimary_of_not_keepable hkeep, fallbackPrimary, hfind, Option.getD_none, ite_self]

theorem find?_filter_of_find? {α : Type} {p got : α → Bool} {l : List α} {a : α}
    (h : l.find? p = some a) (ha : got a = true) : (l.filter got).find? p = some a := by
  obtain ⟨hp, before, after, rfl, hbefore⟩ := find?_eq_some_iff_append.1 h
  have hnone : (before.filter got).find? p = none :=
    find?_eq_none.2 fun b hb => by simpa using hbefore b (mem_filter.1 hb).1
  rw [filter_append, find?_append, hnone, Option.none_or, filter_cons_of_pos ha,
    find?_cons_of_pos hp]

/-- A choice among all domains, and then among some of them, is one choice among these. -/
theorem choosePrimary_twice {got : Domain → Bool} :
    choosePrimary name (effective.filter got) (some (choosePrimary name effective stored)) =
      choosePrimary name (effective.filter got) stored := by
  by_cases hkeep : ∃ p, Keepable (effective.filter got) stored p
  · -- The stored primary is kept by both choices.
    obtain ⟨p, hp⟩ := hkeep
    have hfirst : choosePrimary name effective stored = p :=
      choosePrimary_of_keepable ⟨hp.1, hp.2.1, (mem_filter.1 hp.2.2).1⟩
    rw [hfirst, choosePrimary_of_keepable hp]
    exact choosePrimary_of_keepable ⟨rfl, hp.2⟩
  · rw [choosePrimary_of_not_keepable (not_exists.1 hkeep)]
    by_cases hgot : choosePrimary name effective stored ∈ effective.filter got
    · -- What the first choice fell back to is what the second would.
      rw [choosePrimary_of_keepable ⟨rfl, choosePrimary_isWildcard, hgot⟩]
      have hkeep' : ∀ p, ¬Keepable effective stored p := by
        intro p hp
        refine hkeep ⟨p, hp.1, hp.2.1, ?_⟩
        rwa [choosePrimary_of_keepable hp] at hgot
      rw [choosePrimary_of_not_keepable hkeep'] at hgot ⊢
      unfold fallbackPrimary at hgot ⊢
      by_cases hapex : Domain.apex name ∈ effective
      · rw [if_pos hapex] at hgot ⊢
        rw [if_pos hgot]
      · have hapex' : Domain.apex name ∉ effective.filter got :=
          fun h => hapex (mem_filter.1 h).1
        rw [if_neg hapex] at hgot ⊢
        rw [if_neg hapex']
        cases hfind : effective.find? fun d => !d.isWildcard with
        | none =>
          rw [hfind] at hgot
          exact absurd hgot hapex'
        | some d =>
          rw [hfind, Option.getD_some] at hgot
          rw [find?_filter_of_find? hfind (mem_filter.1 hgot).2]
    · exact choosePrimary_of_not_keepable fun p hp => hgot (Option.some.inj hp.1 ▸ hp.2.2)

def Route.proxyName : Route → ProxyName
  | .php site => site.name.toProxyName
  | .proxy p => p.name

end Orcker.Core

namespace Orcker.Daemon

open Base Orcker.Core Orcker.Schema

/-- The delta that is stored for the claimant. -/
def routeDelta (cfg : Config) : Route → Option DomainDelta
  | .php site => deltaFor cfg site
  | .proxy p => cfg.domains.proxy[p.name.text]?

/-- The domains a claimant won, in the order it wants them. -/
def wonOf (cfg : Config) (sites : List Site) (c : Route) : List Domain :=
  (planDomains c.proxyName (routeDelta cfg c)).1.filter fun d =>
    (build cfg sites).router.domainOwner d = some c.name

variable {cfg : Config} {sites : List Site} {c : Route}

theorem text_proxyName (c : Route) : c.proxyName.text = c.name := by
  cases c <;> rfl

theorem sub_apex (c : Route) : (Domain.apex c.proxyName).sub = c.name := by
  rw [Domain.apex_eq]
  exact text_proxyName c

theorem exists_entrant (hc : (build cfg sites).router.routeFor c.name = some c) :
    ∃ e ∈ entrants cfg sites, e.eligible = true ∧ e.name = c.proxyName ∧
      e.source.get cfg.domains = routeDelta cfg c := by
  cases c with
  | php s =>
    obtain ⟨hmem, -⟩ := siteEntrant_mem (sites_eq_some_iff_routeFor.2 hc)
    exact ⟨_, hmem, rfl, rfl, (deltaFor_eq cfg s).symm⟩
  | proxy p =>
    obtain ⟨hfree, hp, -⟩ := build_proxySites_eq_some_iff.1
      ((proxySites_eq_some_iff_routeFor (build_inv cfg sites)).2 hc)
    refine ⟨_, List.mem_append_right _ (List.mem_map_of_mem hp), ?_, rfl, rfl⟩
    exact Bool.not_eq_true' _ ▸ decide_eq_false hfree

theorem owner_wants {es : List Entrant} {domains : DomainsSection} {d : Domain} {e : Entrant}
    (h : owner es domains d = some e) : e ∈ es ∧ e.wants domains d = true := by
  rw [owner, Option.or_eq_some_iff] at h
  rcases h with h | ⟨-, h⟩
  · exact ⟨List.mem_of_find?_eq_some h, (Entrant.wantsExplicitly_iff.1 (List.find?_some h)).1⟩
  · exact ⟨List.mem_of_find?_eq_some h, List.find?_some h⟩

theorem mem_wonOf (hc : (build cfg sites).router.routeFor c.name = some c) {d : Domain} :
    d ∈ wonOf cfg sites c ↔ (build cfg sites).router.Holds c.name d := by
  rw [← (build_inv cfg sites).lookup_iff]
  show _ ↔ (build cfg sites).router.domainOwner d = some c.name
  rw [wonOf, List.mem_filter, decide_eq_true_eq, and_iff_right_iff_imp]
  intro howner
  obtain ⟨e, he, helig, hname, hdelta⟩ := exists_entrant hc
  rw [build_domainOwner_eq, Option.map_eq_some_iff] at howner
  obtain ⟨e', howner, hname'⟩ := howner
  obtain ⟨he', hwants⟩ := owner_wants howner
  obtain ⟨helig', hd⟩ := Entrant.wants_iff.1 hwants
  have hsame : e' = e := by
    refine entrant_unique he' helig' he helig ?_
    rw [hname', hname, text_proxyName]
  rw [hsame, Entrant.effective, hname, hdelta] at hd
  exact hd

theorem primary_eq (hc : (build cfg sites).router.routeFor c.name = some c) :
    (build cfg sites).router.primaries[c.name]? =
      some (choosePrimary c.proxyName (wonOf cfg sites c)
        ((routeDelta cfg c).bind DomainDelta.primary)) := by
  obtain ⟨e, he, helig, hname, hdelta⟩ := exists_entrant hc
  have hprimary := build_primary he helig
  have hplan : ∀ delta, (planDomains c.proxyName delta).2 =
      choosePrimary c.proxyName (planDomains c.proxyName delta).1
        (delta.bind DomainDelta.primary) := by
    intro delta
    cases delta <;> rfl
  rw [wonDomains, Entrant.effective, hname, hdelta, text_proxyName, hplan,
    choosePrimary_twice] at hprimary
  exact hprimary

/-- Nobody has the claimant's name as a domain, and a wildcard it won covers it. -/
def CoversName (cfg : Config) (sites : List Site) (c : Route) : Prop :=
  (build cfg sites).router.domainOwner (Domain.apex c.proxyName) = none ∧
    ∃ label rest, c.name = label ++ '.' :: rest ∧ label ≠ [] ∧ '.' ∉ label ∧
      ∃ d ∈ wonOf cfg sites c, d.sub = '*' :: '.' :: rest

theorem resolveRoute_toFqdn_iff {r : SiteRouter} (h : RouterInv r)
    (hc : r.routeFor c.name = some c) (d : Domain) :
    r.resolveRoute (d.toFqdn r.config.tld.text) = some c ↔ r.Answers c.name d.sub := by
  obtain ⟨hroutable, hcanon⟩ := canonicalHost_toFqdn d r.config.tld
  rw [h.resolveRoute_eq_some_iff]
  constructor
  · rintro ⟨-, sub, hsub, -, -, hanswers⟩
    rw [hcanon, Domain.toFqdn] at hsub
    exact List.append_cancel_right hsub ▸ hanswers
  · intro hanswers
    exact ⟨hroutable, d.sub, hcanon, d.sub_ne_nil, hc, hanswers⟩

theorem answers_name_iff (hc : (build cfg sites).router.routeFor c.name = some c)
    (hwild : ∀ d ∈ wonOf cfg sites c, d.isWildcard = true) :
    (build cfg sites).router.Answers c.name (Domain.apex c.proxyName).sub ↔
      CoversName cfg sites c := by
  have hinv := build_inv cfg sites
  have hexact : (Domain.apex c.proxyName).isWildcard = false := by simp [c.proxyName.exact]
  have hnone : (build cfg sites).router.domainOwner (Domain.apex c.proxyName) = none ↔
      ∀ n (d : Domain), d.sub = (Domain.apex c.proxyName).sub → d.isWildcard = false →
        ¬(build cfg sites).router.Holds n d := by
    rw [Option.eq_none_iff_forall_ne_some]
    constructor
    · intro h n d hd _ hholds
      exact h n (Domain.ext hd ▸ (hinv.lookup_iff d n).2 hholds)
    · intro h n hn
      exact h n _ rfl hexact ((hinv.lookup_iff _ n).1 hn)
  constructor
  · rintro (⟨d, -, hd, hholds⟩ | ⟨hfree, label, rest, hsub, hne, hlabel, d, hd, hholds⟩)
    · rw [hwild d ((mem_wonOf hc).2 hholds)] at hd
      cases hd
    · refine ⟨hnone.2 hfree, label, rest, ?_, hne, hlabel, d, (mem_wonOf hc).2 hholds, hd⟩
      rw [← sub_apex, hsub]
  · rintro ⟨hfree, label, rest, hname, hne, hlabel, d, hd, hsub⟩
    refine .inr ⟨hnone.1 hfree, label, rest, ?_, hne, hlabel, d, hsub, (mem_wonOf hc).1 hd⟩
    rw [sub_apex, hname]

theorem resolves_primary_iff (hc : (build cfg sites).router.routeFor c.name = some c) :
    (build cfg sites).router.resolveRoute ((build cfg sites).router.primaryFqdn c.name) = some c ↔
      (∃ d ∈ wonOf cfg sites c, d.isWildcard = false) ∨ CoversName cfg sites c := by
  rw [SiteRouter.primaryFqdn, primary_eq hc, resolveRoute_toFqdn_iff (build_inv cfg sites) hc]
  by_cases hexact : ∃ d ∈ wonOf cfg sites c, d.isWildcard = false
  · obtain ⟨hmem, hw⟩ := choosePrimary_exact c.proxyName
      ((routeDelta cfg c).bind DomainDelta.primary) hexact
    exact iff_of_true (.inl ⟨_, rfl, hw, (mem_wonOf hc).1 hmem⟩) (.inl hexact)
  · have hwild : ∀ d ∈ wonOf cfg sites c, d.isWildcard = true := by
      intro d hd
      by_contra hw
      exact hexact ⟨d, hd, by simpa using hw⟩
    rw [choosePrimary_of_no_exact hwild, or_iff_right hexact]
    exact answers_name_iff hc hwild

/-- For every claimant the router has: its primary is no wildcard; the address leads back to it
exactly if it won an exact domain, or a wildcard that covers its name, which nobody has; and if it
won an exact domain, the primary is the stored one where that is exact and was won, else the apex
where that was won, else the first exact domain it won. -/
theorem primary_routes_back_iff (cfg : Config) (sites : List Site) (c : Route)
    (hc : (build cfg sites).router.routeFor c.name = some c) :
    let router := (build cfg sites).router
    let won := wonOf cfg sites c
    let stored := (routeDelta cfg c).bind DomainDelta.primary
    (∀ d, d ∈ won ↔ router.domainOwner d = some c.name) ∧
    ∃ primary, router.primaryDomain c.name = some primary ∧ primary.isWildcard = false ∧
      (router.resolveRoute (router.primaryFqdn c.name) = some c ↔
        (∃ d ∈ won, d.isWildcard = false) ∨ CoversName cfg sites c) ∧
      ((∃ d ∈ won, d.isWildcard = false) →
        (∀ p, stored = some p → p.isWildcard = false → p ∈ won → primary = p) ∧
        ((∀ p, stored = some p → p.isWildcard = false → p ∉ won) →
          (Domain.apex c.proxyName ∈ won → primary = Domain.apex c.proxyName) ∧
          (Domain.apex c.proxyName ∉ won →
            won.find? (fun d => !d.isWildcard) = some primary))) := by
  intro router won stored
  have hinv : RouterInv router := build_inv cfg sites
  refine ⟨fun d => (mem_wonOf hc).trans (hinv.lookup_iff d c.name).symm, _, primary_eq hc,
    choosePrimary_isWildcard, resolves_primary_iff hc, fun hexact => ?_⟩
  refine ⟨fun p hp hw hmem => choosePrimary_of_keepable ⟨hp, hw, hmem⟩, fun hkeep => ?_⟩
  rw [choosePrimary_of_not_keepable fun p hp => hkeep p hp.1 hp.2.1 hp.2.2, fallbackPrimary]
  refine ⟨fun hapex => if_pos hapex, fun hapex => ?_⟩
  rw [if_neg hapex]
  obtain ⟨d, hd, hw⟩ := hexact
  obtain ⟨first, hfirst⟩ := Option.isSome_iff_exists.1
    (List.find?_isSome.2 ⟨d, hd, by simp [hw]⟩ : (won.find? fun d => !d.isWildcard).isSome)
  rw [hfirst, Option.getD_some]

def sharedDomain : Domain := ⟨"y", by decide⟩

def wildDomain : Domain := ⟨"*.a", by decide⟩

def sampleTarget : UpstreamTarget :=
  ⟨false, "localhost", 3000, by decide, by decide, by decide, by decide⟩

def firstProxy : ProxySite := ⟨⟨⟨"s", by decide⟩, by decide⟩, sampleTarget, false⟩

/-- A proxy with a name of two labels. -/
def nestedProxy : ProxySite := ⟨⟨⟨"x.a", by decide⟩, by decide⟩, sampleTarget, false⟩

/-- Both add `y`, which the first gets. The second gives up its name and adds a wildcard. -/
def sharedConfig : Config :=
  { Config.default with
    proxies := [firstProxy, nestedProxy]
    domains := ⟨∅, ∅, ((∅ : StrMap DomainDelta).insert "s" ⟨[sharedDomain], [], none⟩).insert "x.a"
      ⟨[wildDomain, sharedDomain], [⟨"x.a", by decide⟩], none⟩⟩ }

theorem primary_routes_back_first :
    (build sharedConfig []).router.resolveRoute
      ((build sharedConfig []).router.primaryFqdn (Route.proxy firstProxy).name) =
        some (.proxy firstProxy) := by
  obtain ⟨-, primary, -, -, hiff, -⟩ :=
    primary_routes_back_iff sharedConfig [] (.proxy firstProxy) (by decide +kernel)
  exact hiff.2 (.inl (by decide +kernel))

/-- The second proxy got no exact domain, and its address leads to it. -/
theorem primary_through_wildcard :
    validate sharedConfig = .ok () ∧
    (build sharedConfig []).router.routeFor "x.a" = some (.proxy nestedProxy) ∧
    (∀ d ∈ wonOf sharedConfig [] (.proxy nestedProxy), d.isWildcard = true) ∧
    (build sharedConfig []).router.resolveRoute
      ((build sharedConfig []).router.primaryFqdn "x.a") = some (.proxy nestedProxy) := by
  decide +kernel

end Orcker.Daemon
