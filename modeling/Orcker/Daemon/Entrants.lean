import Orcker.Daemon.Collisions
import Orcker.Daemon.Effects

/-!
# Claimants as entrants

The deltas determine what each entrant wants, and so who gets a domain. A mutation of a delta leaves
the entrants alone, and a new claimant is one more entrant.
-/

namespace Orcker.Daemon

open Base Orcker.Core Orcker.Schema List Domain

/-- What a claimant is, apart from the stored deltas: a name, whether it takes part, and where its
delta is read. -/
structure Entrant where
  label : Str
  name : ProxyName
  source : DomainTarget
  eligible : Bool

/-- Where construction reads the delta of a site: by its kind. -/
def siteSource (s : Site) : DomainTarget :=
  match s.kind with
  | .linked => .linked s.name.text
  | .parked => .parked (overrideKey s)

theorem deltaFor_eq (cfg : Config) (s : Site) : deltaFor cfg s = (siteSource s).get cfg.domains := by
  unfold deltaFor siteSource
  cases s.kind <;> rfl

def siteEntrant (s : Site) : Entrant := ⟨s.name.text, s.name.toProxyName, siteSource s, true⟩

/-- A proxy takes part unless a site has its name. -/
def proxyEntrant (siteNames : List Str) (p : ProxySite) : Entrant where
  label := "proxy:".toList ++ p.name.text
  name := p.name
  source := .proxy p.name.text
  eligible := !decide (p.name.text ∈ siteNames)

def firstSites (sites : List Site) : List Site := keepFirst (fun s => s.name.text) [] sites

/-- The first proxy of each name, the projects' last. -/
def firstProxies (cfg : Config) : List ProxySite :=
  keepFirst (fun p => p.name.text) [] (cfg.proxies ++ projectProxies cfg.projects)

/-- In the order in which they claim. -/
def entrants (cfg : Config) (sites : List Site) : List Entrant :=
  (firstSites sites).map siteEntrant ++
    (firstProxies cfg).map (proxyEntrant ((firstSites sites).map fun s => s.name.text))

variable {d : Domain} {e : Entrant}

namespace Entrant

variable (domains : DomainsSection)

/-- The domains it wants. -/
def effective (e : Entrant) : List Domain := (planDomains e.name (e.source.get domains)).1

def claimant (e : Entrant) : Claimant where
  label := e.label
  apex := Domain.apex e.name
  effective := e.effective domains
  eligible := e.eligible

/-- Takes part and wants the domain. -/
def wants (d : Domain) (e : Entrant) : Bool := e.eligible && decide (d ∈ e.effective domains)

/-- Wants it other than as its apex. -/
def wantsExplicitly (d : Domain) (e : Entrant) : Bool :=
  e.wants domains d && decide (d ≠ Domain.apex e.name)

variable {domains}

theorem wants_iff : e.wants domains d = true ↔ e.eligible = true ∧ d ∈ e.effective domains := by
  rw [wants, Bool.and_eq_true, decide_eq_true_eq]

theorem wantsExplicitly_iff :
    e.wantsExplicitly domains d = true ↔
      e.wants domains d = true ∧ d ≠ Domain.apex e.name := by
  rw [wantsExplicitly, Bool.and_eq_true, decide_eq_true_eq]

end Entrant

theorem claimantsOf_eq (cfg : Config) (sites : List Site) :
    claimantsOf cfg sites = (entrants cfg sites).map (Entrant.claimant cfg.domains) := by
  have hsites : (planSites cfg sites).map SitePlan.claimant =
      ((firstSites sites).map siteEntrant).map (Entrant.claimant cfg.domains) := by
    unfold planSites firstSites
    rw [map_map, map_map]
    refine map_congr_left fun s _ => ?_
    show Claimant.mk _ _ (planDomains _ (deltaFor cfg s)).1 _ = _
    rw [deltaFor_eq]
    rfl
  rw [claimantsOf, claimants, hsites, entrants, map_append]
  congr 1
  unfold planProxies firstProxies
  rw [map_name_planSites, map_map, map_map]
  rfl

theorem nodup_firstSites (sites : List Site) :
    ((firstSites sites).map fun s => s.name.text).Nodup := nodup_map_keepFirst _ _ _

theorem nodup_names (cfg : Config) (sites : List Site) :
    (((entrants cfg sites).filter Entrant.eligible).map fun e => e.name.text).Nodup := by
  have hsites : ((firstSites sites).map siteEntrant).filter Entrant.eligible =
      (firstSites sites).map siteEntrant := by
    rw [filter_eq_self]
    intro e he
    obtain ⟨s, -, rfl⟩ := mem_map.1 he
    rfl
  rw [entrants, filter_append, hsites, map_append, nodup_append]
  refine ⟨?_, ?_, ?_⟩
  · rw [map_map]
    exact nodup_firstSites sites
  · have hproxies : ((firstProxies cfg).map fun p => p.name.text).Nodup :=
      nodup_map_keepFirst _ _ _
    refine List.Nodup.sublist (filter_sublist.map _) ?_
    rw [map_map]
    exact hproxies
  · intro n hn m hm heq
    obtain ⟨e, he, rfl⟩ := mem_map.1 hm
    obtain ⟨he, helig⟩ := mem_filter.1 he
    obtain ⟨p, -, rfl⟩ := mem_map.1 he
    rw [map_map] at hn
    have hfree : (!decide (p.name.text ∈ (firstSites sites).map fun s => s.name.text)) = true :=
      helig
    rw [Bool.not_eq_true', decide_eq_false_iff_not] at hfree
    exact hfree (heq ▸ hn)

variable {cfg : Config} {sites : List Site} {domains : DomainsSection}

theorem entrant_unique {e' : Entrant} (he : e ∈ entrants cfg sites) (helig : e.eligible = true)
    (he' : e' ∈ entrants cfg sites) (helig' : e'.eligible = true)
    (heq : e.name.text = e'.name.text) : e = e' :=
  inj_on_of_nodup_map (nodup_names cfg sites) (mem_filter.2 ⟨he, helig⟩)
    (mem_filter.2 ⟨he', helig'⟩) heq

/-- Explicit wishes first, each in order. -/
def owner (es : List Entrant) (domains : DomainsSection) (d : Domain) : Option Entrant :=
  (es.find? (Entrant.wantsExplicitly domains d)).or (es.find? (Entrant.wants domains d))

theorem exists_getElem?_of_find? {α : Type} {p : α → Bool} {l : List α} {a : α}
    (h : l.find? p = some a) :
    ∃ i : Nat, l[i]? = some a ∧ ∀ j b, l[j]? = some b → p b = true → i ≤ j := by
  obtain ⟨-, before, after, rfl, hbefore⟩ := find?_eq_some_iff_append.1 h
  refine ⟨before.length, by simp, fun j b hj hb => ?_⟩
  by_contra hlt
  rw [getElem?_append_left (by omega)] at hj
  have := hbefore b (mem_of_getElem? hj)
  simp [hb] at this

variable {es : List Entrant}

theorem wins_of_owner (h : owner es domains d = some e) :
    ∃ i, (es.map (Entrant.claimant domains))[i]? = some (e.claimant domains) ∧
      Wins (es.map (Entrant.claimant domains)) i d := by
  rw [owner, Option.or_eq_some_iff] at h
  -- Either way the search stops at a position that beats every later one.
  have hstop : ∃ i, es[i]? = some e ∧ e.wants domains d = true ∧
      ∀ j e', es[j]? = some e' → e'.wants domains d = true →
        Claim.Beats ⟨i, d ≠ apex e.name⟩ ⟨j, d ≠ apex e'.name⟩ := by
    rcases h with h | ⟨hnone, h⟩
    · obtain ⟨i, hi, hfirst⟩ := exists_getElem?_of_find? h
      have he := Entrant.wantsExplicitly_iff.1 (find?_some h)
      refine ⟨i, hi, he.1, fun j e' hj hwants => ?_⟩
      by_cases hd : d ≠ apex e'.name
      · refine .inr ⟨?_, hfirst j e' hj (Entrant.wantsExplicitly_iff.2 ⟨hwants, hd⟩)⟩
        rw [decide_eq_true he.2, decide_eq_true hd]
      · exact .inl ⟨decide_eq_true he.2, decide_eq_false hd⟩
    · obtain ⟨i, hi, hfirst⟩ := exists_getElem?_of_find? h
      have he := find?_some h
      refine ⟨i, hi, he, fun j e' hj hwants => ?_⟩
      have himplicit : ∀ e'' ∈ es, e''.wants domains d = true → d = apex e''.name := by
        intro e'' hmem hwants''
        by_contra hd
        exact find?_eq_none.1 hnone e'' hmem (Entrant.wantsExplicitly_iff.2 ⟨hwants'', hd⟩)
      have hj' := himplicit e' (mem_of_getElem? hj) hwants
      have hi' := himplicit e (mem_of_getElem? hi) he
      refine .inr ⟨?_, hfirst j e' hj hwants⟩
      rw [decide_eq_false (not_not.2 hi'), decide_eq_false (not_not.2 hj')]
  obtain ⟨i, hi, hwants, hbest⟩ := hstop
  rw [Entrant.wants_iff] at hwants
  have hclaim : (es.map (Entrant.claimant domains))[i]? = some (e.claimant domains) := by
    rw [getElem?_map, hi]
    rfl
  refine ⟨i, hclaim, e.claimant domains, hclaim, hwants.1, hwants.2, fun j c hc helig hd => ?_⟩
  rw [getElem?_map, Option.map_eq_some_iff] at hc
  obtain ⟨e', he', rfl⟩ := hc
  exact hbest j e' he' (Entrant.wants_iff.2 ⟨helig, hd⟩)

theorem owner_eq_none_iff : owner es domains d = none ↔ ∀ e ∈ es, e.wants domains d = false := by
  rw [owner, Option.or_eq_none_iff, find?_eq_none, find?_eq_none]
  constructor
  · intro h e he
    simpa using h.2 e he
  · intro h
    refine ⟨fun e he => ?_, fun e he => ?_⟩
    · simp [Entrant.wantsExplicitly, h e he]
    · simp [h e he]

theorem build_domainOwner_eq (cfg : Config) (sites : List Site) (d : Domain) :
    (build cfg sites).router.domainOwner d =
      (owner (entrants cfg sites) cfg.domains d).map fun e => e.name.text := by
  cases h : owner (entrants cfg sites) cfg.domains d with
  | none =>
    rw [Option.map_none, build_domainOwner_eq_none_iff, claimantsOf_eq]
    intro i c hc helig hd
    rw [getElem?_map, Option.map_eq_some_iff] at hc
    obtain ⟨e, he, rfl⟩ := hc
    have hnot := owner_eq_none_iff.1 h e (mem_of_getElem? he)
    rw [Entrant.wants_iff.2 ⟨helig, hd⟩] at hnot
    cases hnot
  | some e =>
    obtain ⟨i, hi, hwins⟩ := wins_of_owner h
    rw [Option.map_some, build_domainOwner_eq_some_iff, claimantsOf_eq]
    refine ⟨i, _, hi, hwins, ?_⟩
    exact congrArg sub (apex_eq e.name)

section Routed

variable {cfg : Config} {sites : List Site} {n : Str}

theorem build_sites_eq_some_iff {s : Site} :
    (build cfg sites).router.sites[n]? = some s ↔ s ∈ firstSites sites ∧ s.name.text = n := by
  rw [build_sites, ← find?_keepFirst_nil (fun s : Site => s.name.text) n sites]
  exact find?_eq_some_iff_of_nodup (nodup_firstSites sites)

theorem build_proxySites_eq_some_iff {p : ProxySite} :
    (build cfg sites).router.proxySites[n]? = some p ↔
      (n ∉ (firstSites sites).map fun s => s.name.text) ∧ p ∈ firstProxies cfg ∧
        p.name.text = n := by
  have hnames : (n ∈ sites.map fun s => s.name.text) ↔
      n ∈ (firstSites sites).map fun s => s.name.text := (mem_map_keepFirst_nil _).symm
  rw [build_proxySites, ← find?_keepFirst_nil (fun p : ProxySite => p.name.text) n,
    Option.ite_none_left_eq_some, hnames]
  exact and_congr_right fun _ => find?_eq_some_iff_of_nodup (nodup_map_keepFirst _ _ _)

theorem siteEntrant_mem {s : Site} (h : (build cfg sites).router.sites[n]? = some s) :
    siteEntrant s ∈ entrants cfg sites ∧ s.name.text = n := by
  obtain ⟨hs, hn⟩ := build_sites_eq_some_iff.1 h
  exact ⟨mem_append_left _ (mem_map_of_mem hs), hn⟩

theorem mem_entrants (h : e ∈ entrants cfg sites) :
    (∃ s, (build cfg sites).router.sites[e.name.text]? = some s ∧ e = siteEntrant s) ∨
      ∃ p ∈ firstProxies cfg, e = proxyEntrant ((firstSites sites).map fun s => s.name.text) p := by
  rcases mem_append.1 h with h | h
  · obtain ⟨s, hs, rfl⟩ := mem_map.1 h
    exact .inl ⟨s, build_sites_eq_some_iff.2 ⟨hs, rfl⟩, rfl⟩
  · obtain ⟨p, hp, rfl⟩ := mem_map.1 h
    exact .inr ⟨p, hp, rfl⟩

end Routed

theorem claims_eq_some_iff {i : Nat} (hi : (entrants cfg sites)[i]? = some e)
    (helig : e.eligible = true) (d : Domain) :
    (buildClaims (claimantsOf cfg sites))[d.sub]? = some i ↔
      (build cfg sites).router.domainOwner d = some e.name.text := by
  have hclaimant : (claimantsOf cfg sites)[i]? = some (e.claimant cfg.domains) := by
    rw [claimantsOf_eq, getElem?_map, hi]
    rfl
  have hapex : (e.claimant cfg.domains).apex.sub = e.name.text :=
    congrArg sub (apex_eq e.name)
  rw [buildClaims_eq_some_iff, build_domainOwner_eq_some_iff]
  constructor
  · intro hwins
    exact ⟨i, _, hclaimant, hwins, hapex⟩
  · intro ⟨j, c, hc, hwins, hname⟩
    have hcElig : c.eligible = true := by
      obtain ⟨c', hc', helig', -⟩ := hwins
      rw [hc, Option.some.injEq] at hc'
      exact hc' ▸ helig'
    have hc₀ := hc
    rw [claimantsOf_eq, getElem?_map, Option.map_eq_some_iff] at hc
    obtain ⟨e', he', rfl⟩ := hc
    -- One name is one entrant, and its label stands once in the sequence.
    have heq : e' = e := by
      refine entrant_unique (mem_of_getElem? he') hcElig (mem_of_getElem? hi) helig ?_
      rw [← hname]
      exact (congrArg sub (apex_eq e'.name)).symm
    have hij : j = i := by
      have hlabels := nodup_labels cfg sites
      have hj : j < ((claimantsOf cfg sites).map Claimant.label).length := by
        rw [length_map]
        exact (List.getElem?_eq_some_iff.1 hc₀).1
      refine (getElem?_inj hj hlabels).1 ?_
      rw [getElem?_map, getElem?_map, hc₀, hclaimant, heq]
    exact hij ▸ hwins

/-- The domains it got. -/
def wonDomains (cfg : Config) (sites : List Site) (e : Entrant) : List Domain :=
  (e.effective cfg.domains).filter fun d =>
    (build cfg sites).router.domainOwner d = some e.name.text

theorem build_primary (he : e ∈ entrants cfg sites) (helig : e.eligible = true) :
    (build cfg sites).router.primaries[e.name.text]? =
      some (choosePrimary e.name (wonDomains cfg sites e)
        (some (planDomains e.name (e.source.get cfg.domains)).2)) := by
  have hwon : ∀ i, (entrants cfg sites)[i]? = some e →
      wonBy (buildClaims (claimantsOf cfg sites)) i (e.effective cfg.domains) =
        wonDomains cfg sites e := by
    intro i hi
    refine filter_congr fun d _ => ?_
    rw [decide_eq_decide]
    exact claims_eq_some_iff hi helig d
  obtain ⟨i, hi⟩ := mem_iff_getElem?.1 he
  have hi' := hi
  rw [entrants] at hi'
  by_cases hlt : i < ((firstSites sites).map siteEntrant).length
  · rw [getElem?_append_left hlt, getElem?_map, Option.map_eq_some_iff] at hi'
    obtain ⟨s, hs, rfl⟩ := hi'
    have hplan : (planSites cfg sites)[i]? = some
        ⟨s, (planDomains s.name.toProxyName (deltaFor cfg s)).1,
          (planDomains s.name.toProxyName (deltaFor cfg s)).2⟩ := by
      rw [planSites, getElem?_map]
      show (firstSites sites)[i]?.map _ = _
      rw [hs]
      rfl
    have hprimary := (build_spec cfg sites).2.2.2.2 _ (mem_insertions.2 (.inl ⟨_, i, hplan, rfl⟩))
    rw [← hwon i hi]
    simp only [siteInsertion, deltaFor_eq] at hprimary
    exact hprimary
  · have hlen : (planSites cfg sites).length = ((firstSites sites).map siteEntrant).length := by
      rw [planSites, length_map, length_map]
      rfl
    rw [getElem?_append_right (Nat.le_of_not_lt hlt), ← hlen, getElem?_map,
      Option.map_eq_some_iff] at hi'
    obtain ⟨p, hp, rfl⟩ := hi'
    rw [proxyEntrant, Bool.not_eq_true'] at helig
    have hplan : (planProxies cfg (planSites cfg sites))[i - (planSites cfg sites).length]? = some
        ⟨p, (planDomains p.name cfg.domains.proxy[p.name.text]?).1,
          (planDomains p.name cfg.domains.proxy[p.name.text]?).2, false⟩ := by
      rw [planProxies, getElem?_map]
      show (firstProxies cfg)[i - (planSites cfg sites).length]?.map _ = _
      rw [hp, Option.map_some, map_name_planSites]
      rw [firstSites] at helig
      rw [helig]
    have hle : (planSites cfg sites).length ≤ i := hlen ▸ Nat.le_of_not_lt hlt
    have hprimary := (build_spec cfg sites).2.2.2.2 _
      (mem_insertions.2 (.inr ⟨_, i, hle, hplan, rfl, rfl⟩))
    rw [← hwon i hi]
    exact hprimary

end Orcker.Daemon
