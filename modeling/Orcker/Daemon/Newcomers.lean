import Orcker.Daemon.DomainEdits
import Orcker.Daemon.Link

/-!
# New claimants

A new proxy, or the proxy of a newly linked project, is one more entrant in the middle of the claim
order (`Joins`).
-/

namespace Orcker.Core

open Base

theorem head?_hostname_ne_dot (name : ProxyName) (tld : Tld) :
    (name.text ++ '.' :: tld.text).head? ≠ some '.' := by
  rw [List.head?_append_of_ne_nil _ name.sub_ne_nil]
  exact name.sub_head?_ne_dot

namespace RouterInv

variable {r r' : SiteRouter}

theorem holds_iff (h : RouterInv r) {n : Str} {d : Domain} :
    r.Holds n d ↔ r.domainOwner d = some n := (h.lookup_iff d n).symm

/-- What a host resolves to depends on the owners of few domains. -/
theorem answers_congr (h : RouterInv r) (h' : RouterInv r') {n sub : Str}
    (howner : ∀ d : Domain, d.sub = sub ∨ ('.' ∈ sub ∧ d.isWildcard = true) →
      r'.domainOwner d = r.domainOwner d) : r'.Answers n sub ↔ r.Answers n sub := by
  have hexact : ∀ n (d : Domain), d.sub = sub → (r'.Holds n d ↔ r.Holds n d) := by
    intro n d hd
    rw [h'.holds_iff, h.holds_iff, howner d (.inl hd)]
  have hwild : ∀ (d : Domain) label rest, sub = label ++ '.' :: rest → d.sub = '*' :: '.' :: rest →
      (r'.Holds n d ↔ r.Holds n d) := by
    intro d label rest hsub hd
    have hdot : '.' ∈ sub := by simp [hsub]
    rw [h'.holds_iff, h.holds_iff, howner d (.inr ⟨hdot, Domain.isWildcard_iff.2 ⟨rest, hd⟩⟩)]
  unfold SiteRouter.Answers
  refine or_congr ?_ (and_congr ?_ ?_)
  · exact exists_congr fun d => and_congr_right fun hd => and_congr_right fun _ => hexact n d hd
  · exact forall_congr' fun m => forall_congr' fun d => forall_congr' fun hd =>
      forall_congr' fun _ => not_congr (hexact m d hd)
  · refine exists_congr fun label => exists_congr fun rest => and_congr_right fun hsub =>
      and_congr_right fun _ => and_congr_right fun _ => exists_congr fun d =>
        and_congr_right fun hd => hwild d label rest hsub hd

theorem domainOwner_of_answers (h : RouterInv r) {n sub : Str} (ha : r.Answers n sub) :
    ∃ d, r.domainOwner d = some n := by
  rcases ha with ⟨d, -, -, hd⟩ | ⟨-, _, _, -, -, -, d, -, hd⟩
  · exact ⟨d, h.holds_iff.1 hd⟩
  · exact ⟨d, h.holds_iff.1 hd⟩

theorem resolveRoute_congr (h : RouterInv r) (h' : RouterInv r')
    (htld : r'.config.tld = r.config.tld) {host : Str}
    (hanswers : Routable host → ∀ sub n, canonicalHost host = sub ++ '.' :: r.config.tld.text →
      (r'.Answers n sub ↔ r.Answers n sub))
    (hroute : ∀ d n, r.domainOwner d = some n → r'.routeFor n = r.routeFor n) :
    r'.resolveRoute host = r.resolveRoute host := by
  refine Option.ext fun c => ?_
  rw [h'.resolveRoute_eq_some_iff, h.resolveRoute_eq_some_iff, htld]
  refine and_congr_right fun hhost => exists_congr fun sub => and_congr_right fun hsub =>
    and_congr_right fun _ => ?_
  rw [hanswers hhost sub c.name hsub]
  refine and_congr_left fun ha => ?_
  obtain ⟨d, hd⟩ := h.domainOwner_of_answers ha
  rw [hroute d c.name hd]

end RouterInv

end Orcker.Core

namespace Orcker.Daemon

open Base Orcker.Core Orcker.Schema

/-- `e` joined the entrants, which kept their order. -/
def Joins (es es' : List Entrant) (e : Entrant) : Prop :=
  ∃ before after, es = before ++ after ∧ es' = before ++ e :: after

namespace Joins

variable {es es' : List Entrant} {e o : Entrant} {domains : DomainsSection} {d : Domain}

theorem find?_eq (h : Joins es es' e) {p : Entrant → Bool} (hp : p e = false) :
    es'.find? p = es.find? p := by
  obtain ⟨before, after, rfl, rfl⟩ := h
  rw [List.find?_append, List.find?_append, List.find?_cons_of_neg (by simp [hp])]

theorem mem (h : Joins es es' e) : e ∈ es' := by
  obtain ⟨before, after, rfl, rfl⟩ := h
  exact List.mem_append_right _ List.mem_cons_self

theorem mem_of_mem (h : Joins es es' e) {e' : Entrant} (he' : e' ∈ es') : e' = e ∨ e' ∈ es := by
  obtain ⟨before, after, rfl, rfl⟩ := h
  rw [List.mem_append, List.mem_cons] at he'
  rw [List.mem_append]
  tauto

theorem owner_other (h : Joins es es' e) (hwants : e.wants domains d = false) :
    owner es' domains d = owner es domains d := by
  have hexplicit : e.wantsExplicitly domains d = false := by
    rw [Entrant.wantsExplicitly, hwants, Bool.false_and]
  rw [owner, owner, h.find?_eq hwants, h.find?_eq hexplicit]

/-- A domain that nobody had goes to the newcomer that wants it. -/
theorem owner_joined (h : Joins es es' e) (hnone : owner es domains d = none)
    (hwants : e.wants domains d = true) : owner es' domains d = some e := by
  have honly : ∀ e' ∈ es', e'.wants domains d = true → e' = e := by
    intro e' he' hwants'
    refine (h.mem_of_mem he').resolve_right fun hmem => ?_
    rw [owner_eq_none_iff.1 hnone e' hmem] at hwants'
    cases hwants'
  refine owner_of_first (List.append_nil es').symm h.mem hwants honly (.inr fun e' he' => ?_)
  cases he'

/-- The newcomer's apex stays with whoever added it. -/
theorem owner_explicit (h : Joins es es' e) (howner : owner es domains d = some o)
    (hexplicit : d ≠ Domain.apex o.name) (himplicit : d = Domain.apex e.name) :
    owner es' domains d = some o := by
  have hnot : e.wantsExplicitly domains d = false := by
    rw [Entrant.wantsExplicitly, decide_eq_false (not_not.2 himplicit), Bool.and_false]
  obtain ⟨hmem, hwants⟩ := wants_of_owner howner
  have hfind : es.find? (Entrant.wantsExplicitly domains d) = some o := by
    rw [owner, Option.or_eq_some_iff] at howner
    refine howner.resolve_right fun hnone => ?_
    exact List.find?_eq_none.1 hnone.1 o hmem (Entrant.wantsExplicitly_iff.2 ⟨hwants, hexplicit⟩)
  rw [owner, h.find?_eq hnot, hfind, Option.some_or]

end Joins

def allProxies (cfg : Config) : List ProxySite := cfg.proxies ++ projectProxies cfg.projects

/-- `cfg'` has one proxy more than `cfg`, under a name that was free. -/
structure AddsProxy (cfg cfg' : Config) (p : ProxySite) : Prop where
  split : ∃ before after, allProxies cfg = before ++ after ∧ allProxies cfg' = before ++ p :: after
  fresh : ∀ q ∈ allProxies cfg, q.name.text ≠ p.name.text
  domains : cfg'.domains = cfg.domains
  tld : cfg'.tld = cfg.tld

namespace AddsProxy

variable {cfg cfg' : Config} {p : ProxySite} {sites : List Site} {d : Domain} {host : Str}

def newcomer (sites : List Site) (p : ProxySite) : Entrant :=
  proxyEntrant ((firstSites sites).map fun s => s.name.text) p

theorem joins (h : AddsProxy cfg cfg' p) (sites : List Site) :
    Joins (entrants cfg sites) (entrants cfg' sites) (newcomer sites p) := by
  obtain ⟨before, after, hcfg, hcfg'⟩ := h.split
  have hfresh := h.fresh
  rw [hcfg] at hfresh
  obtain ⟨kept, kept', hkept, hkept'⟩ := keepFirst_insert (fun p : ProxySite => p.name.text)
    (fun q hq => hfresh q (List.mem_append_left _ hq))
    fun q hq => hfresh q (List.mem_append_right _ hq)
  have hfirst : firstProxies cfg = kept ++ kept' := by
    rw [← hkept, ← hcfg]
    rfl
  have hfirst' : firstProxies cfg' = kept ++ p :: kept' := by
    rw [← hkept', ← hcfg']
    rfl
  refine ⟨(firstSites sites).map siteEntrant ++ kept.map (newcomer sites),
    kept'.map (newcomer sites), ?_, ?_⟩
  · rw [entrants, hfirst, List.map_append, List.append_assoc]
    rfl
  · rw [entrants, hfirst', List.map_append, List.map_cons, List.append_assoc]
    rfl

theorem domainOwner_ne (h : AddsProxy cfg cfg' p)
    (hsites : (build cfg sites).router.sites[p.name.text]? = none) :
    (build cfg sites).router.domainOwner d ≠ some p.name.text := by
  intro howner
  rw [build_domainOwner_eq, Option.map_eq_some_iff] at howner
  obtain ⟨o, ho, hname⟩ := howner
  rcases mem_entrants (wants_of_owner ho).1 with ⟨s, hs, -⟩ | ⟨q, hq, rfl⟩
  · rw [hname, hsites] at hs
    cases hs
  · exact h.fresh q ((keepFirst_sublist _ _ _).subset hq) hname

theorem routeFor_other (h : AddsProxy cfg cfg' p) {n : Str} (hn : n ≠ p.name.text) :
    (build cfg' sites).router.routeFor n = (build cfg sites).router.routeFor n := by
  obtain ⟨before, after, hcfg, hcfg'⟩ := h.split
  unfold allProxies at hcfg hcfg'
  rw [SiteRouter.routeFor, SiteRouter.routeFor, build_sites, build_sites, build_proxySites,
    build_proxySites, hcfg, hcfg', List.find?_append, List.find?_append,
    List.find?_cons_of_neg (by simpa using Ne.symm hn)]

theorem routeFor_new (h : AddsProxy cfg cfg' p)
    (hsites : (build cfg sites).router.sites[p.name.text]? = none) :
    (build cfg' sites).router.routeFor p.name.text = some (.proxy p) := by
  obtain ⟨before, after, hcfg, hcfg'⟩ := h.split
  have hfresh : before.find? (fun q => q.name.text = p.name.text) = none := by
    rw [List.find?_eq_none]
    intro q hq heq
    exact h.fresh q (hcfg ▸ List.mem_append_left _ hq) (by simpa using heq)
  have hfind : (cfg'.proxies ++ projectProxies cfg'.projects).find?
      (fun q => q.name.text = p.name.text) = some p := by
    show (allProxies cfg').find? _ = _
    rw [hcfg', List.find?_append, hfresh, List.find?_cons_of_pos (by simp)]
    rfl
  have hnames : p.name.text ∉ sites.map fun s => s.name.text := by
    rw [build_sites, List.find?_eq_none] at hsites
    intro hmem
    obtain ⟨s, hs, heq⟩ := List.mem_map.1 hmem
    exact hsites s hs (by simpa using heq)
  rw [SiteRouter.routeFor, build_sites, ← build_sites cfg, hsites, build_proxySites,
    if_neg hnames, hfind]
  rfl

theorem domainOwner_other (h : AddsProxy cfg cfg' p)
    (hwants : (newcomer sites p).wants cfg.domains d = false) :
    (build cfg' sites).router.domainOwner d = (build cfg sites).router.domainOwner d := by
  rw [build_domainOwner_eq, build_domainOwner_eq, h.domains, (h.joins sites).owner_other hwants]

theorem resolveRoute_eq (h : AddsProxy cfg cfg' p)
    (howner : Routable host → ∀ sub, canonicalHost host = sub ++ '.' :: cfg.tld.text →
      ∀ d : Domain, d.sub = sub ∨ ('.' ∈ sub ∧ d.isWildcard = true) →
        (build cfg' sites).router.domainOwner d = (build cfg sites).router.domainOwner d)
    (hroute : ∀ d n, (build cfg sites).router.domainOwner d = some n →
      (build cfg' sites).router.routeFor n = (build cfg sites).router.routeFor n) :
    (build cfg' sites).router.resolveRoute host = (build cfg sites).router.resolveRoute host := by
  have htld : (build cfg sites).router.config.tld = cfg.tld := by
    rw [build_config]
    rfl
  have htld' : (build cfg' sites).router.config.tld = cfg.tld := by
    rw [build_config, h.tld]
    rfl
  refine (build_inv cfg sites).resolveRoute_congr (build_inv cfg' sites) (htld'.trans htld.symm)
    ?_ hroute
  intro hhost sub n hsub
  rw [htld] at hsub
  exact (build_inv cfg sites).answers_congr (build_inv cfg' sites) (howner hhost sub hsub)

theorem resolveRoute_new (h : AddsProxy cfg cfg' p)
    (hsites : (build cfg sites).router.sites[p.name.text]? = none)
    (howner : (build cfg' sites).router.domainOwner (Domain.apex p.name) = some p.name.text)
    (hhost : normalise host = .hostname (p.name.text ++ '.' :: cfg.tld.text)) :
    (build cfg' sites).router.resolveRoute host = some (.proxy p) := by
  have hinv := build_inv cfg' sites
  have htld : (build cfg' sites).router.config.tld = cfg.tld := by
    rw [build_config, h.tld]
    rfl
  obtain ⟨hroutable, hcanonical, -, -⟩ := normalise_eq_hostname_iff.1 hhost
  rw [hinv.resolveRoute_eq_some_iff, htld]
  refine ⟨hroutable, p.name.text, hcanonical.symm, p.name.sub_ne_nil, h.routeFor_new hsites, ?_⟩
  refine .inl ⟨Domain.apex p.name, ?_, ?_, hinv.holds_iff.2 howner⟩
  · rw [Domain.apex_eq]
  · rw [Domain.apex_eq]
    exact p.name.exact

theorem domainOwner_new (h : AddsProxy cfg cfg' p)
    (hnone : (build cfg sites).router.domainOwner d = none)
    (hwants : (newcomer sites p).wants cfg.domains d = true) :
    (build cfg' sites).router.domainOwner d = some p.name.text := by
  rw [build_domainOwner_eq, Option.map_eq_none_iff] at hnone
  rw [build_domainOwner_eq, h.domains, (h.joins sites).owner_joined hnone hwants]
  rfl

theorem eligible_newcomer :
    (newcomer sites p).eligible = true ↔ (build cfg sites).router.sites[p.name.text]? = none := by
  rw [newcomer, proxyEntrant, Bool.not_eq_true', decide_eq_false_iff_not]
  constructor
  · intro h
    cases hs : (build cfg sites).router.sites[p.name.text]? with
    | none => rfl
    | some s =>
      obtain ⟨hmem, hname⟩ := build_sites_eq_some_iff.1 hs
      exact absurd (List.mem_map.2 ⟨s, hmem, hname⟩) h
  · intro h hmem
    obtain ⟨s, hs, hname⟩ := List.mem_map.1 hmem
    rw [build_sites_eq_some_iff.2 ⟨hs, hname⟩] at h
    cases h

end AddsProxy

end Orcker.Daemon
