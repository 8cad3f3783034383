import Orcker.Daemon.Entrants
import Orcker.Daemon.Scan

/-!
# Editing the domains of a claimant

What an edit of a stored delta does to routing: the entrants stay as they are, and ownership follows
from what each of them wants. A mutation finds the delta by whether the name is a linked site's,
construction by the kind of the site. They disagree about a linked site of kind `parked`, which can
also share the delta of a parked one (`Starves`).
-/

namespace Orcker.Daemon

open Base Orcker.Core Orcker.Schema List Entrant Domain DomainDelta DomainTarget

/-! ## What a delta gives -/

/-- The domains a delta gives the claimant of a name. -/
def effectiveOf (delta : DomainDelta) (name : ProxyName) : List Domain :=
  effectiveDomains name delta.added delta.suppressed

theorem effectiveOf_default (name : ProxyName) : effectiveOf .default name = [Domain.apex name] := by
  have hexact : [apex name].any (fun d => !d.isWildcard) = true := by
    rw [any_cons, apex_eq, name.exact]
    rfl
  exact if_pos hexact

theorem planDomains_eq (name : ProxyName) (delta : Option DomainDelta) :
    planDomains name delta =
      (effectiveOf (delta.getD .default) name,
        choosePrimary name (effectiveOf (delta.getD .default) name)
          (delta.getD .default).primary) := by
  cases delta <;> rfl

theorem effective_eq (domains : DomainsSection) (e : Entrant) :
    e.effective domains = effectiveOf ((e.source.get domains).getD .default) e.name := by
  rw [effective, planDomains_eq]

theorem DomainTarget.get_put (domains : DomainsSection) (delta : Option DomainDelta)
    (t u : DomainTarget) : u.get (t.put domains delta) = if u = t then delta else u.get domains := by
  cases t <;> cases u <;>
    simp only [get, put, OrdMap.getElem?_put, linked.injEq, parked.injEq,
      proxy.injEq, reduceCtorEq, if_false]

/-- A delta that changes nothing may as well not be stored. -/
theorem getD_prune (delta : DomainDelta) :
    (if delta.isEmpty then none else some delta).getD .default = delta := by
  obtain ⟨added, suppressed, primary⟩ := delta
  split
  · rename_i h
    simp only [DomainDelta.isEmpty, Bool.and_eq_true, List.isEmpty_iff, Option.isNone_iff_eq_none] at h
    obtain ⟨⟨rfl, rfl⟩, rfl⟩ := h
    rfl
  · rfl

/-- Only the claimants that read the stored delta want something else. -/
theorem deltaOf_storeDelta (cfg : Config) (t u : DomainTarget) (delta : DomainDelta) :
    deltaOf (storeDelta cfg t delta) u = if u = t then delta else deltaOf cfg u := by
  rw [deltaOf, storeDelta, get_put]
  split
  · exact getD_prune delta
  · rfl

theorem effective_eq_deltaOf (cfg : Config) (e : Entrant) :
    e.effective cfg.domains = effectiveOf (deltaOf cfg e.source) e.name :=
  effective_eq cfg.domains e

/-- Only those that read the edited delta want something else afterwards. -/
theorem effective_storeDelta (cfg : Config) (t : DomainTarget) (delta : DomainDelta) (e : Entrant) :
    e.effective (storeDelta cfg t delta).domains =
      if e.source = t then effectiveOf delta e.name else e.effective cfg.domains := by
  rw [effective_eq_deltaOf, deltaOf_storeDelta, effective_eq_deltaOf]
  split <;> rfl

/-! ### Adding a domain to a delta -/

section Add

variable {delta : DomainDelta} {claimant name : ProxyName} {dom d : Domain}

theorem mem_effectiveOf :
    d ∈ effectiveOf delta name ↔
      (d = Domain.apex name ∧
        (Domain.apex name ∉ delta.suppressed ∨ ∀ e ∈ delta.added, e.isWildcard = true)) ∨
        d ∈ delta.added := mem_effectiveDomains

theorem mem_added_add (h : d ≠ dom) :
    d ∈ (DomainDelta.add (Domain.apex claimant) dom delta).added ↔ d ∈ delta.added := by
  rw [add]
  split
  · rfl
  · split
    · rfl
    · rw [mem_append, mem_singleton, or_iff_left h]

theorem added_subset_add :
    delta.added ⊆ (DomainDelta.add (Domain.apex claimant) dom delta).added := by
  intro e he
  rw [add]
  split
  · exact he
  · split
    · exact he
    · exact mem_append_left _ he

theorem mem_suppressed_add :
    d ∈ (DomainDelta.add (Domain.apex claimant) dom delta).suppressed ↔
      d ∈ delta.suppressed ∧ ¬(dom = Domain.apex claimant ∧ d = dom) := by
  rw [add]
  split
  · rename_i hdom
    rw [mem_filter, decide_eq_true_eq, hdom, eq_self, true_and]
  · rename_i hdom
    split
    · exact ⟨fun h => ⟨h, fun h' => hdom h'.1⟩, And.left⟩
    · exact ⟨fun h => ⟨h, fun h' => hdom h'.1⟩, And.left⟩

theorem mem_effectiveOf_add_self :
    dom ∈ effectiveOf (DomainDelta.add (Domain.apex claimant) dom delta) claimant := by
  rw [mem_effectiveOf]
  by_cases hdom : dom = apex claimant
  · refine .inl ⟨hdom, .inl fun hmem => ?_⟩
    exact (mem_suppressed_add.1 hmem).2 ⟨hdom, hdom.symm⟩
  · refine .inr ?_
    rw [add, if_neg hdom]
    split
    · rename_i h
      exact h
    · exact mem_append_right _ mem_cons_self

theorem mem_effectiveOf_of_add (hne : d ≠ dom)
    (h : d ∈ effectiveOf (DomainDelta.add (Domain.apex claimant) dom delta) name) :
    d ∈ effectiveOf delta name := by
  rw [mem_effectiveOf, mem_added_add hne] at h
  rw [mem_effectiveOf]
  rcases h with ⟨rfl, hsuppressed | hwild⟩ | h
  · refine .inl ⟨rfl, .inl fun hmem => hsuppressed ?_⟩
    exact mem_suppressed_add.2 ⟨hmem, fun h => hne h.2⟩
  · exact .inl ⟨rfl, .inr fun e he => hwild e (added_subset_add he)⟩
  · exact .inr h

/-- The reader of a delta is left with its apex only for want of an exact domain,
and `dom` is to become one. -/
structure LosesApex (delta : DomainDelta) (claimant name : ProxyName) (dom : Domain) : Prop where
  suppressed : Domain.apex name ∈ delta.suppressed
  onlyWildcards : ∀ e ∈ delta.added, e.isWildcard = true
  exact : dom.isWildcard = false
  added : dom ≠ Domain.apex claimant

theorem mem_effectiveOf_add (h : d ∈ effectiveOf delta name)
    (hkeep : ¬(LosesApex delta claimant name dom ∧ d = Domain.apex name)) :
    d ∈ effectiveOf (DomainDelta.add (Domain.apex claimant) dom delta) name := by
  rw [mem_effectiveOf] at h ⊢
  rcases h with ⟨rfl, h⟩ | h
  · by_cases hsuppressed : apex name ∈ delta.suppressed
    · have hwild := h.resolve_left (not_not.2 hsuppressed)
      refine .inl ⟨rfl, ?_⟩
      by_cases hdom : dom = apex claimant
      · refine .inr fun e he => hwild e ?_
        rwa [add, if_pos hdom] at he
      · -- The new domain is a wildcard, or the apex would go.
        have hexact : dom.isWildcard = true := by
          by_contra hexact
          exact hkeep ⟨⟨hsuppressed, hwild, Bool.eq_false_iff.2 hexact, hdom⟩, rfl⟩
        refine .inr fun e he => ?_
        by_cases heq : e = dom
        · rw [heq, hexact]
        · exact hwild e ((mem_added_add heq).1 he)
    · exact .inl ⟨rfl, .inl fun hmem => hsuppressed (mem_suppressed_add.1 hmem).1⟩
  · exact .inr (added_subset_add h)

theorem LosesApex.notMem (h : LosesApex delta claimant name dom) (hne : dom ≠ Domain.apex name) :
    Domain.apex name ∉ effectiveOf (DomainDelta.add (Domain.apex claimant) dom delta) name := by
  have hself : dom ∈ effectiveOf (add (apex claimant) dom delta) claimant :=
    mem_effectiveOf_add_self
  rw [mem_effectiveOf] at hself ⊢
  have hadded := hself.resolve_left fun h' => h.added h'.1
  rintro (⟨-, hsuppressed | hwild⟩ | hmem)
  · exact hsuppressed (mem_suppressed_add.2 ⟨h.suppressed, fun h' => h.added h'.1⟩)
  · have := hwild dom hadded
    rw [h.exact] at this
    cases this
  · have := h.onlyWildcards _ ((mem_added_add hne.symm).1 hmem)
    rw [apex_eq, name.exact] at this
    cases this

end Add

/-! ## Ownership after an edit -/

section Ownership

variable {es : List Entrant} {domains domains' : DomainsSection} {d : Domain} {e : Entrant}

theorem wants_of_owner (h : owner es domains d = some e) : e ∈ es ∧ e.wants domains d = true := by
  rw [owner, Option.or_eq_some_iff] at h
  rcases h with h | ⟨-, h⟩
  · exact ⟨mem_of_find?_eq_some h, (wantsExplicitly_iff.1 (find?_some h)).1⟩
  · exact ⟨mem_of_find?_eq_some h, find?_some h⟩

/-- An owner that still wants its domain keeps it when nobody comes to want it. -/
theorem owner_of_still_wants (h : owner es domains d = some e) (hwants : e.wants domains' d = true)
    (hsub : ∀ e' ∈ es, e'.wants domains' d = true → e'.wants domains d = true) :
    owner es domains' d = some e := by
  have hexplicit : ∀ e' ∈ es, e'.wantsExplicitly domains' d = true →
      e'.wantsExplicitly domains d = true := by
    intro e' he' h'
    obtain ⟨hwants', hne⟩ := wantsExplicitly_iff.1 h'
    exact wantsExplicitly_iff.2 ⟨hsub e' he' hwants', hne⟩
  rw [owner, Option.or_eq_some_iff] at h ⊢
  rcases h with h | ⟨hnone, h⟩
  · have hne := (wantsExplicitly_iff.1 (find?_some h)).2
    exact .inl (find?_eq_some_of_imp h (wantsExplicitly_iff.2 ⟨hwants, hne⟩) hexplicit)
  · refine .inr ⟨?_, find?_eq_some_of_imp h hwants hsub⟩
    rw [find?_eq_none] at hnone ⊢
    exact fun e' he' h' => hnone e' he' (hexplicit e' he' h')

theorem owner_of_first {before after : List Entrant} (hes : es = before ++ after) (he : e ∈ before)
    (hwants : e.wants domains d = true)
    (hfirst : ∀ e' ∈ before, e'.wants domains d = true → e' = e)
    (hrest : d ≠ Domain.apex e.name ∨ ∀ e' ∈ after, e'.wants domains d = true → e' = e) :
    owner es domains d = some e := by
  rw [owner, Option.or_eq_some_iff]
  by_cases hne : d ≠ apex e.name
  · refine .inl ?_
    rw [hes, find?_append, Option.or_eq_some_iff]
    refine .inl (find?_eq_some_of_unique he (wantsExplicitly_iff.2 ⟨hwants, hne⟩) ?_)
    exact fun e' he' h' => hfirst e' he' (wantsExplicitly_iff.1 h').1
  · have honly : ∀ e' ∈ es, e'.wants domains d = true → e' = e := by
      intro e' he' h'
      rw [hes] at he'
      rcases mem_append.1 he' with he' | he'
      · exact hfirst e' he' h'
      · exact hrest.resolve_left hne e' he' h'
    refine .inr ⟨?_, find?_eq_some_of_unique (hes ▸ mem_append_left after he) hwants honly⟩
    rw [find?_eq_none]
    intro e' he' h'
    obtain ⟨h', hne'⟩ := wantsExplicitly_iff.1 h'
    rw [honly e' he' h'] at hne'
    exact hne hne'

theorem owner_congr (h : ∀ e ∈ es, e.effective domains' = e.effective domains) :
    owner es domains' d = owner es domains d := by
  have hwants : ∀ e ∈ es, e.wants domains' d = e.wants domains d := by
    intro e he
    rw [wants, wants, h e he]
  cases ho : owner es domains d with
  | none =>
    rw [owner_eq_none_iff] at ho ⊢
    exact fun e he => (hwants e he).trans (ho e he)
  | some e =>
    obtain ⟨he, hw⟩ := wants_of_owner ho
    refine owner_of_still_wants ho ((hwants e he).trans hw) fun e' he' h' => ?_
    rw [← hwants e' he']
    exact h'

end Ownership

/-! ## Who reads the delta a mutation edits -/

/-- The delta of the site is stored under its name and read under its document
root: a linked site of kind `parked`. -/
def Misfiled (cfg : Config) (router : SiteRouter) (n : Str) : Prop :=
  n ∈ linkedNames cfg ∧ ∃ s, router.sites[n]? = some s ∧ s.kind = .parked

/-- The claimant that a mutation edits, and that it reads the delta before any
other reader. -/
structure Reader (cfg : Config) (sites : List Site) (t : DomainTarget) (e : Entrant) : Prop where
  mem : e ∈ entrants cfg sites
  eligible : e.eligible = true
  source : e.source = t
  first : ∃ before after, entrants cfg sites = before ++ after ∧ e ∈ before ∧
    ∀ e' ∈ before, e'.source = t → e' = e
  others : ∀ e' ∈ entrants cfg sites, e'.source = t → e' ≠ e → ∃ key, t = .parked key

section Readers

variable {world : ScanWorld} {defaultPhp : PhpVersion} {cfg : Config} {sites : List Site}
  {watch : List Path} {n key : Str} {t : DomainTarget} {claimant : ProxyName}

theorem notMem_linkedNames_iff : n ∉ linkedNames cfg ↔ ∀ s ∈ cfg.linked, s.name.text ≠ n := by
  rw [linkedNames, mem_map]
  constructor
  · intro h s hs heq
    exact h ⟨s, hs, heq⟩
  · rintro h ⟨s, hs, heq⟩
    exact h s hs heq

variable {e : Entrant} {s : Site}

theorem reader_of_unique (hmem : e ∈ entrants cfg sites) (helig : e.eligible = true)
    (hsource : e.source = t) (huniq : ∀ e' ∈ entrants cfg sites, e'.source = t → e' = e) :
    Reader cfg sites t e :=
  ⟨hmem, helig, hsource, ⟨_, [], (append_nil _).symm, hmem, huniq⟩,
    fun e' he' h hne => absurd (huniq e' he' h) hne⟩

theorem siteSource_eq_linked (h : siteSource s = .linked n) :
    s.kind = .linked ∧ s.name.text = n := by
  rw [siteSource] at h
  split at h
  · rename_i hkind
    exact ⟨hkind, linked.inj h⟩
  · cases h

theorem siteSource_eq_parked (h : siteSource s = .parked key) :
    s.kind = .parked ∧ overrideKey s = key := by
  rw [siteSource] at h
  split at h
  · cases h
  · rename_i hkind
    exact ⟨hkind, parked.inj h⟩

theorem source_eq_linked (he : e ∈ entrants cfg sites) (h : e.source = .linked n) :
    ∃ s, (build cfg sites).router.sites[n]? = some s ∧ s.kind = .linked ∧ e = siteEntrant s := by
  rcases mem_entrants he with ⟨s, hs, rfl⟩ | ⟨p, -, rfl⟩
  · obtain ⟨hkind, hn⟩ := siteSource_eq_linked h
    exact ⟨s, hn ▸ hs, hkind, rfl⟩
  · cases h

theorem source_eq_parked (he : e ∈ entrants cfg sites) (h : e.source = .parked key) :
    ∃ s, (build cfg sites).router.sites[e.name.text]? = some s ∧ s.kind = .parked ∧
      overrideKey s = key ∧ e = siteEntrant s := by
  rcases mem_entrants he with ⟨s, hs, rfl⟩ | ⟨p, -, rfl⟩
  · obtain ⟨hkind, hkey⟩ := siteSource_eq_parked h
    exact ⟨s, hs, hkind, hkey, rfl⟩
  · cases h

/-- Parked sites come before the linked ones, and no two of them share a root. -/
theorem reader_of_parked (hscan : scanSites world defaultPhp cfg = .ok (sites, watch))
    (hs : (build cfg sites).router.sites[n]? = some s) (hn : n ∉ linkedNames cfg) :
    s.kind = .parked ∧ Reader cfg sites (.parked (overrideKey s)) (siteEntrant s) := by
  obtain ⟨parked, rfl, hfound⟩ := scanSites_ok hscan
  obtain ⟨hmem, hname⟩ := siteEntrant_mem hs
  have hfirst : firstSites (parked ++ cfg.linked) = firstSites parked ++ _ :=
    keepFirst_append _ _ _ _
  have hs' := (build_sites_eq_some_iff.1 hs).1
  rw [hfirst, mem_append] at hs'
  have hs' : s ∈ firstSites parked := by
    refine hs'.resolve_right fun h => hn ?_
    rw [← hname]
    exact mem_map_of_mem ((keepFirst_sublist _ _ _).subset h)
  have hparked : ∀ s' ∈ firstSites parked, s' ∈ parked :=
    fun s' h => (keepFirst_sublist _ _ _).subset h
  obtain ⟨root, -, dirName, hfoundS⟩ := hfound s (hparked s hs')
  have hsource : siteSource s = .parked (overrideKey s) := by
    rw [siteSource, hfoundS.kind]
  have hsplit : ∃ after, entrants cfg (parked ++ cfg.linked) =
      (firstSites parked).map siteEntrant ++ after :=
    ⟨_, by rw [entrants, hfirst, map_append, append_assoc]⟩
  obtain ⟨after, hsplit⟩ := hsplit
  refine ⟨hfoundS.kind, hmem, rfl, hsource,
    ⟨_, after, hsplit, mem_map_of_mem hs', ?_⟩, fun _ _ _ _ => ⟨_, rfl⟩⟩
  intro e' he' hsource'
  obtain ⟨s', hs'', rfl⟩ := mem_map.1 he'
  obtain ⟨root', -, dirName', hfoundS'⟩ := hfound s' (hparked s' hs'')
  have hkey := (siteSource_eq_parked hsource').2
  have heq : s'.name.text = s.name.text := hfoundS'.name_eq hfoundS hkey
  exact congrArg siteEntrant (inj_on_of_nodup_map (nodup_firstSites parked) hs'' hs' heq)

theorem build_sites_linked (hscan : scanSites world defaultPhp cfg = .ok (sites, watch))
    (hs : cfg.linked.find? (fun s => s.name.text = n) = some s) :
    (build cfg sites).router.sites[n]? = some s := by
  obtain ⟨parked, rfl, hfound⟩ := scanSites_ok hscan
  have hmem : n ∈ linkedNames cfg := by
    have hname : s.name.text = n := by simpa using find?_some hs
    rw [← hname]
    exact mem_map_of_mem (mem_of_find?_eq_some hs)
  have hnone : parked.find? (fun s => s.name.text = n) = none := by
    rw [find?_eq_none]
    intro s' hs' heq
    obtain ⟨root, -, dirName, hfoundS⟩ := hfound s' hs'
    rw [decide_eq_true_eq] at heq
    exact hfoundS.notLinked (heq ▸ hmem)
  rw [build_sites, find?_append, hnone, hs]
  rfl

theorem reader_of_proxy {p : ProxySite} (hsites : (build cfg sites).router.sites[n]? = none)
    (hp : cfg.proxies.find? (fun p => p.name.text = n) = some p) :
    ∃ e, e.name = p.name ∧ Reader cfg sites (.proxy n) e := by
  have hname : p.name.text = n := by simpa using find?_some hp
  have hmem : p ∈ firstProxies cfg := by
    have hkeep := find?_keepFirst_nil (fun p : ProxySite => p.name.text) n
      (cfg.proxies ++ projectProxies cfg.projects)
    rw [find?_append, hp, Option.some_or] at hkeep
    exact mem_of_find?_eq_some hkeep
  have hfree : p.name.text ∉ (firstSites sites).map fun s => s.name.text := by
    intro h
    obtain ⟨s, hs, heq⟩ := mem_map.1 h
    rw [build_sites_eq_some_iff.2 ⟨hs, heq.trans hname⟩] at hsites
    cases hsites
  refine ⟨proxyEntrant _ p, rfl, reader_of_unique (mem_append_right _ (mem_map_of_mem hmem))
    (by rw [proxyEntrant, decide_eq_false hfree]; rfl) (by rw [proxyEntrant, hname]) ?_⟩
  intro e' he' hsource
  rcases mem_append.1 he' with he' | he'
  · obtain ⟨s, -, rfl⟩ := mem_map.1 he'
    rw [siteEntrant, siteSource] at hsource
    split at hsource <;> cases hsource
  · obtain ⟨p', hp', rfl⟩ := mem_map.1 he'
    have heq : p'.name.text = p.name.text := (proxy.inj hsource).trans hname.symm
    have hnodup : ((firstProxies cfg).map fun p => p.name.text).Nodup := nodup_map_keepFirst _ _ _
    rw [inj_on_of_nodup_map hnodup hp' hmem heq]

/-- A mutation edits the delta its claimant reads, unless the site is misfiled. -/
theorem reader_of_resolve (hscan : scanSites world defaultPhp cfg = .ok (sites, watch))
    (hresolve : resolveDomainTarget cfg (build cfg sites).router n = .ok (t, claimant)) :
    (Misfiled cfg (build cfg sites).router n ∧ t = .linked n) ∨
      ¬Misfiled cfg (build cfg sites).router n ∧
        ∃ e, e.name = claimant ∧ e.name.text = n ∧ Reader cfg sites t e := by
  rcases resolveDomainTarget_ok hresolve with
    ⟨s, hs, rfl, rfl⟩ | ⟨hlinked, s, hs, rfl, rfl⟩ | ⟨hlinked, hsites, p, hp, rfl, rfl⟩
  · have hrouted := build_sites_linked hscan hs
    have hname : s.name.text = n := by simpa using find?_some hs
    cases hkind : s.kind with
    | parked =>
      refine .inl ⟨⟨?_, s, hrouted, hkind⟩, rfl⟩
      rw [← hname]
      exact mem_map_of_mem (mem_of_find?_eq_some hs)
    | linked =>
      refine .inr ⟨?_, siteEntrant s, rfl, hname, ?_⟩
      · rintro ⟨-, s', hs', hparked⟩
        rw [hrouted, Option.some.injEq] at hs'
        rw [← hs', hkind] at hparked
        cases hparked
      · refine reader_of_unique (siteEntrant_mem hrouted).1 rfl ?_ ?_
        · show siteSource s = _
          rw [siteSource, hkind, hname]
        · intro e' he' hsource
          obtain ⟨s', hs', -, rfl⟩ := source_eq_linked he' hsource
          rw [hrouted, Option.some.injEq] at hs'
          rw [hs']
  · have hn := notMem_linkedNames_iff.2 hlinked
    exact .inr ⟨fun h => hn h.1, siteEntrant s, rfl, (siteEntrant_mem hs).2,
      (reader_of_parked hscan hs hn).2⟩
  · have hn := notMem_linkedNames_iff.2 hlinked
    obtain ⟨e, hname, hreader⟩ := reader_of_proxy hsites hp
    refine .inr ⟨fun h => hn h.1, e, hname, ?_, hreader⟩
    rw [hname]
    simpa using find?_some hp

end Readers

/-! ## Adding a domain -/

/-- One name is one entrant, so ownership may be read by name. -/
theorem build_domainOwner_iff {cfg : Config} {sites : List Site} {e : Entrant} {d : Domain}
    (he : e ∈ entrants cfg sites) (helig : e.eligible = true) :
    (build cfg sites).router.domainOwner d = some e.name.text ↔
      owner (entrants cfg sites) cfg.domains d = some e := by
  rw [build_domainOwner_eq, Option.map_eq_some_iff]
  constructor
  · rintro ⟨o, ho, hname⟩
    obtain ⟨hmem, hwants⟩ := wants_of_owner ho
    rw [ho, entrant_unique hmem (wants_iff.1 hwants).1 he helig hname]
  · intro h
    exact ⟨e, h, rfl⟩

section Adding

variable {cfg : Config} {sites : List Site} {t : DomainTarget} {e e' : Entrant} {dom d : Domain}
  {delta : DomainDelta}

/-- What `delta` gives is what adding `dom` to the stored delta gives. -/
def AddsTo (cfg : Config) (t : DomainTarget) (claimant : ProxyName) (dom : Domain)
    (delta : DomainDelta) : Prop :=
  ∀ name, effectiveOf delta name =
    effectiveOf (DomainDelta.add (Domain.apex claimant) dom (deltaOf cfg t)) name

theorem effective_of_addsTo (h : AddsTo cfg t e.name dom delta) (hsource : e'.source = t) :
    e'.effective (storeDelta cfg t delta).domains =
        effectiveOf (DomainDelta.add (Domain.apex e.name) dom (deltaOf cfg t)) e'.name ∧
      e'.effective cfg.domains = effectiveOf (deltaOf cfg t) e'.name := by
  rw [effective_storeDelta, if_pos hsource, h, effective_eq_deltaOf, hsource]
  exact ⟨rfl, rfl⟩

theorem wants_of_addsTo (h : AddsTo cfg t e.name dom delta) (hne : d ≠ dom)
    (hwants : e'.wants (storeDelta cfg t delta).domains d = true) :
    e'.wants cfg.domains d = true := by
  rw [wants_iff] at hwants ⊢
  refine ⟨hwants.1, ?_⟩
  by_cases hsource : e'.source = t
  · have heff := effective_of_addsTo h hsource
    rw [heff.1] at hwants
    rw [heff.2]
    exact mem_effectiveOf_of_add hne hwants.2
  · rw [effective_storeDelta, if_neg hsource] at hwants
    exact hwants.2

theorem wants_added (h : AddsTo cfg t e.name dom delta) (he : e ∈ entrants cfg sites)
    (helig : e.eligible = true) (he' : e' ∈ entrants cfg sites)
    (hwants : e'.wants (storeDelta cfg t delta).domains dom = true) :
    e'.wants cfg.domains dom = true ∨ e'.source = t ∧ (dom = Domain.apex e.name → e' = e) := by
  by_cases hsource : e'.source = t
  · have heff := effective_of_addsTo h hsource
    rw [wants_iff, heff.1] at hwants
    rw [wants_iff, heff.2]
    by_cases hdom : dom = apex e.name
    · rcases mem_effectiveOf.1 hwants.2 with hapex | hadded
      · refine .inr ⟨hsource, fun _ => entrant_unique he' hwants.1 he helig ?_⟩
        have hsub : (apex e.name).sub = (apex e'.name).sub := by rw [← hdom, ← hapex.1]
        rw [apex_eq, apex_eq] at hsub
        exact hsub.symm
      · refine .inl ⟨hwants.1, mem_effectiveOf.2 (.inr ?_)⟩
        rwa [add, if_pos hdom] at hadded
    · exact .inr ⟨hsource, fun h => absurd h hdom⟩
  · rw [wants_iff, effective_storeDelta, if_neg hsource] at hwants
    exact .inl (wants_iff.2 hwants)

theorem wants_self (h : AddsTo cfg t e.name dom delta) (hreader : Reader cfg sites t e) :
    e.wants (storeDelta cfg t delta).domains dom = true := by
  rw [wants_iff, (effective_of_addsTo h hreader.source).1]
  exact ⟨hreader.eligible, mem_effectiveOf_add_self⟩

theorem owner_added (h : AddsTo cfg t e.name dom delta) (hreader : Reader cfg sites t e)
    (hfree : ∀ o, owner (entrants cfg sites) cfg.domains dom = some o → o = e) :
    owner (entrants cfg sites) (storeDelta cfg t delta).domains dom = some e := by
  have hself := wants_self h hreader
  cases ho : owner (entrants cfg sites) cfg.domains dom with
  | none =>
    have hnobody := owner_eq_none_iff.1 ho
    have hnew : ∀ e' ∈ entrants cfg sites,
        e'.wants (storeDelta cfg t delta).domains dom = true →
        e'.source = t ∧ (dom = apex e.name → e' = e) := by
      intro e' he' hwants
      refine (wants_added h hreader.mem hreader.eligible he' hwants).resolve_left ?_
      rw [hnobody e' he']
      exact Bool.false_ne_true
    obtain ⟨before, after, hes, hmem, hfirst⟩ := hreader.first
    refine owner_of_first hes hmem hself ?_ ?_
    · intro e' he' hwants
      exact hfirst e' he' (hnew e' (hes ▸ mem_append_left _ he') hwants).1
    · refine or_iff_not_imp_left.2 fun hdom e' he' hwants => ?_
      exact (hnew e' (hes ▸ mem_append_right _ he') hwants).2 (not_not.1 hdom)
  | some o =>
    obtain rfl := hfree o ho
    have hwanted := (wants_of_owner ho).2
    refine owner_of_still_wants ho hself fun e' he' hwants => ?_
    rcases wants_added h hreader.mem hreader.eligible he' hwants with hold | ⟨hsource, heq⟩
    · exact hold
    by_cases hdom : dom = apex o.name
    · rw [heq hdom]
      exact hwanted
    · -- The domain is among the added ones already, for whoever reads the delta.
      rw [wants_iff, effective_eq_deltaOf, hreader.source, mem_effectiveOf] at hwanted
      rw [wants_iff, effective_eq_deltaOf, hsource, mem_effectiveOf]
      exact ⟨(wants_iff.1 hwants).1, .inr (hwanted.2.resolve_left fun h => hdom h.1)⟩

theorem owner_kept (h : AddsTo cfg t e.name dom delta)
    (hfree : ∀ o, owner (entrants cfg sites) cfg.domains dom = some o → o = e)
    (ho : owner (entrants cfg sites) cfg.domains d = some e') (hne : e' ≠ e)
    (hkeep : ¬(e'.source = t ∧ LosesApex (deltaOf cfg t) e.name e'.name dom ∧
      d = Domain.apex e'.name)) :
    owner (entrants cfg sites) (storeDelta cfg t delta).domains d = some e' := by
  have hd : d ≠ dom := by
    rintro rfl
    exact hne (hfree e' ho)
  have hwants := (wants_of_owner ho).2
  refine owner_of_still_wants ho ?_ fun e'' _ => wants_of_addsTo h hd
  rw [wants_iff] at hwants ⊢
  refine ⟨hwants.1, ?_⟩
  by_cases hsource : e'.source = t
  · have heff := effective_of_addsTo h hsource
    rw [heff.2] at hwants
    rw [heff.1]
    exact mem_effectiveOf_add hwants.2 fun hloses => hkeep ⟨hsource, hloses⟩
  · rw [effective_storeDelta, if_neg hsource]
    exact hwants.2

theorem owner_lost (h : AddsTo cfg t e.name dom delta) (hne : dom ≠ Domain.apex e'.name)
    (hsource : e'.source = t) (hloses : LosesApex (deltaOf cfg t) e.name e'.name dom) :
    owner (entrants cfg sites) (storeDelta cfg t delta).domains (Domain.apex e'.name) ≠ some e' := by
  intro ho
  have hwants := (wants_iff.1 (wants_of_owner ho).2).2
  rw [(effective_of_addsTo h hsource).1] at hwants
  exact hloses.notMem hne hwants

end Adding

end Orcker.Daemon
