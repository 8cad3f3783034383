import Orcker.Core.Router

/-!
# The router's representation invariant

Four maps and two indices have to stay in step through every operation of both namespaces. Each
operation keeps them so, hence every run does, and a failed call changes nothing at all.
-/

namespace Orcker.Core

open Base OrdMap DomainIndex

namespace SiteRouter

/-- The domain is in the claimant's set. -/
def Holds (r : SiteRouter) (name : Str) (d : Domain) : Prop :=
  ∃ ds, r.domains[name]? = some ds ∧ d ∈ ds

/-- The name is taken, in either namespace. -/
def IsClaimant (r : SiteRouter) (name : Str) : Prop := name ∈ r.sites ∨ name ∈ r.proxySites

end SiteRouter

/-- The maps and the indices tell one story. -/
structure RouterInv (r : SiteRouter) : Prop where
  disjoint : ∀ n ∈ r.sites, n ∉ r.proxySites
  domains_iff : ∀ n, n ∈ r.domains ↔ r.IsClaimant n
  primaries_iff : ∀ n, n ∈ r.primaries ↔ r.IsClaimant n
  lookup_iff : ∀ d n, r.lookup d = some n ↔ r.Holds n d
  sorted : r.toDomainIndex.Sorted
  site_names : ∀ n (site : Site), r.sites[n]? = some site → site.name.text = n
  proxy_names : ∀ n (proxy : ProxySite), r.proxySites[n]? = some proxy → proxy.name.text = n

namespace RouterInv

theorem new (config : RouterConfig) : RouterInv (SiteRouter.new config) := by
  refine ⟨?_, ?_, ?_, ?_, ⟨?_, ?_⟩, ?_, ?_⟩ <;>
    simp [SiteRouter.new, SiteRouter.IsClaimant, SiteRouter.Holds, lookup]

end RouterInv

variable {n : Str} {effective : List Domain} {d : Domain}

namespace SiteRouter

/-- The router after the maps both inserts share have been extended. -/
def claimed (r : SiteRouter) (name : Str) (effective : List Domain) (primary : Domain) :
    SiteRouter :=
  { r with
    toDomainIndex := effective.foldl (DomainIndex.insert · name) r.toDomainIndex
    primaries := r.primaries.insert name primary
    domains := r.domains.insert name effective }

theorem insertClaimant_cases (r : SiteRouter) (name : Str) (effective : List Domain)
    (primary : Domain) (store : SiteRouter → SiteRouter) :
    (∃ e, r.insertClaimant name effective primary store = (.error e, r)) ∨
    (¬r.IsClaimant name ∧ (∀ d ∈ effective, r.lookup d = none) ∧
      r.insertClaimant name effective primary store =
        (.ok (), store (r.claimed name effective primary))) := by
  unfold insertClaimant
  split
  · exact .inl ⟨_, rfl⟩
  rename_i hname
  split
  · exact .inl ⟨_, rfl⟩
  rename_i hfind
  refine .inr ⟨?_, fun d hd => ?_, rfl⟩
  · simpa [IsClaimant] using hname
  · simpa using List.find?_eq_none.1 hfind d hd

variable {m : StrMap (List Domain)}

theorem keyed_insert {m : StrMap α} {key : α → Str} (h : ∀ n a, m[n]? = some a → key a = n)
    {k : Str} {v : α} (hv : key v = k) (n : Str) (a : α) (ha : (m.insert k v)[n]? = some a) :
    key a = n := by
  rw [getElem?_insert] at ha
  split at ha
  · rename_i hn
    cases ha
    rw [hv, hn]
  · exact h n a ha

theorem holds_insert {name : Str} :
    (∃ ds, (m.insert name effective)[n]? = some ds ∧ d ∈ ds) ↔
      if n = name then d ∈ effective else ∃ ds, m[n]? = some ds ∧ d ∈ ds := by
  rw [getElem?_insert]
  by_cases h : n = name <;> simp [h]

theorem holds_erase {name : Str} :
    (∃ ds, (m.erase name)[n]? = some ds ∧ d ∈ ds) ↔
      n ≠ name ∧ ∃ ds, m[n]? = some ds ∧ d ∈ ds := by
  rw [getElem?_erase]
  by_cases h : n = name <;> simp [h]

end SiteRouter

namespace RouterInv

variable {r : SiteRouter} {name : Str}

theorem isClaimant_of_lookup (h : RouterInv r) (hl : r.lookup d = some n) : r.IsClaimant n := by
  obtain ⟨ds, hds, -⟩ := (h.lookup_iff d n).1 hl
  exact (h.domains_iff n).1 ((mem_iff_exists _ _).2 ⟨ds, hds⟩)

section Claims

variable {r' : SiteRouter} (hdisjoint : ∀ n ∈ r'.sites, n ∉ r'.proxySites)
  (hsites : ∀ n (site : Site), r'.sites[n]? = some site → site.name.text = n)
  (hproxies : ∀ n (proxy : ProxySite), r'.proxySites[n]? = some proxy → proxy.name.text = n)

include hdisjoint hsites hproxies

/-- A new claimant of free domains. -/
theorem claim (h : RouterInv r) {primary : Domain} (hfresh : ¬r.IsClaimant name)
    (hfree : ∀ d ∈ effective, r.lookup d = none)
    (hindex : r'.toDomainIndex = (r.claimed name effective primary).toDomainIndex)
    (hdomains : r'.domains = r.domains.insert name effective)
    (hprimaries : r'.primaries = r.primaries.insert name primary)
    (hclaimant : ∀ n, r'.IsClaimant n ↔ n = name ∨ r.IsClaimant n) : RouterInv r' := by
  refine ⟨hdisjoint, fun n => ?_, fun n => ?_, fun d n => ?_, ?_, hsites, hproxies⟩
  · rw [hdomains, hclaimant, ← h.domains_iff, mem_insert]
  · rw [hprimaries, hclaimant, ← h.primaries_iff, mem_insert]
  · rw [hindex, SiteRouter.Holds, hdomains, SiteRouter.holds_insert]
    simp only [SiteRouter.claimed, lookup_foldl_insert]
    by_cases hd : d ∈ effective
    · rw [if_pos hd]
      by_cases hn : n = name
      · simp [hn, hd]
      · have hnone := h.lookup_iff d n
        rw [hfree d hd] at hnone
        rw [if_neg hn, ← SiteRouter.Holds, ← hnone]
        simp [Ne.symm hn]
    · rw [if_neg hd]
      by_cases hn : n = name
      · rw [if_pos hn, hn]
        exact ⟨fun hl => absurd (h.isClaimant_of_lookup hl) hfresh, fun hmem => absurd hmem hd⟩
      · rw [if_neg hn]
        exact h.lookup_iff d n
  · rw [hindex]
    exact h.sorted.foldl_insert name effective

/-- A claimant that goes, with its domains. -/
theorem unclaim (h : RouterInv r) {ds : List Domain} (hds : r.domains[name]? = some ds)
    (hindex : r'.toDomainIndex = ds.foldl (DomainIndex.release · name) r.toDomainIndex)
    (hdomains : r'.domains = r.domains.erase name)
    (hprimaries : r'.primaries = r.primaries.erase name)
    (hclaimant : ∀ n, r'.IsClaimant n ↔ n ≠ name ∧ r.IsClaimant n) : RouterInv r' := by
  refine ⟨hdisjoint, fun n => ?_, fun n => ?_, fun d n => ?_, ?_, hsites, hproxies⟩
  · rw [hdomains, hclaimant, ← h.domains_iff, mem_erase]
  · rw [hprimaries, hclaimant, ← h.primaries_iff, mem_erase]
  · rw [hindex, SiteRouter.Holds, hdomains, SiteRouter.holds_erase, ← SiteRouter.Holds,
      ← h.lookup_iff, lookup_foldl_release]
    split
    · rename_i hreleased
      rw [hreleased.2]
      simp [eq_comm]
    · rename_i hkept
      refine ⟨fun hl => ⟨?_, hl⟩, fun hl => hl.2⟩
      rintro rfl
      obtain ⟨ds', hds', hmem⟩ := (h.lookup_iff d n).1 hl
      rw [hds] at hds'
      cases hds'
      exact hkept ⟨hmem, hl⟩
  · rw [hindex]
    exact h.sorted.foldl_release name ds

end Claims

theorem insertWithDomains (h : RouterInv r) (site : Site) (effective : List Domain)
    (primary : Domain) : RouterInv (r.insertWithDomains site effective primary).2 := by
  unfold SiteRouter.insertWithDomains
  rcases r.insertClaimant_cases site.name.text effective primary
    (fun r => { r with sites := r.sites.insert site.name.text site }) with
    ⟨e, he⟩ | ⟨hfresh, hfree, hok⟩
  · rw [he]
    exact h
  · rw [hok]
    refine h.claim (fun n hn => ?_) (SiteRouter.keyed_insert h.site_names rfl) h.proxy_names hfresh
      hfree rfl rfl rfl fun n => ?_
    · simp only [SiteRouter.claimed, mem_insert] at hn ⊢
      rcases hn with rfl | hn
      · exact fun hp => hfresh (.inr hp)
      · exact h.disjoint n hn
    · simp only [SiteRouter.IsClaimant, SiteRouter.claimed, mem_insert, or_assoc]

theorem insertProxyWithDomains (h : RouterInv r) (proxy : ProxySite) (effective : List Domain)
    (primary : Domain) : RouterInv (r.insertProxyWithDomains proxy effective primary).2 := by
  unfold SiteRouter.insertProxyWithDomains
  rcases r.insertClaimant_cases proxy.name.text effective primary
    (fun r => { r with proxySites := r.proxySites.insert proxy.name.text proxy }) with
    ⟨e, he⟩ | ⟨hfresh, hfree, hok⟩
  · rw [he]
    exact h
  · rw [hok]
    refine h.claim (fun n hn => ?_) h.site_names (SiteRouter.keyed_insert h.proxy_names rfl) hfresh
      hfree rfl rfl rfl fun n => ?_
    · simp only [SiteRouter.claimed, mem_insert, not_or]
      exact ⟨fun heq => hfresh (.inl (heq ▸ hn)), h.disjoint n hn⟩
    · simp only [SiteRouter.IsClaimant, SiteRouter.claimed, mem_insert]
      tauto

theorem exists_domains (h : RouterInv r) (hname : r.IsClaimant name) :
    ∃ ds, r.domains[name]? = some ds :=
  (mem_iff_exists _ _).1 ((h.domains_iff name).2 hname)

theorem remove (h : RouterInv r) (name : Str) : RouterInv (r.remove name).2 := by
  cases hsite : r.sites[name]? with
  | none =>
    simp only [SiteRouter.remove, hsite, erase_of_getElem?_eq_none hsite]
    exact h
  | some site =>
    have hmem : name ∈ r.sites := (mem_iff_exists _ _).2 ⟨site, hsite⟩
    obtain ⟨ds, hds⟩ := h.exists_domains (.inl hmem)
    simp only [SiteRouter.remove, hsite, SiteRouter.releaseClaimant, hds]
    refine h.unclaim (fun n hn => ?_) (fun n s hs => ?_) h.proxy_names hds rfl rfl rfl fun n => ?_
    · exact h.disjoint n ((mem_erase _ _ _).1 hn).2
    · rw [getElem?_erase] at hs
      split at hs
      · cases hs
      · exact h.site_names n s hs
    · simp only [SiteRouter.IsClaimant, mem_erase]
      by_cases hn : n = name
      · simp [hn, h.disjoint name hmem]
      · simp [hn]

theorem removeProxy (h : RouterInv r) (name : Str) : RouterInv (r.removeProxy name).2 := by
  cases hproxy : r.proxySites[name]? with
  | none =>
    simp only [SiteRouter.removeProxy, hproxy, erase_of_getElem?_eq_none hproxy]
    exact h
  | some proxy =>
    have hmem : name ∈ r.proxySites := (mem_iff_exists _ _).2 ⟨proxy, hproxy⟩
    have hnot : name ∉ r.sites := fun hs => h.disjoint name hs hmem
    obtain ⟨ds, hds⟩ := h.exists_domains (.inr hmem)
    simp only [SiteRouter.removeProxy, hproxy, SiteRouter.releaseClaimant, hds]
    refine h.unclaim (fun n hn hp => ?_) h.site_names (fun n p hp => ?_) hds rfl rfl rfl fun n => ?_
    · exact h.disjoint n hn ((mem_erase _ _ _).1 hp).2
    · rw [getElem?_erase] at hp
      split at hp
      · cases hp
      · exact h.proxy_names n p hp
    · simp only [SiteRouter.IsClaimant, mem_erase]
      by_cases hn : n = name
      · simp [hn, hnot]
      · simp [hn]

theorem of_rules (h : RouterInv r) (proxyRules : StrMap (List ProxyRule))
    (routeRules : StrMap (List RouteRule)) : RouterInv { r with proxyRules, routeRules } :=
  ⟨h.disjoint, h.domains_iff, h.primaries_iff, h.lookup_iff, h.sorted, h.site_names,
    h.proxy_names⟩

theorem setProxyRules (h : RouterInv r) (site : Str) (rules : List ProxyRule) :
    RouterInv (r.setProxyRules site rules) := by
  unfold SiteRouter.setProxyRules
  split <;> exact h.of_rules _ r.routeRules

theorem setRouteRules (h : RouterInv r) (site : Str) (rules : List RouteRule) :
    RouterInv (r.setRouteRules site rules) := by
  unfold SiteRouter.setRouteRules
  split <;> exact h.of_rules r.proxyRules _

theorem updateSite (h : RouterInv r) (name : Str) (f : Site.Setter) :
    RouterInv (r.updateSite name f) := by
  unfold SiteRouter.updateSite
  split
  · exact h
  · rename_i site hsite
    have hmem : ∀ n, n ∈ r.sites.insert name (site.set f) ↔ n ∈ r.sites := fun n => by
      rw [mem_insert]
      exact ⟨fun hn => hn.elim (fun heq => heq ▸ (mem_iff_exists _ _).2 ⟨site, hsite⟩) id,
        .inr⟩
    refine ⟨fun n hn => h.disjoint n ((hmem n).1 hn), fun n => ?_, fun n => ?_, h.lookup_iff,
      h.sorted, SiteRouter.keyed_insert h.site_names ?_, h.proxy_names⟩
    · simp only [SiteRouter.IsClaimant, hmem]
      exact h.domains_iff n
    · simp only [SiteRouter.IsClaimant, hmem]
      exact h.primaries_iff n
    · rw [Site.set_name, h.site_names name site hsite]

end RouterInv

/-- The operations that change a router. -/
inductive RouterOp where
  | insert (site : Site)
  | insertWithDomains (site : Site) (effective : List Domain) (primary : Domain)
  | insertProxy (proxy : ProxySite)
  | insertProxyWithDomains (proxy : ProxySite) (effective : List Domain) (primary : Domain)
  | remove (name : Str)
  | removeProxy (name : Str)
  | setProxyRules (site : Str) (rules : List ProxyRule)
  | setRouteRules (site : Str) (rules : List RouteRule)
  | updateSite (name : Str) (f : Site.Setter)

/-- The outcome of a call, its returned value aside, and the router after it. -/
def RouterOp.run : RouterOp → SiteRouter → Except CoreError Unit × SiteRouter
  | .insert site, r => r.insert site
  | .insertWithDomains site effective primary, r => r.insertWithDomains site effective primary
  | .insertProxy proxy, r => r.insertProxy proxy
  | .insertProxyWithDomains proxy effective primary, r =>
    r.insertProxyWithDomains proxy effective primary
  | .remove name, r => ((r.remove name).1.map fun _ => (), (r.remove name).2)
  | .removeProxy name, r => ((r.removeProxy name).1.map fun _ => (), (r.removeProxy name).2)
  | .setProxyRules site rules, r => (.ok (), r.setProxyRules site rules)
  | .setRouteRules site rules, r => (.ok (), r.setRouteRules site rules)
  | .updateSite name f, r => (.ok (), r.updateSite name f)

def SiteRouter.run (r : SiteRouter) (ops : List RouterOp) : SiteRouter :=
  ops.foldl (fun r op => (op.run r).2) r

variable {r : SiteRouter}

theorem RouterInv.op (h : RouterInv r) (op : RouterOp) : RouterInv (op.run r).2 := by
  cases op with
  | insert site => exact h.insertWithDomains site _ _
  | insertWithDomains site effective primary => exact h.insertWithDomains site effective primary
  | insertProxy proxy => exact h.insertProxyWithDomains proxy _ _
  | insertProxyWithDomains proxy effective primary =>
    exact h.insertProxyWithDomains proxy effective primary
  | remove name => exact h.remove name
  | removeProxy name => exact h.removeProxy name
  | setProxyRules site rules => exact h.setProxyRules site rules
  | setRouteRules site rules => exact h.setRouteRules site rules
  | updateSite name f => exact h.updateSite name f

theorem RouterInv.run (h : RouterInv r) (ops : List RouterOp) : RouterInv (r.run ops) := by
  unfold SiteRouter.run
  induction ops generalizing r with
  | nil => exact h
  | cons op ops ih => exact ih (h.op op)

theorem RouterOp.run_error {op : RouterOp} {e : CoreError} (he : (op.run r).1 = .error e) :
    (op.run r).2 = r := by
  have hinsert : ∀ name effective primary store,
      (r.insertClaimant name effective primary store).1 = .error e →
      (r.insertClaimant name effective primary store).2 = r := by
    intro name effective primary store he
    rcases r.insertClaimant_cases name effective primary store with ⟨e', h⟩ | ⟨-, -, h⟩
    · rw [h]
    · rw [h] at he
      cases he
  cases op with
  | insert | insertWithDomains | insertProxy | insertProxyWithDomains => exact hinsert _ _ _ _ he
  | remove name =>
    simp only [RouterOp.run, SiteRouter.remove] at he ⊢
    cases hsite : r.sites[name]? with
    | none => simp only [erase_of_getElem?_eq_none hsite]
    | some site =>
      simp only [hsite] at he
      cases he
  | removeProxy name =>
    simp only [RouterOp.run, SiteRouter.removeProxy] at he ⊢
    cases hproxy : r.proxySites[name]? with
    | none => simp only [erase_of_getElem?_eq_none hproxy]
    | some proxy =>
      simp only [hproxy] at he
      cases he
  | setProxyRules | setRouteRules | updateSite => cases he

namespace RouterInv

variable {r : SiteRouter}

theorem owner_unique (h : RouterInv r) {m : Str} (hm : r.Holds m d) (hn : r.Holds n d) : m = n := by
  have hlm := (h.lookup_iff d m).2 hm
  rw [(h.lookup_iff d n).2 hn] at hlm
  exact (Option.some.inj hlm).symm

theorem exact_entry (h : RouterInv r) {k : Str} (hk : r.exact[k]? = some n) :
    ∃ d : Domain, d.sub = k ∧ d.isWildcard = false ∧ r.Holds n d := by
  obtain ⟨d, rfl, hw⟩ := h.sorted.exact_keys k n hk
  exact ⟨d, rfl, hw, (h.lookup_iff d n).1 (by simpa [lookup, hw] using hk)⟩

theorem wildcard_entry (h : RouterInv r) {k : Str} (hk : r.wildcards[k]? = some n) :
    ∃ d : Domain, d.sub = k ∧ d.isWildcard = true ∧ r.Holds n d := by
  obtain ⟨d, rfl, hw⟩ := h.sorted.wildcard_keys k n hk
  exact ⟨d, rfl, hw, (h.lookup_iff d n).1 (by simpa [lookup, hw] using hk)⟩

theorem isClaimant_of_holds (h : RouterInv r) (hn : r.Holds n d) : r.IsClaimant n :=
  h.isClaimant_of_lookup ((h.lookup_iff d n).2 hn)

end RouterInv

/-- After any sequence of calls, succeeding or failing: the two namespaces are
disjoint; `domains` and `primaries` have exactly their keys; the index a domain
selects maps it to a name just when that name's effective set holds it, no key
sits in the wrong index, no domain has two owners and no entry dangles; and any
further call that fails leaves the whole router as it was. -/
theorem SiteRouter.run_representation (config : RouterConfig) (ops : List RouterOp) :
    let r := (SiteRouter.new config).run ops
    (∀ n, ¬(n ∈ r.sites ∧ n ∈ r.proxySites)) ∧
    (∀ n, n ∈ r.domains ↔ n ∈ r.sites ∨ n ∈ r.proxySites) ∧
    (∀ n, n ∈ r.primaries ↔ n ∈ r.sites ∨ n ∈ r.proxySites) ∧
    (∀ (d : Domain) (n : Str),
      (if d.isWildcard then r.wildcards[d.sub]? else r.exact[d.sub]?) = some n ↔
        ∃ ds, r.domains[n]? = some ds ∧ d ∈ ds) ∧
    (∀ k ∈ r.exact, "*.".toList.isPrefixOf k = false) ∧
    (∀ k ∈ r.wildcards, "*.".toList.isPrefixOf k = true) ∧
    (∀ d m n, r.Holds m d → r.Holds n d → m = n) ∧
    (∀ k n, r.exact[k]? = some n ∨ r.wildcards[k]? = some n →
      (n ∈ r.sites ∨ n ∈ r.proxySites) ∧ ∃ d : Domain, d.sub = k ∧ r.Holds n d) ∧
    (∀ (op : RouterOp) (e : CoreError), (op.run r).1 = .error e → (op.run r).2 = r) := by
  intro r
  have h : RouterInv r := (RouterInv.new config).run ops
  refine ⟨fun n hn => h.disjoint n hn.1 hn.2, h.domains_iff, h.primaries_iff, h.lookup_iff,
    fun k hk => ?_, fun k hk => ?_, fun d m n => h.owner_unique, fun k n hk => ?_,
    fun op e => RouterOp.run_error⟩
  · obtain ⟨n, hn⟩ := (mem_iff_exists _ _).1 hk
    obtain ⟨d, rfl, hw, -⟩ := h.exact_entry hn
    exact hw
  · obtain ⟨n, hn⟩ := (mem_iff_exists _ _).1 hk
    obtain ⟨d, rfl, hw, -⟩ := h.wildcard_entry hn
    exact hw
  · rcases hk with hk | hk
    · obtain ⟨d, hd, -, hn⟩ := h.exact_entry hk
      exact ⟨h.isClaimant_of_holds hn, d, hd, hn⟩
    · obtain ⟨d, hd, -, hn⟩ := h.wildcard_entry hk
      exact ⟨h.isClaimant_of_holds hn, d, hd, hn⟩

end Orcker.Core
