import Orcker.Core.Resolve
import Orcker.Daemon.SiteDomains

/-!
# Who owns a domain after construction

The claim table gives each domain to the eligible claimant wanting it that is least by (explicit
claim first, then position), and construction is a run of inserts with distinct names and disjoint
domain sets, which never fails.
-/

namespace Orcker.Daemon

open Base Orcker.Core Orcker.Schema List SiteRouter

/-! ## The claim table -/

/-- Claimant `i` is planned and has `d` in its effective set. -/
def Wants (cs : List Claimant) (i : Nat) (d : Domain) : Prop :=
  ∃ c, cs[i]? = some c ∧ d ∈ c.effective

/-- Claimant `i` wants `d`, is not name-shadowed, and no eligible claimant that
wants `d` comes before it: explicit claims first, then the earlier position. -/
def Wins (cs : List Claimant) (i : Nat) (d : Domain) : Prop :=
  ∃ c, cs[i]? = some c ∧ c.eligible ∧ d ∈ c.effective ∧
    ∀ j c', cs[j]? = some c' → c'.eligible → d ∈ c'.effective →
      Claim.Beats ⟨i, d ≠ c.apex⟩ ⟨j, d ≠ c'.apex⟩

/-- All claims that are made, in order. -/
def bids (cs : List Claimant) : List (Str × Claim) :=
  cs.zipIdx.flatMap fun p =>
    if p.1.eligible then
      p.1.effective.map fun d => (d.sub, { idx := p.2, explicit := d ≠ p.1.apex })
    else []

theorem foldl_placeClaims (cs : List Claimant) :
    cs.zipIdx.foldl (fun claims p => placeClaims claims p.1 p.2) ∅ = (bids cs).foldl place ∅ := by
  unfold bids
  rw [foldl_flatMap]
  congr 1
  funext claims p
  unfold placeClaims
  cases p.1.eligible
  · rfl
  · simp [foldl_map]

variable {cs : List Claimant} {op : RouterOp} {r : SiteRouter} {plans : List SitePlan}
  {proxyPlans : List ProxyPlan}

theorem mem_bids {k : Str} {w : Claim} :
    (k, w) ∈ bids cs ↔ ∃ i c, cs[i]? = some c ∧ c.eligible ∧
      ∃ d ∈ c.effective, d.sub = k ∧ w = ⟨i, d ≠ c.apex⟩ := by
  unfold bids
  rw [mem_flatMap]
  constructor
  · rintro ⟨⟨c, i⟩, hmem, hbid⟩
    rw [mem_zipIdx_iff_getElem?] at hmem
    simp only at hbid
    split at hbid
    · rename_i helig
      obtain ⟨d, hd, heq⟩ := mem_map.1 hbid
      obtain ⟨rfl, rfl⟩ := Prod.mk.inj heq
      exact ⟨i, c, hmem, helig, d, hd, rfl, rfl⟩
    · cases hbid
  · rintro ⟨i, c, hc, helig, d, hd, rfl, rfl⟩
    refine ⟨(c, i), mem_zipIdx_iff_getElem?.2 hc, ?_⟩
    simp only [helig, if_true]
    exact mem_map.2 ⟨d, hd, rfl⟩

theorem pairwise_zipIdx {α : Type} (l : List α) (k : Nat) :
    (l.zipIdx k).Pairwise fun p q => p.2 < q.2 := by
  rw [← pairwise_map (f := Prod.snd) (R := (· < ·)), zipIdx_map_snd]
  exact pairwise_lt_range'

theorem pairwise_bids (cs : List Claimant) :
    (bids cs).Pairwise fun a b => a.2.idx ≤ b.2.idx := by
  have hidx : ∀ p : Claimant × Nat, ∀ b ∈ (if p.1.eligible then
      p.1.effective.map fun d => (d.sub, ({ idx := p.2, explicit := d ≠ p.1.apex } : Claim))
      else []), b.2.idx = p.2 := by
    intro p b hb
    split at hb
    · obtain ⟨d, -, rfl⟩ := mem_map.1 hb
      rfl
    · cases hb
  rw [bids, pairwise_flatMap]
  refine ⟨fun p _ => pairwise_of_forall_mem_list fun a ha b hb => ?_, ?_⟩
  · rw [hidx p a ha, hidx p b hb]
  · refine (pairwise_zipIdx cs 0).imp fun {p q} hpq a ha b hb => ?_
    rw [hidx p a ha, hidx q b hb]
    exact hpq.le

theorem buildClaims_eq_some_iff {d : Domain} {i : Nat} :
    (buildClaims cs)[d.sub]? = some i ↔ Wins cs i d := by
  unfold buildClaims
  rw [foldl_placeClaims]
  simp only [Std.ExtTreeMap.getElem?_map, Option.map_eq_some_iff, winner_iff (pairwise_bids cs),
    mem_bids]
  constructor
  · rintro ⟨w, ⟨⟨j, c, hc, helig, e, he, hsub, rfl⟩, hbest⟩, rfl⟩
    cases Domain.ext hsub
    refine ⟨c, hc, helig, he, fun k c' hc' helig' hd' => ?_⟩
    exact hbest _ ⟨k, c', hc', helig', d, hd', rfl, rfl⟩
  · rintro ⟨c, hc, helig, hd, hbest⟩
    refine ⟨_, ⟨⟨i, c, hc, helig, d, hd, rfl, rfl⟩, ?_⟩, rfl⟩
    rintro b ⟨j, c', hc', helig', e, he, hsub, rfl⟩
    cases Domain.ext hsub
    exact hbest j c' hc' helig' he

theorem buildClaims_eq_none_iff {d : Domain} :
    (buildClaims cs)[d.sub]? = none ↔
      ∀ (i : Nat) (c : Claimant), cs[i]? = some c → c.eligible → d ∉ c.effective := by
  unfold buildClaims
  rw [foldl_placeClaims]
  simp only [Std.ExtTreeMap.getElem?_map, Option.map_eq_none_iff,
    winner_eq_none_iff (pairwise_bids cs), mem_bids]
  constructor
  · intro h i c hc helig hd
    exact h _ ⟨i, c, hc, helig, d, hd, rfl, rfl⟩
  · rintro h b ⟨i, c, hc, helig, e, he, hsub, -⟩
    exact h i c hc helig (Domain.ext hsub ▸ he)

/-! ## A run of inserts -/

/-- One insert: the claimant, the domains it gets, and its primary. -/
structure Insertion where
  route : Route
  won : List Domain
  primary : Domain

namespace Insertion

def toOp (i : Insertion) : RouterOp :=
  match i.route with
  | .php site => .insertWithDomains site i.won i.primary
  | .proxy proxy => .insertProxyWithDomains proxy i.won i.primary

/-- The route itself, without its domains. -/
def store (i : Insertion) (r : SiteRouter) : SiteRouter :=
  match i.route with
  | .php site => { r with sites := r.sites.insert site.name.text site }
  | .proxy proxy => { r with proxySites := r.proxySites.insert proxy.name.text proxy }

theorem run_toOp (i : Insertion) (r : SiteRouter) :
    i.toOp.run r = r.insertClaimant i.route.name i.won i.primary i.store := by
  obtain ⟨route, won, primary⟩ := i
  cases route <;> rfl

theorem run_fresh (i : Insertion) {r : SiteRouter} (hfresh : ¬r.IsClaimant i.route.name)
    (hfree : ∀ d ∈ i.won, r.lookup d = none) :
    ∃ r', i.toOp.run r = (.ok (), r') ∧ r'.config = r.config ∧
      (∀ d, r'.lookup d = if d ∈ i.won then some i.route.name else r.lookup d) ∧
      (∀ n, r'.routeFor n = if n = i.route.name then some i.route else r.routeFor n) ∧
      (∀ n, r'.primaries[n]? = if n = i.route.name then some i.primary else r.primaries[n]?) := by
  have hname : ¬(r.sites.contains i.route.name || r.proxySites.contains i.route.name) := by
    simpa [SiteRouter.IsClaimant] using hfresh
  have hnone : (i.won.find? fun d => (r.lookup d).isSome) = none :=
    find?_eq_none.2 fun d hd => by simp [hfree d hd]
  refine ⟨i.store (r.claimed i.route.name i.won i.primary), ?_, ?_, fun d => ?_, fun n => ?_,
    fun n => ?_⟩
  · rw [run_toOp, insertClaimant, if_neg hname, hnone]
    rfl
  · obtain ⟨_ | _, won, primary⟩ := i <;> rfl
  · rw [← DomainIndex.lookup_foldl_insert]
    obtain ⟨_ | _, won, primary⟩ := i <;> rfl
  · rw [SiteRouter.IsClaimant, not_or] at hfresh
    have hsite : r.sites[i.route.name]? = none := Std.ExtTreeMap.getElem?_eq_none hfresh.1
    rcases eq_or_ne n i.route.name with rfl | hn
    · rw [if_pos rfl]
      obtain ⟨_ | _, won, primary⟩ := i <;> simp_all [routeFor, store,
        claimed, Route.name]
    · rw [if_neg hn]
      obtain ⟨_ | _, won, primary⟩ := i <;> simp_all [routeFor, store,
        claimed, Route.name, OrdMap.getElem?_insert]
  · rw [← OrdMap.getElem?_insert]
    obtain ⟨_ | _, won, primary⟩ := i <;> rfl

end Insertion

theorem call_insertions {ins : List Insertion} {b : Built}
    (hnames : (ins.map fun i => i.route.name).Nodup)
    (hdisjoint : ins.Pairwise fun i j => ∀ d ∈ i.won, d ∉ j.won)
    (hfresh : ∀ i ∈ ins, ¬b.router.IsClaimant i.route.name)
    (hfree : ∀ i ∈ ins, ∀ d ∈ i.won, b.router.lookup d = none) :
    ∃ r', (ins.map Insertion.toOp).foldl Built.call b = { b with router := r' } ∧
      r'.config = b.router.config ∧
      (∀ d n, r'.lookup d = some n ↔
        (∃ i ∈ ins, d ∈ i.won ∧ i.route.name = n) ∨ b.router.lookup d = some n) ∧
      (∀ n c, r'.routeFor n = some c ↔
        (∃ i ∈ ins, i.route.name = n ∧ i.route = c) ∨ b.router.routeFor n = some c) ∧
      (∀ i ∈ ins, r'.primaries[i.route.name]? = some i.primary) ∧
      (∀ n, (∀ i ∈ ins, i.route.name ≠ n) → r'.primaries[n]? = b.router.primaries[n]?) := by
  induction ins generalizing b with
  | nil => exact ⟨b.router, rfl, rfl, by simp, by simp, by simp, fun _ _ => rfl⟩
  | cons i ins ih =>
    rw [map_cons, nodup_cons] at hnames
    rw [pairwise_cons] at hdisjoint
    rw [forall_mem_cons] at hfresh hfree
    obtain ⟨r₁, hrun, hconfig, hlookup, hroute, hprimary⟩ := i.run_fresh hfresh.1 hfree.1
    have hne : ∀ j ∈ ins, j.route.name ≠ i.route.name := fun j hj heq =>
      hnames.1 (mem_map.2 ⟨j, hj, heq⟩)
    obtain ⟨r', hfold, hconfig', hlookup', hroute', hin, hout⟩ := ih (b := { b with router := r₁ })
      hnames.2 hdisjoint.2
      (fun j hj => by
        rw [isClaimant_iff_routeFor, hroute, if_neg (hne j hj), ← isClaimant_iff_routeFor]
        exact hfresh.2 j hj)
      (fun j hj d hd => by
        simp only [hlookup]
        rw [if_neg fun hd' => hdisjoint.1 j hj d hd' hd]
        exact hfree.2 j hj d hd)
    refine ⟨r', ?_, hconfig'.trans hconfig, fun d n => ?_, fun n c => ?_, ?_, fun n hn => ?_⟩
    · rw [map_cons, foldl_cons, Built.call, hrun, hfold]
    · rw [hlookup', hlookup]
      simp only [mem_cons, exists_eq_or_imp]
      by_cases hd : d ∈ i.won
      · simp only [hd, if_true, true_and, hfree.1 d hd, Option.some.injEq, reduceCtorEq, or_false]
        tauto
      · simp only [hd, if_false, false_and, false_or]
    · rw [hroute', hroute]
      simp only [mem_cons, exists_eq_or_imp]
      by_cases hn : n = i.route.name
      · have hnone : b.router.routeFor n = none := by
          by_contra h
          exact hfresh.1 (isClaimant_iff_routeFor.2 (hn ▸ Option.ne_none_iff_exists'.1 h))
        simp only [hn, if_true, true_and, Option.some.injEq]
        rw [← hn, hnone]
        simp only [reduceCtorEq, or_false]
        exact or_comm
      · simp only [hn, if_false, Ne.symm hn, false_and, false_or]
    · rw [forall_mem_cons]
      refine ⟨?_, hin⟩
      rw [hout _ hne, hprimary, if_pos rfl]
    · rw [forall_mem_cons] at hn
      rw [hout n hn.2, hprimary, if_neg (Ne.symm hn.1)]

/-! ## Construction is such a run -/

section Construction

variable (claims : StrMap Nat) (plans : List SitePlan) (proxyPlans : List ProxyPlan)

def siteInsertion (p : SitePlan × Nat) : Insertion where
  route := .php p.1.site
  won := wonBy claims p.2 p.1.effective
  primary := choosePrimary p.1.site.name.toProxyName (wonBy claims p.2 p.1.effective) p.1.primary

def proxyInsertion (p : ProxyPlan × Nat) : Insertion where
  route := .proxy p.1.proxy
  won := wonBy claims p.2 p.1.effective
  primary := choosePrimary p.1.proxy.name (wonBy claims p.2 p.1.effective) p.1.primary

/-- The inserts of a construction, in order. -/
def insertions : List Insertion :=
  plans.zipIdx.map (siteInsertion claims) ++
    ((proxyPlans.zipIdx plans.length).filter fun p => !p.1.shadowed).map (proxyInsertion claims)

theorem foldl_insertions (b : Built) :
    (proxyPlans.zipIdx plans.length).foldl (fun b p =>
        if p.1.shadowed then b else b.call (insertProxy claims p.1 p.2))
      (plans.zipIdx.foldl (fun b p => b.call (insertSite claims p.1 p.2)) b) =
    ((insertions claims plans proxyPlans).map Insertion.toOp).foldl Built.call b := by
  unfold insertions
  rw [map_append, foldl_append, map_map, map_map, foldl_map,
    foldl_map, foldl_filter]
  congr 1
  funext b p
  cases p.1.shadowed <;> rfl

variable {claims plans proxyPlans}

theorem mem_wonBy {d : Domain} {idx : Nat} {effective : List Domain} :
    d ∈ wonBy claims idx effective ↔ d ∈ effective ∧ claims[d.sub]? = some idx := by
  simp [wonBy]

theorem pairwise_insertions :
    (insertions claims plans proxyPlans).Pairwise fun i j => ∀ d ∈ i.won, d ∉ j.won := by
  -- what an insert carries names its own position in the claim table
  have hdisjoint : ∀ {m n : Nat} {e f : List Domain}, m < n → ∀ d ∈ wonBy claims m e,
      d ∉ wonBy claims n f := by
    intro m n e f hlt d hm hn
    have h := (mem_wonBy.1 hm).2
    rw [(mem_wonBy.1 hn).2, Option.some.injEq] at h
    omega
  unfold insertions
  rw [pairwise_append, pairwise_map, pairwise_map]
  refine ⟨?_, ?_, ?_⟩
  · exact (pairwise_zipIdx plans 0).imp fun h => hdisjoint h
  · exact ((pairwise_zipIdx proxyPlans plans.length).sublist filter_sublist).imp
      fun h => hdisjoint h
  · intro i hi j hj
    obtain ⟨⟨p, m⟩, hp, rfl⟩ := mem_map.1 hi
    obtain ⟨⟨q, n⟩, hq, rfl⟩ := mem_map.1 hj
    rw [mem_filter] at hq
    have hm := (mem_zipIdx hp).2.1
    have hn := (mem_zipIdx hq.1).1
    exact hdisjoint (by simp only at *; omega)

theorem nodup_insertions (hsites : (plans.map fun p => p.site.name.text).Nodup)
    (hproxies : (proxyPlans.map fun p => p.proxy.name.text).Nodup)
    (hshadow : ∀ p ∈ proxyPlans, p.shadowed = false →
      p.proxy.name.text ∉ plans.map fun p => p.site.name.text) :
    ((insertions claims plans proxyPlans).map fun i => i.route.name).Nodup := by
  have hsite : (plans.zipIdx.map (siteInsertion claims)).map (fun i => i.route.name) =
      plans.map fun p => p.site.name.text := by
    conv_rhs => rw [← zipIdx_map_fst 0 plans]
    rw [map_map, map_map]
    rfl
  have hproxy : (((proxyPlans.zipIdx plans.length).filter fun p => !p.1.shadowed).map
      (proxyInsertion claims)).map (fun i => i.route.name) =
      ((proxyPlans.zipIdx plans.length).filter fun p => !p.1.shadowed).map
        fun p => p.1.proxy.name.text := by
    rw [map_map]
    rfl
  unfold insertions
  rw [map_append, hsite, hproxy, nodup_append]
  refine ⟨hsites, ?_, ?_⟩
  · refine List.Nodup.sublist (filter_sublist.map _) ?_
    rw [show (fun p : ProxyPlan × Nat => p.1.proxy.name.text) =
      (fun p : ProxyPlan => p.proxy.name.text) ∘ Prod.fst from rfl, ← map_map,
      zipIdx_map_fst]
    exact hproxies
  · intro m hm n hn
    obtain ⟨⟨q, i⟩, hq, rfl⟩ := mem_map.1 hn
    rw [mem_filter] at hq
    have hmem : q ∈ proxyPlans := fst_mem_of_mem_zipIdx hq.1
    rintro rfl
    exact hshadow q hmem (by simpa using hq.2) hm

end Construction

/-- `b'` differs from `b` in its rules only. -/
def SameButRules (b b' : Built) : Prop :=
  ∃ proxyRules routeRules, b' = { b with router := { b.router with proxyRules, routeRules } }

theorem sameButRules_foldl {α : Type} {f : Built → α → Built} {l : List α}
    (hf : ∀ a ∈ l, ∀ b, SameButRules b (f b a)) (b : Built) : SameButRules b (l.foldl f b) := by
  induction l generalizing b with
  | nil => exact ⟨_, _, rfl⟩
  | cons a l ih =>
    rw [forall_mem_cons] at hf
    obtain ⟨pr, rr, hfirst⟩ := hf.1 b
    obtain ⟨pr', rr', hrest⟩ := ih hf.2 (f b a)
    exact ⟨pr', rr', by rw [foldl_cons, hrest, hfirst]⟩

theorem sameButRules_attachRules {cfg : Config} {site : Site} (hop : op ∈ attachRules cfg site)
    (b : Built) : SameButRules b (b.call op) := by
  simp only [attachRules, mem_append, Option.mem_toList, Option.map_eq_some_iff] at hop
  rcases hop with ⟨rules, -, rfl⟩ | ⟨rules, -, rfl⟩ <;>
  · simp only [Built.call, RouterOp.run, setProxyRules, setRouteRules]
    split <;> exact ⟨_, _, rfl⟩

/-! ## The plans of a configuration -/

theorem map_name_planSites (cfg : Config) (sites : List Site) :
    (planSites cfg sites).map (fun p => p.site.name.text) =
      (keepFirst (fun s => s.name.text) [] sites).map fun s => s.name.text := by
  unfold planSites
  rw [map_map]
  rfl

theorem nodup_planned (cfg : Config) (sites : List Site) :
    ((planSites cfg sites).map fun p => p.site.name.text).Nodup ∧
      ((planProxies cfg (planSites cfg sites)).map fun p => p.proxy.name.text).Nodup := by
  rw [map_name_planSites, planProxies, map_map]
  exact ⟨nodup_map_keepFirst _ _ _, nodup_map_keepFirst _ _ _⟩

theorem shadowed_planProxies {cfg : Config} {p : ProxyPlan} (hp : p ∈ planProxies cfg plans) :
    p.shadowed = true ↔ p.proxy.name.text ∈ plans.map fun p => p.site.name.text := by
  unfold planProxies at hp
  obtain ⟨proxy, -, rfl⟩ := mem_map.1 hp
  simp

def claimantsOf (cfg : Config) (sites : List Site) : List Claimant :=
  claimants (planSites cfg sites) (planProxies cfg (planSites cfg sites))

def insertionsOf (cfg : Config) (sites : List Site) : List Insertion :=
  insertions (buildClaims (claimantsOf cfg sites)) (planSites cfg sites)
    (planProxies cfg (planSites cfg sites))

theorem sameButRules_build (cfg : Config) (sites : List Site) :
    SameButRules (((insertionsOf cfg sites).map Insertion.toOp).foldl Built.call
      { router := SiteRouter.new (.withTld cfg.tld), dropped := [] }) (build cfg sites) := by
  simp only [build]
  rw [foldl_insertions]
  exact sameButRules_foldl (fun _ _ => sameButRules_foldl fun _ => sameButRules_attachRules) _

theorem build_spec (cfg : Config) (sites : List Site) :
    (build cfg sites).router.config = .withTld cfg.tld ∧ (build cfg sites).dropped = [] ∧
      (∀ d n, (build cfg sites).router.lookup d = some n ↔
        ∃ i ∈ insertionsOf cfg sites, d ∈ i.won ∧ i.route.name = n) ∧
      (∀ n c, (build cfg sites).router.routeFor n = some c ↔
        ∃ i ∈ insertionsOf cfg sites, i.route.name = n ∧ i.route = c) ∧
      (∀ i ∈ insertionsOf cfg sites,
        (build cfg sites).router.primaries[i.route.name]? = some i.primary) := by
  have hempty : ∀ n, (new (.withTld cfg.tld)).routeFor n = none := fun n => by
    simp [routeFor, new]
  have hnone : ∀ d, (new (.withTld cfg.tld)).lookup d = none := fun d => by
    simp [DomainIndex.lookup, new]
  obtain ⟨r', hfold, hconfig, hlookup, hroute, hprimary, -⟩ := @call_insertions (insertionsOf cfg sites)
    { router := new (.withTld cfg.tld), dropped := [] }
    (nodup_insertions (nodup_planned cfg sites).1 (nodup_planned cfg sites).2
      (fun p hp hs hmem => by
        rw [(shadowed_planProxies hp).2 hmem] at hs
        cases hs))
    pairwise_insertions
    (fun i _ h => by
      obtain ⟨c, hc⟩ := isClaimant_iff_routeFor.1 h
      rw [hempty] at hc
      cases hc)
    (fun i _ d _ => hnone d)
  obtain ⟨pr, rr, hbuild⟩ := sameButRules_build cfg sites
  rw [hbuild, hfold]
  refine ⟨hconfig, rfl, fun d n => ?_, fun n c => ?_, hprimary⟩
  · have := hlookup d n
    rw [hnone] at this
    simpa using this
  · have := hroute n c
    rw [hempty] at this
    simpa [routeFor] using this

theorem foldl_call_inv {ops : List RouterOp} {b : Built} (h : RouterInv b.router) :
    RouterInv (ops.foldl Built.call b).router := by
  induction ops generalizing b with
  | nil => exact h
  | cons op ops ih =>
    refine ih ?_
    have hop := h.op op
    unfold Built.call
    split <;> (rename_i heq; rw [heq] at hop; exact hop)

theorem build_inv (cfg : Config) (sites : List Site) : RouterInv (build cfg sites).router := by
  obtain ⟨pr, rr, hbuild⟩ := sameButRules_build cfg sites
  rw [hbuild]
  exact (foldl_call_inv (RouterInv.new _)).of_rules pr rr

theorem build_config (cfg : Config) (sites : List Site) :
    (build cfg sites).router.config = .withTld cfg.tld := (build_spec cfg sites).1

/-! ## Claimants by position -/

theorem SitePlan.claimant_apex_sub (p : SitePlan) : p.claimant.apex.sub = p.site.name.text :=
  congrArg Domain.sub (Domain.apex_eq p.site.name.toProxyName)

theorem ProxyPlan.claimant_apex_sub (p : ProxyPlan) : p.claimant.apex.sub = p.proxy.name.text :=
  congrArg Domain.sub (Domain.apex_eq p.proxy.name)

theorem claimants_getElem?_eq_some_iff {i : Nat} {c : Claimant} :
    (claimants plans proxyPlans)[i]? = some c ↔
      (∃ p, plans[i]? = some p ∧ p.claimant = c) ∨
      (plans.length ≤ i ∧ ∃ p, proxyPlans[i - plans.length]? = some p ∧ p.claimant = c) := by
  unfold claimants
  by_cases hi : i < plans.length
  · rw [getElem?_append_left (by simpa using hi)]
    simp [Nat.not_le.2 hi]
  · rw [getElem?_append_right (by simpa using hi)]
    simp [Nat.le_of_not_lt hi]

theorem mem_insertions {claims : StrMap Nat} {i : Insertion} :
    i ∈ insertions claims plans proxyPlans ↔
      (∃ p idx, plans[idx]? = some p ∧ siteInsertion claims (p, idx) = i) ∨
      (∃ p idx, plans.length ≤ idx ∧ proxyPlans[idx - plans.length]? = some p ∧
        p.shadowed = false ∧ proxyInsertion claims (p, idx) = i) := by
  unfold insertions
  rw [mem_append, mem_map, mem_map]
  refine or_congr ?_ ?_
  · constructor
    · rintro ⟨⟨p, idx⟩, hp, rfl⟩
      exact ⟨p, idx, mem_zipIdx_iff_getElem?.1 hp, rfl⟩
    · rintro ⟨p, idx, hp, rfl⟩
      exact ⟨(p, idx), mem_zipIdx_iff_getElem?.2 hp, rfl⟩
  · constructor
    · rintro ⟨⟨p, idx⟩, hp, rfl⟩
      rw [mem_filter, mk_mem_zipIdx_iff_le_and_getElem?_sub] at hp
      exact ⟨p, idx, hp.1.1, hp.1.2, by simpa using hp.2, rfl⟩
    · rintro ⟨p, idx, hle, hp, hs, rfl⟩
      refine ⟨(p, idx), ?_, rfl⟩
      rw [mem_filter, mk_mem_zipIdx_iff_le_and_getElem?_sub]
      exact ⟨⟨hle, hp⟩, by simp [hs]⟩

theorem build_domainOwner_eq_some_iff (cfg : Config) (sites : List Site) (d : Domain) (n : Str) :
    (build cfg sites).router.domainOwner d = some n ↔
      ∃ i c, (claimantsOf cfg sites)[i]? = some c ∧ Wins (claimantsOf cfg sites) i d ∧
        c.apex.sub = n := by
  rw [domainOwner, (build_spec cfg sites).2.2.1]
  constructor
  · rintro ⟨i, hi, hd, rfl⟩
    rcases mem_insertions.1 hi with ⟨p, idx, hp, rfl⟩ | ⟨p, idx, hle, hp, hs, rfl⟩
    · exact ⟨idx, p.claimant, claimants_getElem?_eq_some_iff.2 (.inl ⟨p, hp, rfl⟩),
        buildClaims_eq_some_iff.1 (mem_wonBy.1 hd).2, p.claimant_apex_sub⟩
    · exact ⟨idx, p.claimant, claimants_getElem?_eq_some_iff.2 (.inr ⟨hle, p, hp, rfl⟩),
        buildClaims_eq_some_iff.1 (mem_wonBy.1 hd).2, p.claimant_apex_sub⟩
  · rintro ⟨idx, c, hc, hwins, rfl⟩
    have hclaim := buildClaims_eq_some_iff.2 hwins
    obtain ⟨c', hc', helig, hd, -⟩ := hwins
    obtain rfl := Option.some.inj (hc.symm.trans hc')
    rcases claimants_getElem?_eq_some_iff.1 hc with ⟨p, hp, rfl⟩ | ⟨hle, p, hp, rfl⟩
    · exact ⟨_, mem_insertions.2 (.inl ⟨p, idx, hp, rfl⟩), mem_wonBy.2 ⟨hd, hclaim⟩,
        p.claimant_apex_sub.symm⟩
    · have hshown : p.shadowed = false := by simpa using (show (!p.shadowed) = true from helig)
      exact ⟨_, mem_insertions.2 (.inr ⟨p, idx, hle, hp, hshown, rfl⟩), mem_wonBy.2 ⟨hd, hclaim⟩,
        p.claimant_apex_sub.symm⟩

theorem build_domainOwner_eq_none_iff (cfg : Config) (sites : List Site) (d : Domain) :
    (build cfg sites).router.domainOwner d = none ↔
      ∀ (i : Nat) (c : Claimant), (claimantsOf cfg sites)[i]? = some c → c.eligible →
        d ∉ c.effective := by
  rw [← buildClaims_eq_none_iff, Option.eq_none_iff_forall_ne_some, Option.eq_none_iff_forall_ne_some]
  constructor
  · intro h i hi
    have hwins := buildClaims_eq_some_iff.1 hi
    obtain ⟨c, hc, -⟩ := id hwins
    exact h _ ((build_domainOwner_eq_some_iff cfg sites d _).2 ⟨i, c, hc, hwins, rfl⟩)
  · intro h n hn
    obtain ⟨i, c, -, hwins, -⟩ := (build_domainOwner_eq_some_iff cfg sites d n).1 hn
    exact h i (buildClaims_eq_some_iff.2 hwins)

/-! ## Which claimants are routed -/

theorem sites_eq_some_iff_routeFor {n : Str} {s : Site} :
    r.sites[n]? = some s ↔ r.routeFor n = some (.php s) := by
  unfold routeFor
  cases r.sites[n]? <;> simp

theorem proxySites_eq_some_iff_routeFor (h : RouterInv r) {n : Str} {p : ProxySite} :
    r.proxySites[n]? = some p ↔ r.routeFor n = some (.proxy p) := by
  unfold routeFor
  cases hs : r.sites[n]? with
  | none => simp
  | some site =>
    have hnot := h.disjoint n ((OrdMap.mem_iff_exists _ _).2 ⟨site, hs⟩)
    simp [Std.ExtTreeMap.getElem?_eq_none hnot]

theorem build_sites (cfg : Config) (sites : List Site) (n : Str) :
    (build cfg sites).router.sites[n]? = sites.find? fun s => s.name.text = n := by
  rw [← find?_keepFirst_nil (fun s : Site => s.name.text) n sites]
  ext s
  rw [sites_eq_some_iff_routeFor, (build_spec cfg sites).2.2.2.1,
    find?_eq_some_iff_of_nodup (nodup_map_keepFirst _ _ _)]
  constructor
  · rintro ⟨i, hi, hn, hroute⟩
    rcases mem_insertions.1 hi with ⟨p, idx, hp, rfl⟩ | ⟨p, idx, hle, hp, hs, rfl⟩
    · cases hroute
      have hmem := mem_of_getElem? hp
      unfold planSites at hmem
      obtain ⟨s, hs, rfl⟩ := mem_map.1 hmem
      exact ⟨hs, hn⟩
    · cases hroute
  · rintro ⟨hmem, hn⟩
    have hplan : _ ∈ planSites cfg sites := mem_map_of_mem hmem
    obtain ⟨idx, hidx⟩ := mem_iff_getElem?.1 hplan
    exact ⟨_, mem_insertions.2 (.inl ⟨_, idx, hidx, rfl⟩), hn, rfl⟩

theorem build_proxySites (cfg : Config) (sites : List Site) (n : Str) :
    (build cfg sites).router.proxySites[n]? =
      if n ∈ sites.map fun s => s.name.text then none
      else (cfg.proxies ++ projectProxies cfg.projects).find? fun p => p.name.text = n := by
  have hnames : n ∈ (planSites cfg sites).map (fun p => p.site.name.text) ↔
      n ∈ sites.map fun s => s.name.text := by
    rw [map_name_planSites]
    exact mem_map_keepFirst_nil _
  rw [← find?_keepFirst_nil (fun p : ProxySite => p.name.text) n
    (cfg.proxies ++ projectProxies cfg.projects)]
  ext p
  rw [proxySites_eq_some_iff_routeFor (build_inv cfg sites), (build_spec cfg sites).2.2.2.1,
    Option.ite_none_left_eq_some, find?_eq_some_iff_of_nodup (nodup_map_keepFirst _ _ _), ← hnames]
  constructor
  · rintro ⟨i, hi, hn, hroute⟩
    rcases mem_insertions.1 hi with ⟨q, idx, hq, rfl⟩ | ⟨q, idx, hle, hq, hs, rfl⟩
    · cases hroute
    · cases hroute
      have hmem := mem_of_getElem? hq
      refine ⟨fun hsite => ?_, ?_, hn⟩
      · have hn' : q.proxy.name.text = n := hn
        rw [← hn', ← shadowed_planProxies hmem, hs] at hsite
        cases hsite
      · unfold planProxies at hmem
        obtain ⟨p, hp, rfl⟩ := mem_map.1 hmem
        exact hp
  · rintro ⟨hsite, hmem, hn⟩
    obtain ⟨q, hq, hqp⟩ : ∃ q ∈ planProxies cfg (planSites cfg sites), q.proxy = p := by
      unfold planProxies
      exact ⟨_, mem_map_of_mem hmem, rfl⟩
    obtain ⟨idx, hidx⟩ := mem_iff_getElem?.1 hq
    refine ⟨_, mem_insertions.2 (.inr ⟨q, (planSites cfg sites).length + idx, by omega, ?_, ?_, rfl⟩),
      ?_, ?_⟩
    · rw [Nat.add_sub_cancel_left]
      exact hidx
    · rw [Bool.eq_false_iff, ne_eq, shadowed_planProxies hq, hqp, hn]
      exact hsite
    · rw [← hn, ← hqp]
      rfl
    · rw [← hqp]
      rfl

/-- Router construction never drops a claimant and picks the documented winner:
no insert fails; the router holds the first site of each name, and the first
proxy of each name that no site has; and a domain's owner is the claimant that
wants it, is not name-shadowed, and is least by (explicit claim before implicit
apex, then position in the sites-then-proxies sequence). -/
theorem build_picks_documented_winner (cfg : Config) (sites : List Site) :
    (build cfg sites).dropped = [] ∧
    (∀ n, (build cfg sites).router.sites[n]? = sites.find? fun s => s.name.text = n) ∧
    (∀ n, (build cfg sites).router.proxySites[n]? =
      if n ∈ sites.map fun s => s.name.text then none
      else (cfg.proxies ++ projectProxies cfg.projects).find? fun p => p.name.text = n) ∧
    (∀ d n, (build cfg sites).router.domainOwner d = some n ↔
      ∃ i c, (claimantsOf cfg sites)[i]? = some c ∧ Wins (claimantsOf cfg sites) i d ∧
        c.apex.sub = n) ∧
    (∀ d, (build cfg sites).router.domainOwner d = none ↔
      ∀ (i : Nat) (c : Claimant), (claimantsOf cfg sites)[i]? = some c → c.eligible →
        d ∉ c.effective) :=
  ⟨(build_spec cfg sites).2.1, build_sites cfg sites, build_proxySites cfg sites,
    build_domainOwner_eq_some_iff cfg sites, build_domainOwner_eq_none_iff cfg sites⟩

end Orcker.Daemon
