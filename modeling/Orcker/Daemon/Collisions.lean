import Orcker.Daemon.Ownership

/-!
# The collision report agrees with routing

`collisions` recomputes ownership from the plans without building a router. Its
entries are exactly the contested domains, the winner of each is the claimant the
built router answers with, and the losers are the others that wanted it.
-/

namespace Orcker.Daemon

open Base Orcker.Core Orcker.Schema List

/-- The claimants that want the domain. -/
def wanting (cs : List Claimant) (d : Domain) : List Nat :=
  (cs.zipIdx.filter fun p => d ∈ p.1.effective).map Prod.snd

variable {cs : List Claimant} {d : Domain}

theorem mem_wanting {i : Nat} : i ∈ wanting cs d ↔ Wants cs i d := by
  unfold wanting Wants
  rw [mem_map]
  constructor
  · rintro ⟨⟨c, j⟩, hmem, rfl⟩
    rw [mem_filter, mem_zipIdx_iff_getElem?] at hmem
    exact ⟨c, hmem.1, by simpa using hmem.2⟩
  · rintro ⟨c, hc, hd⟩
    refine ⟨(c, i), mem_filter.2 ⟨mem_zipIdx_iff_getElem?.2 hc, by simpa using hd⟩, rfl⟩

theorem nodup_wanting (cs : List Claimant) (d : Domain) : (wanting cs d).Nodup := by
  unfold wanting List.Nodup
  rw [pairwise_map]
  exact ((pairwise_zipIdx cs 0).sublist filter_sublist).imp fun h => h.ne

/-- Everything that is pushed while the claimants are scanned. -/
def wishes (cs : List Claimant) : List (Str × Nat) :=
  cs.zipIdx.flatMap fun p => p.1.effective.map fun d => (d.sub, p.2)

theorem wantedBy_eq (cs : List Claimant) : wantedBy cs = (wishes cs).foldl push ∅ := by
  unfold wantedBy wishes
  rw [foldl_flatMap]
  congr 1
  funext wanted p
  rw [foldl_map]

theorem filter_sub_eq {effective : List Domain} (h : effective.Nodup) (d : Domain) :
    effective.filter (fun e => e.sub = d.sub) = if d ∈ effective then [d] else [] := by
  have hsame : (fun e : Domain => decide (e.sub = d.sub)) = fun e => decide (e = d) := by
    funext e
    simp [Domain.sub_inj]
  rw [hsame]
  split
  · rename_i hmem
    rw [filter_eq, count_eq_one_of_mem h hmem]
    rfl
  · rename_i hmem
    rw [filter_eq, count_eq_zero_of_not_mem hmem]
    rfl

theorem filter_wishes (h : ∀ c ∈ cs, c.effective.Nodup) (d : Domain) :
    ((wishes cs).filter fun w => w.1 = d.sub).map Prod.snd = wanting cs d := by
  unfold wishes wanting
  rw [filter_flatMap, map_flatMap]
  have hmem : ∀ p ∈ cs.zipIdx, p.1 ∈ cs := fun p hp => fst_mem_of_mem_zipIdx hp
  generalize cs.zipIdx = l at *
  induction l with
  | nil => rfl
  | cons p l ih =>
    rw [forall_mem_cons] at hmem
    rw [flatMap_cons, ih hmem.2, filter_map, map_map]
    have hp := filter_sub_eq (h p.1 hmem.1) d
    simp only [Function.comp_def]
    rw [hp]
    by_cases hd : d ∈ p.1.effective <;> simp [hd]

theorem wantedBy_getElem? (h : ∀ c ∈ cs, c.effective.Nodup) (d : Domain) :
    (wantedBy cs)[d.sub]? = if wanting cs d = [] then none else some (wanting cs d) := by
  rw [wantedBy_eq, getElem?_foldl_push, ← filter_wishes h d]
  cases (wishes cs).filter fun w => w.1 = d.sub <;> simp

theorem exists_domain_of_wantedBy {k : Str} {idxs : List Nat} (h : (wantedBy cs)[k]? = some idxs) :
    ∃ d : Domain, d.sub = k := by
  rw [wantedBy_eq, getElem?_foldl_push] at h
  split at h
  · simp at h
  · rename_i hne
    obtain ⟨⟨k', i⟩, hmem⟩ := exists_mem_of_ne_nil _ hne
    rw [mem_filter] at hmem
    obtain ⟨p, -, hp⟩ := mem_flatMap.1 hmem.1
    obtain ⟨d, -, hd⟩ := mem_map.1 hp
    refine ⟨d, ?_⟩
    have hk : k' = k := by simpa using hmem.2
    rw [← hk, ← (Prod.mk.inj hd).1]

theorem nodup_effective_claimantsOf (cfg : Config) (sites : List Site) :
    ∀ c ∈ claimantsOf cfg sites, c.effective.Nodup := by
  have hplan : ∀ name delta, (planDomains name delta).1.Nodup := fun name delta =>
    nodup_effectiveDomains name _ _
  intro c hc
  unfold claimantsOf claimants at hc
  rcases mem_append.1 hc with hc | hc
  · obtain ⟨p, hp, rfl⟩ := mem_map.1 hc
    unfold planSites at hp
    obtain ⟨s, -, rfl⟩ := mem_map.1 hp
    exact hplan _ _
  · obtain ⟨p, hp, rfl⟩ := mem_map.1 hc
    unfold planProxies at hp
    obtain ⟨s, -, rfl⟩ := mem_map.1 hp
    exact hplan _ _

/-- No two claimants share a label: a site name holds no colon. -/
theorem nodup_labels (cfg : Config) (sites : List Site) :
    ((claimantsOf cfg sites).map Claimant.label).Nodup := by
  unfold claimantsOf claimants
  rw [map_append, map_map, map_map, nodup_append]
  refine ⟨(nodup_planned cfg sites).1, ?_, ?_⟩
  · have hlabels := (nodup_planned cfg sites).2.map (f := ("proxy:".toList ++ ·))
      fun a b h => append_cancel_left h
    rwa [map_map] at hlabels
  · intro a ha b hb hab
    obtain ⟨p, -, rfl⟩ := mem_map.1 ha
    obtain ⟨q, -, rfl⟩ := mem_map.1 hb
    have hcolon : ':' ∈ p.site.name.text := by
      change p.site.name.text = "proxy:".toList ++ q.proxy.name.text at hab
      rw [hab]
      exact mem_append_left _ (by decide)
    exact absurd (p.site.name.isLabel.chars ':' hcolon) (by decide)

/-- What each claimant is routed to. -/
def routesOf (cfg : Config) (sites : List Site) : List Route :=
  (planSites cfg sites).map (fun p => .php p.site) ++
    (planProxies cfg (planSites cfg sites)).map fun p => .proxy p.proxy

theorem nodup_routesOf (cfg : Config) (sites : List Site) : (routesOf cfg sites).Nodup := by
  unfold routesOf
  rw [nodup_append]
  refine ⟨?_, ?_, ?_⟩
  · refine List.Nodup.of_map Route.name ?_
    rw [map_map]
    exact (nodup_planned cfg sites).1
  · refine List.Nodup.of_map Route.name ?_
    rw [map_map]
    exact (nodup_planned cfg sites).2
  · intro a ha b hb hab
    obtain ⟨p, -, rfl⟩ := mem_map.1 ha
    obtain ⟨q, -, rfl⟩ := mem_map.1 hb
    cases hab

theorem routeFor_of_eligible {cfg : Config} {sites : List Site} {i : Nat} {c : Claimant}
    (hc : (claimantsOf cfg sites)[i]? = some c) (helig : c.eligible) :
    ∃ route, (routesOf cfg sites)[i]? = some route ∧ route.name = c.apex.sub ∧
      (build cfg sites).router.routeFor c.apex.sub = some route := by
  have hroute := (build_spec cfg sites).2.2.2.1
  rcases claimants_getElem?_eq_some_iff.1 hc with ⟨p, hp, rfl⟩ | ⟨hle, p, hp, rfl⟩
  · have hlt : i < (planSites cfg sites).length := (List.getElem?_eq_some_iff.1 hp).1
    refine ⟨.php p.site, ?_, (p.claimant_apex_sub).symm, ?_⟩
    · unfold routesOf
      rw [getElem?_append_left (by simpa using hlt), getElem?_map, hp]
      rfl
    · rw [p.claimant_apex_sub, hroute]
      exact ⟨_, mem_insertions.2 (.inl ⟨p, i, hp, rfl⟩), rfl, rfl⟩
  · refine ⟨.proxy p.proxy, ?_, (p.claimant_apex_sub).symm, ?_⟩
    · unfold routesOf
      rw [getElem?_append_right (by simpa using hle), length_map, getElem?_map, hp]
      rfl
    · rw [p.claimant_apex_sub, hroute]
      refine ⟨_, mem_insertions.2 (.inr ⟨p, i, hle, hp, ?_, rfl⟩), rfl, rfl⟩
      simpa [ProxyPlan.claimant] using helig

theorem two_le_length_wanting :
    2 ≤ (wanting cs d).length ↔ ∃ i j, i ≠ j ∧ Wants cs i d ∧ Wants cs j d := by
  rw [← toFinset_card_of_nodup (nodup_wanting cs d)]
  refine Finset.one_lt_card_iff.trans (exists₂_congr fun i j => ?_)
  rw [mem_toFinset, mem_toFinset, mem_wanting, mem_wanting]
  tauto

/-- Those that want the domain and did not get it. -/
def loserLabels (cs : List Claimant) (d : Domain) (w : Nat) : List Str :=
  ((wanting cs d).filter (· ≠ w)).filterMap fun i => cs[i]?.map Claimant.label

theorem mem_loserLabels {w : Nat} {l : Str} :
    l ∈ loserLabels cs d w ↔
      ∃ i c, i ≠ w ∧ cs[i]? = some c ∧ d ∈ c.effective ∧ c.label = l := by
  unfold loserLabels
  simp only [mem_filterMap, mem_filter, mem_wanting, Wants, decide_eq_true_eq,
    Option.map_eq_some_iff]
  constructor
  · rintro ⟨i, ⟨⟨c, hc, hd⟩, hi⟩, c', hc', rfl⟩
    rw [hc, Option.some.injEq] at hc'
    subst hc'
    exact ⟨i, c, hi, hc, hd, rfl⟩
  · rintro ⟨i, c, hi, hc, hd, rfl⟩
    exact ⟨i, ⟨⟨c, hc, hd⟩, hi⟩, c, hc, rfl⟩

theorem nodup_loserLabels (h : (cs.map Claimant.label).Nodup) (d : Domain) (w : Nat) :
    (loserLabels cs d w).Nodup := by
  unfold loserLabels
  refine List.Nodup.filterMap ?_ ((nodup_wanting cs d).filter _)
  intro i j l hi hj
  obtain ⟨c, hc, rfl⟩ := Option.map_eq_some_iff.1 hi
  obtain ⟨c', hc', hl⟩ := Option.map_eq_some_iff.1 hj
  have hget : (cs.map Claimant.label)[i]? = (cs.map Claimant.label)[j]? := by
    rw [getElem?_map, getElem?_map, hc, hc', Option.map_some, Option.map_some, hl]
  exact (List.getElem?_inj (by simpa using (List.getElem?_eq_some_iff.1 hc).1) h).1 hget

theorem collisionOf_eq (d : Domain) :
    collisionOf cs (buildClaims cs) d.sub (wanting cs d) =
      if 2 ≤ (wanting cs d).length then
        ((buildClaims cs)[d.sub]?).bind fun w => cs[w]?.map fun c =>
          { winner := c.label, losers := loserLabels cs d w }
      else none := by
  unfold collisionOf
  by_cases hlen : 2 ≤ (wanting cs d).length
  · rw [if_neg (by omega), if_pos hlen]
    cases hclaim : (buildClaims cs)[d.sub]? with
    | none => rfl
    | some w =>
      have hwins := buildClaims_eq_some_iff.1 hclaim
      obtain ⟨c, hc, -, -, -⟩ := hwins
      have hne : loserLabels cs d w ≠ [] := by
        obtain ⟨i, j, hij, ⟨ci, hci, hdi⟩, ⟨cj, hcj, hdj⟩⟩ := two_le_length_wanting.1 hlen
        refine ne_nil_of_mem (a := if i = w then cj.label else ci.label) ?_
        rw [mem_loserLabels]
        split
        · rename_i hi
          exact ⟨j, cj, fun hj => hij (hi.trans hj.symm), hcj, hdj, rfl⟩
        · rename_i hi
          exact ⟨i, ci, hi, hci, hdi, rfl⟩
      simp only [hc, Option.bind_some, Option.map_some]
      rw [if_neg]
      · rfl
      · rw [List.isEmpty_iff]
        exact hne
  · rw [if_pos (by omega), if_neg hlen]

theorem collisionOf_isSome (d : Domain) :
    (collisionOf cs (buildClaims cs) d.sub (wanting cs d)).isSome ↔
      (∃ i j, i ≠ j ∧ Wants cs i d ∧ Wants cs j d) ∧
        ∃ (i : Nat) (c : Claimant), cs[i]? = some c ∧ c.eligible ∧ d ∈ c.effective := by
  rw [collisionOf_eq, ← two_le_length_wanting]
  constructor
  · intro h
    split at h
    · rename_i hlen
      obtain ⟨e, he⟩ := Option.isSome_iff_exists.1 h
      obtain ⟨w, hw, -⟩ := Option.bind_eq_some_iff.1 he
      obtain ⟨c, hc, helig, hd, -⟩ := buildClaims_eq_some_iff.1 hw
      exact ⟨hlen, w, c, hc, helig, hd⟩
    · cases h
  · rintro ⟨hlen, i, c, hc, helig, hd⟩
    rw [if_pos hlen]
    cases hw : (buildClaims cs)[d.sub]? with
    | none => exact absurd hd (buildClaims_eq_none_iff.1 hw i c hc helig)
    | some w =>
      obtain ⟨c', hc', -⟩ := buildClaims_eq_some_iff.1 hw
      simp [hc']

/-- A request whose host is served under `d`: an exact domain by name, a
wildcard by one label in place of its star when nobody holds the host exactly. -/
def Requests (r : SiteRouter) (h : Str) (d : Domain) : Prop :=
  ∃ sub, canonicalHost h = sub ++ '.' :: r.config.tld.text ∧
    ((d.isWildcard = false ∧ d.sub = sub) ∨
      ((∀ n (e : Domain), e.sub = sub → e.isWildcard = false → ¬r.Holds n e) ∧
        ∃ label rest, sub = label ++ '.' :: rest ∧ '.' ∉ label ∧ d.sub = '*' :: '.' :: rest))

theorem name_of_requests {r : SiteRouter} (hinv : RouterInv r) {n h : Str} {c : Route}
    (howner : r.domainOwner d = some n) (hreq : Requests r h d) (hc : r.resolveRoute h = some c) :
    c.name = n := by
  obtain ⟨-, sub, hsub, -, -, hans⟩ := hinv.resolveRoute_eq_some_iff.1 hc
  have hholds := (hinv.lookup_iff d n).1 howner
  obtain ⟨sub', hsub', hd⟩ := hreq
  have hsame : sub = sub' := append_cancel_right (hsub.symm.trans hsub')
  subst hsame
  rcases hd with ⟨hw, rfl⟩ | ⟨hnone, label, rest, rfl, hlabel, hd⟩
  · rcases hans with ⟨e, he, -, hhe⟩ | ⟨hno, -⟩
    · exact hinv.owner_unique (Domain.ext he ▸ hhe) hholds
    · exact absurd hholds (hno n d rfl hw)
  · rcases hans with ⟨e, he, hw, hhe⟩ | ⟨-, label', rest', heq, -, hlabel', e, he, hhe⟩
    · exact absurd hhe (hnone _ e he hw)
    · have hsplit := splitOnce_append (r := rest) hlabel
      rw [heq, splitOnce_append hlabel'] at hsplit
      obtain ⟨rfl, rfl⟩ := Prod.mk.inj (Option.some.inj hsplit)
      exact hinv.owner_unique (Domain.ext (he.trans hd.symm) ▸ hhe) hholds

/-- The report lists the contested domains in order of their text, one entry
each; the winner is the claimant the router answers with, the losers are the
other claimants that want the domain, each once, and none of them receives a
request for it. -/
theorem collisions_agree_with_routing (cfg : Config) (sites : List Site) :
    let cs := claimantsOf cfg sites
    let r := (build cfg sites).router
    ∃ ds : List Domain,
      ds.Pairwise (fun a b => compare a.sub b.sub = .lt) ∧
      (∀ d, d ∈ ds ↔ (∃ i j, i ≠ j ∧ Wants cs i d ∧ Wants cs j d) ∧
        ∃ (i : Nat) (c : Claimant), cs[i]? = some c ∧ c.eligible ∧ d ∈ c.effective) ∧
      List.Forall₂ (fun d e => ∃ w c route,
        cs[w]? = some c ∧ (routesOf cfg sites)[w]? = some route ∧
        r.domainOwner d = some route.name ∧ r.routeFor route.name = some route ∧
        e.winner = c.label ∧ e.losers.Nodup ∧
        (∀ l, l ∈ e.losers ↔ ∃ i c', i ≠ w ∧ cs[i]? = some c' ∧ d ∈ c'.effective ∧ c'.label = l) ∧
        ∀ i route', i ≠ w → Wants cs i d → (routesOf cfg sites)[i]? = some route' →
          ∀ h, Requests r h d → r.resolveRoute h ≠ some route')
        ds (collisions cfg sites) := by
  intro cs r
  have hnodup := nodup_effective_claimantsOf cfg sites
  have hwanted := fun d => wantedBy_getElem? hnodup d
  -- the reported keys are texts of domains, each with the claimants wanting it
  let report := fun p : Str × List Nat => collisionOf cs (buildClaims cs) p.1 p.2
  obtain ⟨ds, hds⟩ : ∃ ds : List Domain, ds.map (fun d => (d.sub, wanting cs d)) =
      (wantedBy cs).toList.filter fun p => (report p).isSome := by
    show _ ∈ Set.range (map _)
    rw [Set.range_list_map]
    rintro ⟨k, idxs⟩ hmem
    rw [mem_filter, Std.ExtTreeMap.mem_toList_iff_getElem?_eq_some] at hmem
    obtain ⟨d, rfl⟩ := exists_domain_of_wantedBy hmem.1
    have hidxs := hmem.1
    rw [hwanted d] at hidxs
    split at hidxs
    · cases hidxs
    · exact ⟨d, congrArg (Prod.mk d.sub) (Option.some.inj hidxs)⟩
  have hreport : ∀ d, (report (d.sub, wanting cs d)).isSome ↔ _ := fun d => collisionOf_isSome d
  refine ⟨ds, ?_, fun d => ?_, ?_⟩
  · have hsorted := (Std.ExtTreeMap.ordered_keys_toList (t := wantedBy cs)).sublist
      (filter_sublist (p := fun p => (report p).isSome))
    rw [← hds, pairwise_map] at hsorted
    exact hsorted
  · have hmem : d ∈ ds ↔ (d.sub, wanting cs d) ∈ ds.map fun d => (d.sub, wanting cs d) := by
      rw [mem_map]
      constructor
      · exact fun h => ⟨d, h, rfl⟩
      · rintro ⟨e, he, heq⟩
        exact Domain.ext (Prod.mk.inj heq).1 ▸ he
    rw [hmem, hds, mem_filter, Std.ExtTreeMap.mem_toList_iff_getElem?_eq_some, hreport,
      hwanted d]
    refine and_iff_right_of_imp fun h => ?_
    rw [if_neg]
    intro hnil
    obtain ⟨i, -, -, hi, -⟩ := h.1
    rw [← mem_wanting, hnil] at hi
    cases hi
  · have hforall := forall₂_filter_filterMap report (wantedBy cs).toList
    rw [← hds, forall₂_map_left_iff] at hforall
    refine hforall.imp fun d e he => ?_
    simp only [report, collisionOf_eq] at he
    rw [Option.ite_none_right_eq_some] at he
    obtain ⟨w, hw, hentry⟩ := Option.bind_eq_some_iff.1 he.2
    obtain ⟨c, hc, rfl⟩ := Option.map_eq_some_iff.1 hentry
    have hwins := buildClaims_eq_some_iff.1 hw
    obtain ⟨c', hc', helig, -, -⟩ := id hwins
    rw [hc, Option.some.injEq] at hc'
    subst hc'
    obtain ⟨route, hroute, hname, hfor⟩ := routeFor_of_eligible hc helig
    have howner : r.domainOwner d = some route.name :=
      (build_domainOwner_eq_some_iff cfg sites d _).2 ⟨w, c, hc, hwins, hname.symm⟩
    rw [← hname] at hfor
    refine ⟨w, c, route, hc, hroute, howner, hfor, rfl, nodup_loserLabels (nodup_labels cfg sites) d w,
      fun l => mem_loserLabels, fun i route' hi _ hroute' h hreq hresolve => hi ?_⟩
    have hcname := name_of_requests (build_inv cfg sites) howner hreq hresolve
    obtain ⟨-, -, -, -, hfor', -⟩ := (build_inv cfg sites).resolveRoute_eq_some_iff.1 hresolve
    rw [hcname, hfor, Option.some.injEq] at hfor'
    subst hfor'
    exact (List.getElem?_inj (List.getElem?_eq_some_iff.1 hroute').1 (nodup_routesOf cfg sites)).1
      (hroute'.trans hroute.symm)

end Orcker.Daemon
