import Orcker.Daemon.LoopGuard

/-!
# Where a configuration forwards to
-/

namespace Orcker.Daemon

open Base Orcker.Core Orcker.Schema List Except

def ruleTargets (m : StrMap (List ProxyRule)) : List UpstreamTarget :=
  (OrdMap.values m).flatMap fun rules => rules.map ProxyRule.target

/-- The targets of the proxies and of the path rules. -/
def upstreams (cfg : Config) : List UpstreamTarget :=
  cfg.proxies.map ProxySite.target ++ ruleTargets cfg.proxyRules.linked ++
    ruleTargets cfg.proxyRules.parked

/-- What lets others reach the sites. -/
structure Exposure where
  tunnel : TunnelSection
  lanEnabled : Bool
  lanSetupPort : UInt16

/-- Out of reach of all mutations. -/
def exposure (cfg : Config) : Exposure := ⟨cfg.tunnel, cfg.lanEnabled, cfg.lanSetupPort⟩

variable {m : StrMap (List ProxyRule)} {t : UpstreamTarget}

theorem mem_ruleTargets :
    t ∈ ruleTargets m ↔ ∃ (key : Str) (rules : List ProxyRule), m[key]? = some rules ∧
      ∃ rule ∈ rules, rule.target = t := by
  simp only [ruleTargets, mem_flatMap, OrdMap.mem_values, mem_map]
  constructor
  · rintro ⟨rules, ⟨key, hkey⟩, hrule⟩
    exact ⟨key, rules, hkey, hrule⟩
  · rintro ⟨key, rules, hkey, hrule⟩
    exact ⟨rules, ⟨key, hkey⟩, hrule⟩

theorem mem_upstreams {cfg : Config} :
    t ∈ upstreams cfg ↔ (∃ p ∈ cfg.proxies, p.target = t) ∨
      t ∈ ruleTargets cfg.proxyRules.linked ∨ t ∈ ruleTargets cfg.proxyRules.parked := by
  rw [upstreams, append_assoc, mem_append, mem_append, mem_map]

theorem ruleTargets_subset {m' : StrMap (List ProxyRule)}
    (h : ∀ (key : Str) (rules : List ProxyRule), m'[key]? = some rules →
      ∃ key₀ : Str, m[key₀]? = some rules) : ruleTargets m' ⊆ ruleTargets m := by
  intro t ht
  obtain ⟨key, rules, hkey, hrule⟩ := mem_ruleTargets.1 ht
  obtain ⟨key₀, hkey₀⟩ := h key rules hkey
  exact mem_ruleTargets.2 ⟨key₀, rules, hkey₀, hrule⟩

theorem ruleTargets_filter (m : StrMap (List ProxyRule)) (f : Str → List ProxyRule → Bool) :
    ruleTargets (m.filter f) ⊆ ruleTargets m :=
  ruleTargets_subset fun key _ hkey => ⟨key, OrdMap.getElem?_of_filter hkey⟩

theorem ruleTargets_erase (m : StrMap (List ProxyRule)) (k : Str) :
    ruleTargets (m.erase k) ⊆ ruleTargets m := by
  refine ruleTargets_subset fun key rules hkey => ⟨key, ?_⟩
  rw [OrdMap.getElem?_erase] at hkey
  split at hkey
  · cases hkey
  · exact hkey

theorem mem_ruleTargets_put {k : Str} {o : Option (List ProxyRule)}
    (ht : t ∈ ruleTargets (m.put k o)) :
    t ∈ ruleTargets m ∨ ∃ rules, o = some rules ∧ ∃ rule ∈ rules, rule.target = t := by
  obtain ⟨key, rules, hkey, hrule⟩ := mem_ruleTargets.1 ht
  rw [OrdMap.getElem?_put] at hkey
  split at hkey
  · exact .inr ⟨rules, hkey, hrule⟩
  · exact .inl (mem_ruleTargets.2 ⟨key, rules, hkey, hrule⟩)

/-- Moving an entry loses at most what it overwrites. -/
theorem mem_ruleTargets_moveEntry {src dst : StrMap (List ProxyRule)} {k k' : Str}
    (ht : t ∈ ruleTargets (moveEntry src dst k k').1 ∨
      t ∈ ruleTargets (moveEntry src dst k k').2) : t ∈ ruleTargets src ∨ t ∈ ruleTargets dst := by
  rcases ht with ht | ht
  · refine .inl (ruleTargets_subset (fun key rules hkey => ⟨key, ?_⟩) ht)
    rw [getElem?_moveEntry_fst] at hkey
    split at hkey
    · cases hkey
    · exact hkey
  · obtain ⟨key, rules, hkey, hrule⟩ := mem_ruleTargets.1 ht
    rw [getElem?_moveEntry_snd] at hkey
    split at hkey
    · rcases Option.or_eq_some_iff.1 hkey with hsrc | ⟨-, hdst⟩
      · exact .inl (mem_ruleTargets.2 ⟨k, rules, hsrc, hrule⟩)
      · exact .inr (mem_ruleTargets.2 ⟨key, rules, hdst, hrule⟩)
    · exact .inr (mem_ruleTargets.2 ⟨key, rules, hkey, hrule⟩)

variable {name : Str}

theorem mem_ruleTargets_demote {reparks : Bool} {linked parked : StrMap (List ProxyRule)}
    {docroot : Str} (ht : t ∈ ruleTargets (demote reparks linked parked name docroot).1 ∨
      t ∈ ruleTargets (demote reparks linked parked name docroot).2) :
    t ∈ ruleTargets linked ∨ t ∈ ruleTargets parked := by
  rw [demote] at ht
  split at ht
  · exact mem_ruleTargets_moveEntry ht
  · exact ht.imp_left fun h => ruleTargets_erase linked name h

theorem mem_ruleTargets_editRules {maps maps' : StrMap (List ProxyRule) × StrMap (List ProxyRule)}
    {key : Bool × Str}
    {f : Option (List ProxyRule) → Except MutateError (Option (List ProxyRule))}
    (Added : UpstreamTarget → Prop) (h : editRules maps key f = .ok maps')
    (hf : ∀ old new, f old = .ok (some new) → ∀ rule ∈ new,
      (∃ rules, old = some rules ∧ rule ∈ rules) ∨ Added rule.target)
    (ht : t ∈ ruleTargets maps'.1 ∨ t ∈ ruleTargets maps'.2) :
    (t ∈ ruleTargets maps.1 ∨ t ∈ ruleTargets maps.2) ∨ Added t := by
  -- Either side is one entry that is put, and what is put comes from `f`.
  have hput : ∀ {m : StrMap (List ProxyRule)} {o : Option (List ProxyRule)}, f m[key.2]? = .ok o →
      t ∈ ruleTargets (m.put key.2 o) → t ∈ ruleTargets m ∨ Added t := by
    intro m o ho ht
    rcases mem_ruleTargets_put ht with ht | ⟨new, rfl, rule, hrule, rfl⟩
    · exact .inl ht
    · refine (hf _ _ ho rule hrule).imp_left ?_
      rintro ⟨rules, hrules, hmem⟩
      exact mem_ruleTargets.2 ⟨key.2, rules, hrules, rule, hmem, rfl⟩
  rw [editRules] at h
  split at h
  · simp only [bind_eq_ok_iff, pure_eq_ok, ok.injEq] at h
    obtain ⟨o, ho, rfl⟩ := h
    rcases ht with ht | ht
    · exact (hput ho ht).imp_left .inl
    · exact .inl (.inr ht)
  · simp only [bind_eq_ok_iff, pure_eq_ok, ok.injEq] at h
    obtain ⟨o, ho, rfl⟩ := h
    rcases ht with ht | ht
    · exact .inl (.inl ht)
    · exact (hput ho ht).imp_left .inr

variable {target : UpstreamTarget} {pathPrefix : Str} {php : PhpVersion}

section Apply

variable {cfg c' : Config} {router : SiteRouter} {a : Applied} {t : UpstreamTarget}

theorem upstreams_of_applySetSecure {secure : Bool}
    (h : applySetSecure cfg router name secure = .ok (c', a)) : upstreams c' = upstreams cfg := by
  rw [applySetSecure] at h
  split at h
  · cases h
    rfl
  split at h
  · cases h
    rfl
  split at h
  · rename_i proxies hproxies
    cases h
    have htargets : proxies.map ProxySite.target = cfg.proxies.map ProxySite.target :=
      map_updateFirst (f := (·.setSecure secure)) (fun _ => rfl) hproxies
    rw [upstreams, htargets]
    rfl
  split at h
  · cases h
    rfl
  · cases h

theorem upstreams_of_applySetFrontController {enabled : Bool}
    (h : applySetFrontController cfg router name enabled = .ok (c', a)) :
    upstreams c' = upstreams cfg := by
  rw [applySetFrontController] at h
  split at h
  · cases h
    rfl
  split at h
  · cases h
    rfl
  · cases h

theorem mem_upstreams_linkedConfig {site : Site} (ht : t ∈ upstreams (linkedConfig cfg site)) :
    t ∈ upstreams cfg := by
  rcases mem_upstreams.1 ht with hproxy | hrules
  · exact mem_upstreams.2 (.inl hproxy)
  · exact mem_upstreams.2 (.inr (mem_ruleTargets_moveEntry hrules.symm).symm)

theorem mem_upstreams_unlinkedConfig {site : Site} (ht : t ∈ upstreams (unlinkedConfig cfg site)) :
    t ∈ upstreams cfg := by
  rcases mem_upstreams.1 ht with hproxy | hrules
  · exact mem_upstreams.2 (.inl hproxy)
  · exact mem_upstreams.2 (.inr (mem_ruleTargets_demote hrules))

theorem mem_upstreams_of_applyAddProxy {url : Str}
    (h : applyAddProxy cfg router name url = .ok (c', a)) (ht : t ∈ upstreams c') :
    t ∈ upstreams cfg ∨ UpstreamTarget.fromUrlStr url = .ok t := by
  obtain ⟨target, proxy, htarget, hproxy, -, -, -, rfl⟩ := applyAddProxy_ok h
  rcases mem_upstreams.1 ht with ⟨p, hp, rfl⟩ | hrules
  · rcases mem_append.1 hp with hp | hp
    · exact .inl (mem_upstreams.2 (.inl ⟨p, hp, rfl⟩))
    · obtain rfl := mem_singleton.1 hp
      exact .inr ((ProxySite.new_ok hproxy).2 ▸ htarget)
  · exact .inl (mem_upstreams.2 (.inr hrules))

theorem mem_upstreams_of_applyAddProxyRule {site url : Str}
    (h : applyAddProxyRule cfg router site pathPrefix url = .ok (c', a)) (ht : t ∈ upstreams c') :
    t ∈ upstreams cfg ∨ UpstreamTarget.fromUrlStr url = .ok t := by
  simp only [applyAddProxyRule, bind_eq_ok_iff, mapError_eq_ok_iff, pure_eq_ok, ok.injEq,
    Prod.mk.injEq] at h
  obtain ⟨target, htarget, rule, hrule, key, -, maps, hmaps, rfl, -⟩ := h
  rcases mem_upstreams.1 ht with hproxy | hrules
  · exact .inl (mem_upstreams.2 (.inl hproxy))
  have hadded : (t ∈ ruleTargets cfg.proxyRules.linked ∨ t ∈ ruleTargets cfg.proxyRules.parked) ∨
      t = target := by
    refine mem_ruleTargets_editRules (· = target) hmaps (fun old new hnew r hr => ?_) hrules
    obtain ⟨rules, hpush, hsome⟩ := map_eq_ok_iff.1 hnew
    cases hsome
    rw [pushRule] at hpush
    split at hpush
    · cases hpush
    cases hpush
    rcases mem_append.1 hr with hr | hr
    · -- A site without rules starts from none.
      cases old with
      | none => cases hr
      | some rules => exact .inl ⟨rules, rfl, hr⟩
    · obtain rfl := mem_singleton.1 hr
      exact .inr ((ProxyRule.new_ok hrule).2.1)
  rcases hadded with hold | rfl
  · exact .inl (mem_upstreams.2 (.inr hold))
  · exact .inr (parseTarget_ok htarget).1

theorem mem_upstreams_of_applyRemoveProxyRule {site : Str}
    (h : applyRemoveProxyRule cfg router site pathPrefix = .ok (c', a)) (ht : t ∈ upstreams c') :
    t ∈ upstreams cfg := by
  simp only [applyRemoveProxyRule, bind_eq_ok_iff, pure_eq_ok, ok.injEq, Prod.mk.injEq] at h
  obtain ⟨key, -, maps, hmaps, rfl, -⟩ := h
  rcases mem_upstreams.1 ht with hproxy | hrules
  · exact mem_upstreams.2 (.inl hproxy)
  have hkept : (t ∈ ruleTargets cfg.proxyRules.linked ∨ t ∈ ruleTargets cfg.proxyRules.parked) ∨
      False := by
    refine mem_ruleTargets_editRules (fun _ => False) hmaps (fun old new hnew r hr => .inl ?_) hrules
    cases old with
    | none => cases hnew
    | some rules =>
      rw [dropRule] at hnew
      split at hnew
      · cases hnew
      split at hnew
      · cases hnew
      cases hnew
      exact ⟨rules, rfl, (mem_filter.1 hr).1⟩
  exact mem_upstreams.2 (.inr (hkept.resolve_right id))

/-- A mutation moves and drops targets, and adds at most the one its own URL names. -/
theorem mem_upstreams_of_apply {req : Request} {canonical : Option Path}
    (h : apply cfg router req canonical php = .ok (c', a)) (ht : t ∈ upstreams c') :
    t ∈ upstreams cfg ∨
      ∃ url, req.upstreamUrl = some url ∧ UpstreamTarget.fromUrlStr url = .ok t := by
  cases req with
  | park _ =>
    obtain ⟨path, -, rfl⟩ := applyPark_ok h
    exact .inl ht
  | link _ name =>
    obtain ⟨path, site, -, -, -, rfl⟩ := applyLink_ok h
    exact .inl (mem_upstreams_linkedConfig ht)
  | unpark path =>
    cases h
    refine .inl (mem_upstreams.2 ((mem_upstreams.1 ht).imp_right fun hrules => ?_))
    exact hrules.imp_right fun h => ruleTargets_filter _ _ h
  | unlink name =>
    rcases applyUnlink_ok h with ⟨-, rfl⟩ | ⟨-, site, -, -, rfl⟩
    · exact .inl ht
    · exact .inl (mem_upstreams_unlinkedConfig ht)
  | setSecure name secure => exact .inl (upstreams_of_applySetSecure h ▸ ht)
  | setFrontController name enabled => exact .inl (upstreams_of_applySetFrontController h ▸ ht)
  | addDomain name domain =>
    obtain ⟨target, claimant, dom, -, -, -, rfl⟩ := applyAddDomain_ok h
    exact .inl ht
  | removeDomain name domain =>
    obtain ⟨target, claimant, dom, added, suppressed, -, -, -, -, primary, rfl⟩ :=
      applyRemoveDomain_ok h
    exact .inl ht
  | setPrimaryDomain name domain =>
    obtain ⟨target, claimant, dom, -, -, -, -, rfl⟩ := applySetPrimaryDomain_ok h
    exact .inl ht
  | resetDomains name =>
    obtain ⟨target, claimant, -, rfl⟩ := applyResetDomains_ok h
    exact .inl ht
  | addProxy name url =>
    exact (mem_upstreams_of_applyAddProxy h ht).imp_right fun hurl => ⟨url, rfl, hurl⟩
  | removeProxy name =>
    obtain rfl := applyRemoveProxy_ok h
    refine .inl (mem_upstreams.2 ((mem_upstreams.1 ht).imp_left ?_))
    rintro ⟨p, hp, htarget⟩
    exact ⟨p, (mem_filter.1 hp).1, htarget⟩
  | addProxyRule site pathPrefix url =>
    exact (mem_upstreams_of_applyAddProxyRule h ht).imp_right fun hurl => ⟨url, rfl, hurl⟩
  | removeProxyRule site pathPrefix => exact .inl (mem_upstreams_of_applyRemoveProxyRule h ht)
  | addRouteRule site pathPrefix target =>
    simp only [apply, applyAddRouteRule, bind_eq_ok_iff, pure_eq_ok, ok.injEq,
      Prod.mk.injEq] at h
    obtain ⟨rule, -, key, -, maps, -, rfl, -⟩ := h
    exact .inl ht
  | removeRouteRule site pathPrefix =>
    simp only [apply, applyRemoveRouteRule, bind_eq_ok_iff, pure_eq_ok, ok.injEq,
      Prod.mk.injEq] at h
    obtain ⟨key, -, maps, -, rfl, -⟩ := h
    exact .inl ht
  | createGroup | deleteGroup | setGroupOrder | setSiteGroup | renameGroup =>
    obtain ⟨groups, rfl⟩ := apply_editsGroups h trivial
    exact .inl ht
  | other => cases h

theorem exposure_of_step (h : Step cfg router php c') : exposure c' = exposure cfg := by
  cases h with
  | switch h _ _ => cases h <;> rfl
  | _ => rfl

end Apply

/-- A save and a load add none. -/
theorem upstreams_of_reload {toml : TomlCrate} {c r : Config} {s : Str} (htoml : toml.Faithful c)
    (hsave : c.toToml toml = .ok s) (hload : Config.fromToml toml s = .ok r) :
    upstreams r ⊆ upstreams c ∧ exposure r = exposure c := by
  have hrules := convertRules_wire convertProxyRule_wireProxyRule
  have h := tryFrom_of_reload htoml hsave hload
  rw [Config.tryFrom] at h
  split at h
  · cases h
  simp only [bind_eq_ok_iff, pure_eq_ok, ok.injEq] at h
  obtain ⟨_, _, _, _, _, _, _, _, _, _, _, _, _, _, proxies, hproxies, _, _, linked, hlinked, parked,
    hparked, _, _, _, _, rfl⟩ := h
  obtain rfl := ok.inj ((convertProxies_wire c.proxies).symm.trans hproxies)
  obtain rfl := ok.inj ((hrules (pruneRules c.proxyRules.linked)).symm.trans hlinked)
  obtain rfl := ok.inj ((hrules (pruneRules c.proxyRules.parked)).symm.trans hparked)
  refine ⟨fun t ht => ?_, rfl⟩
  refine mem_upstreams.2 ((mem_upstreams.1 ht).imp_right fun hrule => ?_)
  exact hrule.imp (fun h => ruleTargets_filter _ _ h) fun h => ruleTargets_filter _ _ h

end Orcker.Daemon
