import Orcker.Daemon.AddDomain
import Orcker.Daemon.Newcomers

/-!
# Adding a proxy routes its own host and no other
-/

namespace Orcker.Daemon

open Base Orcker.Core Orcker.Schema List

theorem refuseIf_eq_ok_iff {condition : Bool} {reason : ValidateErrorReason} :
    refuseIf condition reason = .ok () ↔ condition = false := by
  cases condition <;> simp [refuseIf]

variable {projects : List ContainerProject}

theorem validateProjectList_eq_ok_iff {seen : StrSet} {ports : List UInt16} :
    validateProjectList seen ports projects = .ok () ↔
      (∀ p ∈ projects, p.name.text ∉ seen ∧ p.port ≠ 0 ∧ p.port ∉ ports) ∧
        (projects.map fun p => p.name.text).Nodup ∧ (projects.map ContainerProject.port).Nodup := by
  induction projects generalizing seen ports with
  | nil => simp [validateProjectList]
  | cons p projects ih =>
    simp only [validateProjectList, check_bind_eq_ok_iff, refuseIf_eq_ok_iff,
      decide_eq_false_iff_not, ih]
    rw [forall_mem_cons, map_cons, map_cons, nodup_cons, nodup_cons]
    simp only [mem_map, not_exists, not_and, Std.ExtTreeSet.mem_insert,
      Std.compare_eq_iff_eq, not_or, mem_cons]
    constructor
    · rintro ⟨hname, hzero, hport, hrest, hnames, hports⟩
      refine ⟨⟨⟨hname, hzero, hport⟩, fun q hq => ?_⟩, ⟨fun q hq heq => ?_, hnames⟩,
        fun q hq heq => ?_, hports⟩
      · exact ⟨(hrest q hq).1.2, (hrest q hq).2.1, (hrest q hq).2.2.2⟩
      · exact (hrest q hq).1.1 heq.symm
      · exact (hrest q hq).2.2.1 heq
    · rintro ⟨⟨⟨hname, hzero, hport⟩, hrest⟩, ⟨hfresh, hnames⟩, hfree, hports⟩
      refine ⟨hname, hzero, hport, fun q hq => ?_, hnames, hports⟩
      exact ⟨⟨fun heq => hfresh q hq heq.symm, (hrest q hq).1⟩, (hrest q hq).2.1, hfree q hq,
        (hrest q hq).2.2⟩

theorem project_name_ne_of_validate {c : Config} (h : validate c = .ok ()) :
    ∀ p ∈ c.projects, ∀ q ∈ c.proxies, p.name.text ≠ q.name.text := by
  intro p hp q hq heq
  have hprojects : validateProjects c = .ok () := (validate_eq_ok_iff.1 h).2.2.2.2.2.2.2.2.2.2.2.2.1
  refine ((validateProjectList_eq_ok_iff.1 hprojects).1 p hp).1 (StrSet.mem_collect.2 ?_)
  exact mem_append_right _ (mem_map.2 ⟨q, hq, heq.symm⟩)

theorem name_of_projectProxies {q : ProxySite} (h : q ∈ projectProxies projects) :
    ∃ p ∈ projects, q.name.text = p.name.text := by
  obtain ⟨p, hp, hq⟩ := mem_filterMap.1 h
  cases hproxy : p.proxySite with
  | error e =>
    rw [hproxy] at hq
    cases hq
  | ok q' =>
    rw [hproxy] at hq
    cases hq
    exact ⟨p, hp, ContainerProject.name_of_proxySite hproxy⟩

variable {p : ProxySite}

section AddProxy

variable {cfg c' : Config} {sites : List Site} {name url : Str} {canonical : Option Path}
  {php : PhpVersion} {applied : Applied}

theorem eq_apex_of_wants (hdelta : cfg.domains.proxy[p.name.text]? = none) {d : Domain}
    (h : (AddsProxy.newcomer sites p).wants cfg.domains d = true) : d = Domain.apex p.name := by
  have hmem := (Entrant.wants_iff.1 h).2
  have hget : (AddsProxy.newcomer sites p).source.get cfg.domains = none := hdelta
  rw [effective_eq, hget] at hmem
  have hset := effectiveOf_default p.name
  exact mem_singleton.1 (hset ▸ hmem)

theorem addsProxy_of_apply (hvalid : validate { cfg with proxies := cfg.proxies ++ [p] } = .ok ())
    (hnew : ∀ q ∈ cfg.proxies, q.name.text ≠ p.name.text) :
    AddsProxy cfg { cfg with proxies := cfg.proxies ++ [p] } p where
  split := by
    refine ⟨cfg.proxies, projectProxies cfg.projects, rfl, ?_⟩
    show (cfg.proxies ++ [p]) ++ projectProxies cfg.projects = _
    rw [append_assoc]
    rfl
  fresh := by
    intro q hq
    rcases mem_append.1 hq with hq | hq
    · exact hnew q hq
    · obtain ⟨project, hproject, hname⟩ := name_of_projectProxies hq
      rw [hname]
      exact project_name_ne_of_validate hvalid project hproject p
        (mem_append_right _ mem_cons_self)
  domains := rfl
  tld := rfl

theorem applyRemoveProxy_added (hname : p.name.text = lower name)
    (hdelta : cfg.domains.proxy[lower name]? = none)
    (hnew : ∀ q ∈ cfg.proxies, q.name.text ≠ p.name.text) :
    ∃ applied', applyRemoveProxy { cfg with proxies := cfg.proxies ++ [p] } name =
      .ok (cfg, applied') := by
  have hkept : (cfg.proxies ++ [p]).filter (fun q => q.name.text ≠ lower name) = cfg.proxies := by
    rw [filter_append, filter_cons_of_neg (by simp [hname]), filter_nil,
      append_nil, filter_eq_self]
    intro q hq
    exact decide_eq_true (hname ▸ hnew q hq)
  rw [applyRemoveProxy]
  simp only [hkept, length_append, length_singleton]
  rw [if_neg (by omega), OrdMap.erase_of_getElem?_eq_none hdelta]
  exact ⟨_, rfl⟩

/-- After a successful `AddProxy` whose result is valid, under a name without a stored delta, the
hosts that normalise to the proxy's name reach it, every other host is served as before, and
`RemoveProxy` gives the old configuration back. -/
theorem addProxy_routes_own_host (hdelta : cfg.domains.proxy[lower name]? = none)
    (happly : apply cfg (build cfg sites).router (.addProxy name url) canonical php =
      .ok (c', applied))
    (hvalid : validate c' = .ok ()) :
    ∃ p : ProxySite, p.name.text = lower name ∧ UpstreamTarget.fromUrlStr url = .ok p.target ∧
      (∀ h, normalise h = .hostname (lower name ++ '.' :: cfg.tld.text) →
        (build c' sites).router.resolveRoute h = some (.proxy p)) ∧
      (∀ h, normalise h ≠ .hostname (lower name ++ '.' :: cfg.tld.text) →
        (build c' sites).router.resolveRoute h = (build cfg sites).router.resolveRoute h) ∧
      ∀ router, ∃ applied', apply c' router (.removeProxy name) canonical php =
        .ok (cfg, applied') := by
  obtain ⟨target, p, htarget, hp, hsites, hnew, howner, rfl⟩ := applyAddProxy_ok happly
  obtain ⟨hnew', rfl⟩ := ProxySite.new_ok hp
  have hname := validateProxyName_eq_ok hnew'
  rw [← hname] at hdelta ⊢
  have hadds := addsProxy_of_apply hvalid hnew
  have hwants : (AddsProxy.newcomer sites p).wants cfg.domains (Domain.apex p.name) = true := by
    have hget : (AddsProxy.newcomer sites p).source.get cfg.domains = none := hdelta
    rw [Entrant.wants_iff, effective_eq, hget]
    refine ⟨AddsProxy.eligible_newcomer.2 hsites, ?_⟩
    have hset := effectiveOf_default p.name
    exact hset ▸ mem_singleton.2 rfl
  refine ⟨p, rfl, htarget, fun h hh => ?_, fun h hh => ?_, fun router => ?_⟩
  · exact hadds.resolveRoute_new hsites (hadds.domainOwner_new howner hwants) hh
  · -- Any other host depends on domains that the proxy does not want.
    refine hadds.resolveRoute_eq (fun hhost sub hsub d hd => hadds.domainOwner_other ?_)
      fun d n hn => hadds.routeFor_other fun heq => hadds.domainOwner_ne hsites (heq ▸ hn)
    rw [Bool.eq_false_iff]
    intro hwanted
    have hapex := eq_apex_of_wants hdelta hwanted
    rw [Domain.apex_eq] at hapex
    rcases hd with rfl | ⟨-, hwild⟩
    · rw [hapex] at hsub
      refine hh (normalise_eq_hostname_iff.2 ⟨hhost, hsub.symm, by simp, ?_⟩)
      exact head?_hostname_ne_dot p.name cfg.tld
    · rw [hapex, p.name.exact] at hwild
      cases hwild
  · exact applyRemoveProxy_added hname (hname ▸ hdelta) hnew

end AddProxy

theorem addProxy_routes_own_host_api :
    ∃ (c' : Config) (p : ProxySite), p.name.text = "api".toList ∧ p.target.port = 3000 ∧
      (build c' [blogSite .parked]).router.resolveRoute "API.test:80".toList = some (.proxy p) ∧
      (build c' [blogSite .parked]).router.resolveRoute "blog.test".toList =
        (build parkedConfig [blogSite .parked]).router.resolveRoute "blog.test".toList := by
  have hdelta : parkedConfig.domains.proxy[lower "Api".toList]? = none := by decide +kernel
  obtain ⟨c', applied, happly, hvalid⟩ : ∃ c' applied,
      apply parkedConfig (build parkedConfig [blogSite .parked]).router
        (.addProxy "Api" "http://localhost:3000") none defaultPhp = .ok (c', applied) ∧
        validate c' = .ok () := by
    refine ⟨{ parkedConfig with proxies := [⟨⟨apiDomain, by decide +kernel⟩,
        ⟨false, "localhost", 3000, by decide, by decide, by decide, by decide⟩, false⟩] },
      ⟨"added proxy api -> http://localhost:3000"⟩, ?_, ?_⟩
    · decide +kernel
    · decide +kernel
  obtain ⟨p, hname, htarget, hown, hother, -⟩ := addProxy_routes_own_host hdelta happly hvalid
  have hport : (UpstreamTarget.fromUrlStr "http://localhost:3000".toList).map (·.port) =
      .ok 3000 := by decide +kernel
  rw [htarget] at hport
  refine ⟨c', p, hname.trans (by decide +kernel), Except.ok.inj hport, hown _ ?_, hother _ ?_⟩
  · decide +kernel
  · decide +kernel

end Orcker.Daemon
