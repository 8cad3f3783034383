import Orcker.Daemon.AddProxy
import Orcker.Daemon.LinkPlan
import Orcker.Daemon.RemoveDomain

/-!
# A linked project and its host

Whether the host of a new project reaches its port also depends on what the plan does not look at:
sites found on disk, domains others have added, and a delta left under the name.
-/

namespace Orcker.Daemon

open Base Orcker.Core Orcker.Schema Domain

/-- The host of the project's name reaches the project's loopback port. -/
def Reaches (router : SiteRouter) (tld : Tld) (p : ContainerProject) : Prop :=
  ∃ q, router.resolveRoute (p.name.text ++ '.' :: tld.text) = some (.proxy q) ∧
    q.target.secure = false ∧ q.target.host = "127.0.0.1" ∧ q.target.port = p.port.toNat

/-- No site has the project's name, nobody has its host, and the delta stored for
the name does not give the host up. -/
structure HostFree (cfg : Config) (sites : List Site) (p : ContainerProject) : Prop where
  noSite : ∀ s ∈ sites, s.name.text ≠ p.name.text
  unowned : (build cfg sites).router.domainOwner (Domain.apex p.name.toProxyName) = none
  wanted : Domain.apex p.name.toProxyName ∈
    effectiveOf ((cfg.domains.proxy[p.name.text]?).getD .default) p.name.toProxyName

section Project

variable {cfg : Config} {sites : List Site} {p : ContainerProject}

/-- The project as a proxy. -/
def projectProxy (p : ContainerProject) (hport : p.port ≠ 0) : ProxySite :=
  ⟨p.name.toProxyName, ContainerProject.loopback p.port hport, p.secure⟩

theorem addsProxy_of_project (hport : p.port ≠ 0)
    (hprojects : ∀ q ∈ cfg.projects, q.name.text ≠ p.name.text)
    (hproxies : ∀ q ∈ cfg.proxies, q.name.text ≠ p.name.text) :
    AddsProxy cfg { cfg with projects := cfg.projects ++ [p] } (projectProxy p hport) where
  split := by
    refine ⟨allProxies cfg, [], (List.append_nil _).symm, ?_⟩
    have hlast : projectProxies [p] = [projectProxy p hport] := by
      rw [projectProxies, List.filterMap_cons, p.proxySite_eq hport]
      rfl
    show cfg.proxies ++ projectProxies (cfg.projects ++ [p]) = _
    rw [projectProxies, List.filterMap_append, ← projectProxies, ← projectProxies, hlast,
      ← List.append_assoc]
    rfl
  fresh := by
    intro q hq
    rcases List.mem_append.1 hq with hq | hq
    · exact hproxies q hq
    · obtain ⟨project, hproject, hname⟩ := name_of_projectProxies hq
      rw [hname]
      exact hprojects project hproject
  domains := rfl
  tld := rfl

theorem noSite_iff (cfg : Config) : (∀ s ∈ sites, s.name.text ≠ p.name.text) ↔
    (build cfg sites).router.sites[p.name.text]? = none := by
  rw [build_sites, List.find?_eq_none]
  simp

theorem wants_apex_iff (hport : p.port ≠ 0) :
    (AddsProxy.newcomer sites (projectProxy p hport)).wants cfg.domains
        (Domain.apex p.name.toProxyName) = true ↔
      (∀ s ∈ sites, s.name.text ≠ p.name.text) ∧ Domain.apex p.name.toProxyName ∈
        effectiveOf ((cfg.domains.proxy[p.name.text]?).getD .default) p.name.toProxyName := by
  rw [Entrant.wants_iff, effective_eq, noSite_iff cfg]
  exact and_congr_left fun _ => AddsProxy.eligible_newcomer (p := projectProxy p hport)

theorem resolveRoute_of_not_hostFree (hport : p.port ≠ 0)
    (hadds : AddsProxy cfg { cfg with projects := cfg.projects ++ [p] } (projectProxy p hport))
    (hnot : ¬HostFree cfg sites p) :
    (build { cfg with projects := cfg.projects ++ [p] } sites).router.resolveRoute
        (p.name.text ++ '.' :: cfg.tld.text) =
      (build cfg sites).router.resolveRoute (p.name.text ++ '.' :: cfg.tld.text) := by
  have hapex : (apex p.name.toProxyName).sub = p.name.text :=
    congrArg sub (apex_eq _)
  have howner : (build { cfg with projects := cfg.projects ++ [p] } sites).router.domainOwner
      (apex p.name.toProxyName) =
        (build cfg sites).router.domainOwner (apex p.name.toProxyName) := by
    by_cases hwants : (AddsProxy.newcomer sites (projectProxy p hport)).wants cfg.domains
        (apex p.name.toProxyName) = true
    · -- Somebody else has added the host, which an apex does not take back.
      obtain ⟨hsites, hkept⟩ := (wants_apex_iff hport).1 hwants
      have hne : ∀ d, (build cfg sites).router.domainOwner d ≠ some p.name.text :=
        fun d => hadds.domainOwner_ne ((noSite_iff cfg).1 hsites)
      cases ho : owner (entrants cfg sites) cfg.domains (apex p.name.toProxyName) with
      | none =>
        refine absurd ⟨hsites, ?_, hkept⟩ hnot
        rw [build_domainOwner_eq, ho]
        rfl
      | some o =>
        have hname : apex p.name.toProxyName ≠ apex o.name := by
          intro heq
          have hown := build_domainOwner_eq cfg sites (apex p.name.toProxyName)
          rw [ho, Option.map_some] at hown
          refine hne _ (hown.trans (congrArg some ?_))
          rw [← hapex, heq, apex_eq]
        have hstill := (hadds.joins sites).owner_explicit ho hname rfl
        rw [build_domainOwner_eq, build_domainOwner_eq, ho]
        exact congrArg (Option.map _) hstill
    · exact hadds.domainOwner_other (Bool.eq_false_iff.2 hwants)
  refine hadds.resolveRoute_eq (fun _ sub hsub d hd => ?_) fun d n hn => ?_
  · have hcanonical := (canonicalHost_toFqdn (apex p.name.toProxyName) cfg.tld).2
    rw [toFqdn, hapex, hsub] at hcanonical
    obtain rfl := List.append_cancel_right hcanonical
    rcases hd with hd | ⟨hdot, -⟩
    · rw [ext (hd.trans hapex.symm), howner]
    · exact absurd (p.name.isLabel.chars '.' hdot) (by decide)
  · by_cases heq : n = p.name.text
    · -- Then a site has the project's name, and keeps it.
      cases hs : (build cfg sites).router.sites[p.name.text]? with
      | none => exact absurd (heq ▸ hn) (hadds.domainOwner_ne hs)
      | some s =>
        have hs' := hs
        rw [build_sites, ← build_sites { cfg with projects := cfg.projects ++ [p] }] at hs'
        rw [heq, SiteRouter.routeFor, SiteRouter.routeFor, hs, hs']
    · exact hadds.routeFor_other heq

/-- For every plan that links a project: its host reaches its port exactly if it
did before (somebody else's proxy has both), or if the host is free. -/
theorem linked_project_reached_iff {root : Path} {requestedName : Option Str}
    {requestedPort : Option UInt16} {existingYml : Option OrckerYml} {isFree : UInt16 → Bool}
    {writeYml : Option OrckerYml}
    (hplan : planLink cfg root requestedName requestedPort existingYml isFree =
      .ok (.link p writeYml)) (sites : List Site) :
    Reaches (build { cfg with projects := cfg.projects ++ [p] } sites).router cfg.tld p ↔
      Reaches (build cfg sites).router cfg.tld p ∨ HostFree cfg sites p := by
  have hplanned := planned_of_planLink hplan
  have hport := hplanned.inRange.ne_zero
  have hadds := addsProxy_of_project hport hplanned.projects hplanned.proxies
  by_cases hfree : HostFree cfg sites p
  · refine iff_of_true ⟨projectProxy p hport, ?_, rfl, rfl, rfl⟩ (.inr hfree)
    refine hadds.resolveRoute_new ((noSite_iff cfg).1 hfree.noSite) ?_ ?_
    · exact hadds.domainOwner_new hfree.unowned
        ((wants_apex_iff hport).2 ⟨hfree.noSite, hfree.wanted⟩)
    · have hapex : (apex p.name.toProxyName).sub = p.name.text :=
        congrArg sub (apex_eq _)
      have hcanonical := canonicalHost_toFqdn (apex p.name.toProxyName) cfg.tld
      rw [toFqdn, hapex] at hcanonical
      refine normalise_eq_hostname_iff.2 ⟨hcanonical.1, hcanonical.2.symm, by simp, ?_⟩
      exact head?_hostname_ne_dot p.name.toProxyName cfg.tld
  · rw [Reaches, resolveRoute_of_not_hostFree hport hadds hfree]
    exact ⟨.inl, fun h => h.resolve_right hfree⟩

end Project

def shopProject : ContainerProject := ⟨shopName, .ofStr "/work/shop", 20000, false⟩

def newYml (site : Str) : OrckerYml := ⟨1, site, ⟨8, 4⟩, "postgres", "reference"⟩

theorem linked_project_reached_shop :
    Reaches (build { parkedConfig with projects := [shopProject] } [blogSite .parked]).router
      parkedConfig.tld shopProject := by
  have hplan : planLink parkedConfig (.ofStr "/work/shop".toList) none (some 20000) none
      (fun _ => true) = .ok (.link shopProject (some (newYml "shop"))) := by decide +kernel
  refine (linked_project_reached_iff hplan [blogSite .parked]).2 (.inr ⟨?_, ?_, ?_⟩)
  · decide +kernel
  · decide +kernel
  · decide +kernel

def blogProject : ContainerProject := ⟨blogName, .ofStr "/work/blog", 20000, false⟩

/-- The plan is accepted, and the host stays with the site found on disk. -/
theorem linked_project_shadowed :
    validate parkedConfig = .ok () ∧
      scanSites blogWorld defaultPhp parkedConfig = .ok ([blogSite .parked], []) ∧
      planLink parkedConfig (.ofStr "/work/blog".toList) none (some 20000) none (fun _ => true) =
        .ok (.link blogProject (some (newYml "blog"))) ∧
      (build { parkedConfig with projects := [blogProject] }
          [blogSite .parked]).router.resolveRoute "blog.test".toList =
        some (.php (blogSite .parked)) := by
  decide +kernel

end Orcker.Daemon
