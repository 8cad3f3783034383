import Orcker.Daemon.LinkProject

/-!
# Runs of project links and unlinks

The registry of container projects under any interleaving of `LinkProject` and `Unlink`.
-/

namespace Orcker.Daemon

open Base Orcker.Core Orcker.Schema List

/-- One request, with what the daemon reads for it: the descriptor and the port probe for a link,
the router for an unlink. -/
inductive ProjectRequest where
  | linkProject (root : Path) (requestedName : Option Str) (requestedPort : Option UInt16)
    (existingYml : Option OrckerYml) (isFree : UInt16 → Bool)
  | unlink (router : SiteRouter) (name : Str)

/-- A refused request changes nothing, and neither does a link that is there already. -/
def stepProjects (c : Config) : ProjectRequest → Config
  | .linkProject root requestedName requestedPort existingYml isFree =>
    match planLink c root requestedName requestedPort existingYml isFree with
    | .ok (.link project _) => { c with projects := c.projects ++ [project] }
    | .ok (.alreadyLinked _) => c
    | .error _ => c
  | .unlink router name =>
    match applyUnlink c router name with
    | .ok (c', _) => c'
    | .error _ => c

def runProjects (c : Config) (reqs : List ProjectRequest) : Config :=
  reqs.foldl stepProjects c

inductive Steps (c : Config) : ProjectRequest → Config → Prop
  | link {root : Path} {requestedName : Option Str} {requestedPort : Option UInt16}
      {existingYml : Option OrckerYml} {isFree : UInt16 → Bool} {p : ContainerProject}
      {writeYml : Option OrckerYml}
      (h : Planned c root requestedName existingYml p writeYml) :
      Steps c (.linkProject root requestedName requestedPort existingYml isFree)
        { c with projects := c.projects ++ [p] }
  | unlinkProject {router : SiteRouter} {name : Str} :
      Steps c (.unlink router name) (withoutProject c (lower name))
  | unlinkSite {router : SiteRouter} {name : Str} {site : Site} :
      Steps c (.unlink router name) (unlinkedConfig c site)
  | refused {req : ProjectRequest} : Steps c req c

variable {c : Config}

theorem steps_step (c : Config) (req : ProjectRequest) : Steps c req (stepProjects c req) := by
  cases req with
  | linkProject root requestedName requestedPort existingYml isFree =>
    rw [stepProjects]
    split
    · rename_i hplan
      exact .link (planned_of_planLink hplan)
    · exact .refused
    · exact .refused
  | unlink router name =>
    rw [stepProjects]
    split
    · rename_i happly
      rcases applyUnlink_ok happly with ⟨-, rfl⟩ | ⟨-, site, -, -, rfl⟩
      · exact .unlinkProject
      · exact .unlinkSite
    · exact .refused

/-- The projects of a configuration are a registry of names and ports. -/
structure Registry (c : Config) : Prop where
  names : (c.projects.map fun p => p.name.text).Nodup
  ports : (takenPorts c).Nodup
  inRange : ∀ p ∈ c.projects, InRange p.port
  linked : ∀ p ∈ c.projects, ∀ s ∈ c.linked, s.name.text ≠ p.name.text
  proxies : ∀ p ∈ c.projects, ∀ q ∈ c.proxies, q.name.text ≠ p.name.text

theorem Registry.validateProjects (h : Registry c) : validateProjects c = .ok () := by
  refine validateProjectList_eq_ok_iff.2
    ⟨fun p hp => ⟨fun hmem => ?_, ?_, by simp⟩, h.names, h.ports⟩
  · rcases mem_append.1 (StrSet.mem_collect.1 hmem) with hmem | hmem
    · obtain ⟨s, hs, heq⟩ := mem_map.1 hmem
      exact h.linked p hp s hs heq
    · obtain ⟨q, hq, heq⟩ := mem_map.1 hmem
      exact h.proxies p hp q hq heq
  · exact (h.inRange p hp).ne_zero

variable {p : ContainerProject}

theorem Registry.link {root : Path} {requestedName : Option Str} {existingYml : Option OrckerYml}
    {writeYml : Option OrckerYml} (h : Registry c)
    (hp : Planned c root requestedName existingYml p writeYml) :
    Registry { c with projects := c.projects ++ [p] } where
  names := by
    rw [map_append, map_singleton, nodup_append_comm, singleton_append,
      nodup_cons]
    refine ⟨fun hmem => ?_, h.names⟩
    obtain ⟨q, hq, heq⟩ := mem_map.1 hmem
    exact hp.projects q hq heq
  ports := by
    show (map _ (c.projects ++ [p])).Nodup
    rw [map_append, map_singleton, nodup_append_comm, singleton_append,
      nodup_cons]
    exact ⟨hp.unallocated, h.ports⟩
  inRange := by
    intro q hq
    rcases mem_append.1 hq with hq | hq
    · exact h.inRange q hq
    · rw [mem_singleton.1 hq]
      exact hp.inRange
  linked := by
    intro q hq
    rcases mem_append.1 hq with hq | hq
    · exact h.linked q hq
    · rw [mem_singleton.1 hq]
      exact hp.linked
  proxies := by
    intro q hq
    rcases mem_append.1 hq with hq | hq
    · exact h.proxies q hq
    · rw [mem_singleton.1 hq]
      exact hp.proxies

theorem Registry.of_sublist {c' : Config} (h : Registry c)
    (hprojects : c'.projects.Sublist c.projects) (hlinked : c'.linked ⊆ c.linked)
    (hproxies : c'.proxies ⊆ c.proxies) : Registry c' where
  names := h.names.sublist (hprojects.map _)
  ports := h.ports.sublist (hprojects.map _)
  inRange p hp := h.inRange p (hprojects.subset hp)
  linked p hp s hs := h.linked p (hprojects.subset hp) s (hlinked hs)
  proxies p hp q hq := h.proxies p (hprojects.subset hp) q (hproxies hq)

theorem Registry.step (h : Registry c) (req : ProjectRequest) : Registry (stepProjects c req) := by
  have hsteps := steps_step c req
  generalize stepProjects c req = c' at hsteps ⊢
  cases hsteps with
  | link hp => exact h.link hp
  | unlinkProject => exact h.of_sublist filter_sublist (fun _ => id) fun _ => id
  | unlinkSite => exact h.of_sublist (.refl _) filter_sublist.subset fun _ => id
  | refused => exact h

theorem Registry.run (h : Registry c) (reqs : List ProjectRequest) :
    Registry (runProjects c reqs) := by
  induction reqs generalizing c with
  | nil => exact h
  | cons req reqs ih => exact ih (h.step req)

/-- The project is kept as it is, or an unlink of its name has removed all that had it. -/
def KeptOrRemoved (req : ProjectRequest) (c' : Config) (p : ContainerProject) : Prop :=
  p ∈ c'.projects ∨ (∃ router name, req = .unlink router name ∧ p.name.text = lower name) ∧
    ∀ q ∈ c'.projects, q.name.text ≠ p.name.text

theorem step_keeps (req : ProjectRequest) (hp : p ∈ c.projects) :
    KeptOrRemoved req (stepProjects c req) p := by
  have hsteps := steps_step c req
  generalize stepProjects c req = c' at hsteps ⊢
  cases hsteps with
  | link => exact .inl (mem_append_left _ hp)
  | @unlinkProject router name =>
    by_cases hname : p.name.text = lower name
    · refine .inr ⟨⟨router, name, rfl, hname⟩, fun q hq => ?_⟩
      rw [hname]
      simpa using (mem_filter.1 hq).2
    · exact .inl (mem_filter.2 ⟨hp, by simpa using hname⟩)
  | unlinkSite | refused => exact .inl hp

namespace LinkPlan

def project : LinkPlan → ContainerProject
  | .link project _ => project
  | .alreadyLinked project => project

/-- The descriptor in the project's directory once the plan is carried out. -/
def descriptor (existingYml : Option OrckerYml) : LinkPlan → Option OrckerYml
  | .link _ writeYml => existingYml.or writeYml
  | .alreadyLinked _ => existingYml

end LinkPlan

theorem Registry.find?_name (h : Registry c) (hp : p ∈ c.projects) :
    c.projects.find? (fun q => q.name.text = p.name.text) = some p :=
  (find?_eq_some_iff_of_nodup h.names).2 ⟨hp, rfl⟩

section Again

variable {root : Path} {requestedName : Option Str} {requestedPort : Option UInt16}
  {existingYml : Option OrckerYml} {isFree : UInt16 → Bool} {plan : LinkPlan}

theorem mem_step_of_planLink
    (h : planLink c root requestedName requestedPort existingYml isFree = .ok plan) :
    plan.project ∈ (stepProjects c
      (.linkProject root requestedName requestedPort existingYml isFree)).projects := by
  rw [stepProjects, h]
  cases plan with
  | link p writeYml => exact mem_append_right _ (mem_singleton.2 rfl)
  | alreadyLinked p =>
    obtain ⟨name, -, hfind, -⟩ := planLink_eq_alreadyLinked_iff.1 h
    exact mem_of_find?_eq_some hfind

theorem planLink_again {c' : Config} (hregistry : Registry c')
    (h : planLink c root requestedName requestedPort existingYml isFree = .ok plan)
    (hmem : plan.project ∈ c'.projects) (requestedPort' : Option UInt16)
    (isFree' : UInt16 → Bool) :
    planLink c' root requestedName requestedPort' (plan.descriptor existingYml) isFree' =
      .ok (.alreadyLinked plan.project) := by
  rw [planLink_eq_alreadyLinked_iff]
  cases plan with
  | link p writeYml =>
    have hp := planned_of_planLink h
    refine ⟨p.name.text, deriveName_again hp.name hp.descriptor, hregistry.find?_name hmem, ?_⟩
    show p.root.same root = true
    rw [hp.root, Path.same, beq_self_eq_true]
  | alreadyLinked p =>
    obtain ⟨name, hname, hfind, hroot⟩ := planLink_eq_alreadyLinked_iff.1 h
    obtain rfl : p.name.text = name := by simpa using find?_some hfind
    exact ⟨p.name.text, hname, hregistry.find?_name hmem, hroot⟩

end Again

/-- For every run of links and unlinks from a configuration without projects: the projects are a
registry and pass validation, a further step keeps each of them or removes it by name, a link that
succeeded answers with the same project for as long as that is there, and an open port is only
refused once none is left. -/
theorem projects_stay_unique (c : Config) (hnone : c.projects = []) (reqs : List ProjectRequest) :
    Registry (runProjects c reqs) ∧ validateProjects (runProjects c reqs) = .ok () ∧
    (∀ req : ProjectRequest, ∀ p ∈ (runProjects c reqs).projects,
      KeptOrRemoved req (stepProjects (runProjects c reqs) req) p) ∧
    (∀ root requestedName requestedPort existingYml isFree plan,
      planLink (runProjects c reqs) root requestedName requestedPort existingYml isFree = .ok plan →
      let after := stepProjects (runProjects c reqs)
        (.linkProject root requestedName requestedPort existingYml isFree)
      plan.project ∈ after.projects ∧
      ∀ later isFree', plan.project ∈ (runProjects after later).projects →
        planLink (runProjects after later) root requestedName requestedPort
          (plan.descriptor existingYml) isFree' = .ok (.alreadyLinked plan.project)) ∧
    ∀ root requestedName existingYml isFree e,
      planLink (runProjects c reqs) root requestedName none existingYml isFree = .error e →
      e = .noName root ∨ (∃ name, e = .nameTaken name) ∨
        e = .core (.portRangeExhausted firstProjectPort lastProjectPort) ∧
          Exhausted (takenPorts (runProjects c reqs)) isFree := by
  have hstart : Registry c := by constructor <;> simp [hnone, takenPorts]
  have hregistry := hstart.run reqs
  refine ⟨hregistry, hregistry.validateProjects, fun req p hp => step_keeps req hp, ?_,
    fun root requestedName existingYml isFree e h => planLink_auto_error h⟩
  intro root requestedName requestedPort existingYml isFree plan h
  refine ⟨mem_step_of_planLink h, fun later isFree' hmem => ?_⟩
  exact planLink_again ((hregistry.step _).run later) h hmem requestedPort isFree'

/-- Linked from its directory's name, the project is found by the descriptor written for it. -/
theorem projects_stay_unique_shop :
    planLink { parkedConfig with projects := [shopProject] } (.ofStr "/work/shop".toList) none
      (some 20000) (some (newYml "shop")) (fun _ => false) = .ok (.alreadyLinked shopProject) := by
  have hplan : planLink parkedConfig (.ofStr "/work/shop".toList) none (some 20000) none
      (fun _ => true) = .ok (.link shopProject (some (newYml "shop"))) := by decide +kernel
  have hrelink := (projects_stay_unique parkedConfig rfl []).2.2.2.1 _ _ _ _ _ _ hplan
  have hstep : stepProjects parkedConfig (.linkProject (.ofStr "/work/shop".toList) none
      (some 20000) none fun _ => true) = { parkedConfig with projects := [shopProject] } := by
    rw [stepProjects, hplan]
    rfl
  exact hstep ▸ hrelink.2 [] (fun _ => false) hrelink.1

end Orcker.Daemon
