import Orcker.Daemon.AddDomain
import Orcker.Daemon.Serial

/-!
# What a restart restores

The live config may hold deltas and rule lists that say nothing; the file leaves them out.
-/

namespace Orcker.Daemon

open Base Orcker.Core Orcker.Schema List

theorem planDomains_pruneDeltas (name : ProxyName) (deltas : StrMap DomainDelta) (key : Str) :
    planDomains name (pruneDeltas deltas)[key]? = planDomains name deltas[key]? := by
  have hdelta : (pruneDeltas deltas)[key]?.getD .default = deltas[key]?.getD .default := by
    rw [pruneDeltas, Std.ExtTreeMap.getElem?_filter']
    cases deltas[key]? with
    | none => rfl
    | some delta =>
      refine Eq.trans ?_ (getD_prune delta)
      cases h : delta.isEmpty <;> simp [Option.filter, h]
  rw [planDomains_eq, planDomains_eq, hdelta]

theorem planSites_pruned (cfg : Config) (sites : List Site) :
    planSites cfg.pruned sites = planSites cfg sites := by
  refine map_congr_left fun site _ => ?_
  have hdomains : planDomains site.name.toProxyName (deltaFor cfg.pruned site) =
      planDomains site.name.toProxyName (deltaFor cfg site) := by
    unfold deltaFor
    cases site.kind <;> exact planDomains_pruneDeltas _ _ _
  simp only [hdomains]

theorem planProxies_pruned (cfg : Config) (plans : List SitePlan) :
    planProxies cfg.pruned plans = planProxies cfg plans := by
  refine map_congr_left fun proxy _ => ?_
  simp only [Config.pruned, planDomains_pruneDeltas]

/-- Nothing is attached to the name yet. -/
def Unruled (b : Built) (name : Str) : Prop :=
  b.router.proxyRules[name]? = none ∧ b.router.routeRules[name]? = none

variable {b : Built} {site : Site} {name : Str}

theorem unruled_call (h : Unruled b name) (i : Insertion) : Unruled (b.call i.toOp) name := by
  rw [Built.call, Insertion.run_toOp, SiteRouter.insertClaimant]
  split_ifs
  · exact h
  · dsimp only
    cases i.won.find? fun d => (b.router.lookup d).isSome with
    | some => exact h
    | none => obtain ⟨_ | _, won, primary⟩ := i <;> exact h

theorem unruled_attachRules (h : Unruled b name) (hne : site.name.text ≠ name) (cfg : Config) :
    Unruled ((attachRules cfg site).foldl Built.call b) name := by
  refine foldlRecOn (motive := (Unruled · name)) _ _ h fun b hb op hop => ?_
  simp only [attachRules, mem_append, Option.mem_toList, Option.map_eq_some_iff] at hop
  rcases hop with ⟨rules, -, rfl⟩ | ⟨rules, -, rfl⟩ <;>
  · simp only [Built.call, RouterOp.run, SiteRouter.setProxyRules, SiteRouter.setRouteRules]
    split <;> simp [Unruled, OrdMap.getElem?_erase, OrdMap.getElem?_insert, hne.symm, hb.1, hb.2]

theorem rulesOf_pruneRules {α : Type} (linked parked : StrMap (List α)) (site : Site) :
    rulesOf (pruneRules linked) (pruneRules parked) site =
      (rulesOf linked parked site).filter (!·.isEmpty) := by
  unfold rulesOf
  cases site.kind <;> exact Std.ExtTreeMap.getElem?_filter'

/-- Attaching an empty rule list takes away what is not there. -/
theorem attachRules_pruned (h : Unruled b site.name.text) (cfg : Config) :
    (attachRules cfg.pruned site).foldl Built.call b =
      (attachRules cfg site).foldl Built.call b := by
  simp only [attachRules, Config.pruned, rulesOf_pruneRules]
  rcases rulesOf cfg.proxyRules.linked cfg.proxyRules.parked site with _ | _ | _ <;>
    rcases rulesOf cfg.routeRules.linked cfg.routeRules.parked site with _ | _ | _ <;>
    simp [Option.filter, Built.call, RouterOp.run, SiteRouter.setProxyRules,
      SiteRouter.setRouteRules, OrdMap.erase_of_getElem?_eq_none h.1,
      OrdMap.erase_of_getElem?_eq_none h.2]

theorem foldl_attachRules_pruned (cfg : Config) {plans : List SitePlan}
    (hnames : (plans.map fun p => p.site.name.text).Nodup)
    (hb : ∀ p ∈ plans, Unruled b p.site.name.text) :
    plans.foldl (fun b plan => (attachRules cfg.pruned plan.site).foldl Built.call b) b =
      plans.foldl (fun b plan => (attachRules cfg plan.site).foldl Built.call b) b := by
  induction plans generalizing b with
  | nil => rfl
  | cons p plans ih =>
    -- A name is planned once, so the rules of `p` are not those of a site behind it.
    rw [map_cons, nodup_cons, mem_map] at hnames
    rw [forall_mem_cons] at hb
    rw [foldl_cons, foldl_cons, attachRules_pruned hb.1]
    refine ih hnames.2 fun q hq => unruled_attachRules (hb.2 q hq) ?_ cfg
    exact fun heq => hnames.1 ⟨q, hq, heq.symm⟩

/-- Construction does not see what the file leaves out. -/
theorem build_pruned (cfg : Config) (sites : List Site) :
    build cfg.pruned sites = build cfg sites := by
  simp only [build, planSites_pruned, planProxies_pruned]
  refine foldl_attachRules_pruned cfg (nodup_planned cfg sites).1 fun p _ => ?_
  rw [foldl_insertions, foldl_map]
  exact foldlRecOn (motive := (Unruled · _)) _ _ ⟨rfl, rfl⟩ fun b hb i _ => unruled_call hb i

namespace Commit

theorem loadable_setLinkSubpath {cfg : Config} (h : cfg.Loadable) (req : Mutating)
    (subpath : Option Str) : (setLinkSubpath cfg req subpath).Loadable := by
  unfold setLinkSubpath
  split
  · refine { h with linked := fun s hs => ?_ }
    dsimp only at hs
    generalize hl : updateFirst _ _ cfg.linked = l at hs
    cases l with
    | none => exact h.linked s hs
    | some l =>
      rcases mem_of_updateFirst hl hs with hs | ⟨s₀, hs₀, -, rfl⟩
      · exact h.linked s hs
      · exact h.linked s₀ hs₀
  · exact h

theorem loadable_of_makes {w : Tasks Shared Task} {i : Nat} {taken : Live} {new : Config}
    {outcome : Outcome} (h : Makes w i taken new outcome) (htaken : taken.config.Loadable) :
    new.Loadable := by
  unfold Makes at h
  split at h
  · obtain ⟨req, input, canonical, subpath, cfg, -, hcfg, rfl⟩ := h
    refine loadable_setLinkSubpath ?_ req subpath
    unfold applyMutation at hcfg
    split at hcfg
    · split at hcfg
      · next hroot =>
        cases hcfg
        exact (Keeps.webRoot hroot).loadable htaken
      · cases hcfg
    · split at hcfg
      · next happly =>
        cases hcfg
        exact (Keeps.step (step_of_apply happly)).loadable htaken
      · cases hcfg
  · exact h ▸ { htaken with }
  · exact h ▸ htaken

/-- What the sections of the mutex leave can always be loaded again. -/
theorem loadable_of_serial {w : Tasks Shared Task}
    (hstart : w.shared.live.config.Loadable ∧ validate w.shared.live.config = .ok ())
    {ended : List Ended} {live : Live} (h : Serial w ended live) :
    live.config.Loadable ∧ validate live.config = .ok () := by
  induction ended generalizing live with
  | nil => exact h ▸ hstart
  | cons e earlier ih =>
    obtain ⟨-, ⟨hmakes, hvalid⟩, hserial⟩ := h
    obtain ⟨htaken, hvalid'⟩ := ih hserial
    refine ⟨loadable_of_makes hmakes htaken, hvalid.elim id fun heq => heq ▸ hvalid'⟩

/-- A daemon that goes down while nobody holds the mutex, in any interleaving of the tasks and after
any failures, comes back with the routing it had: once a save has succeeded the file loads, what was
live is a router of the loaded config, and a scan of any tree gives the loaded config the router,
the rules and the watched roots it gives the one that was live. -/
theorem restart_restores_routing {toml : TomlCrate} {boundPorts : List Nat}
    {w w' : Tasks Shared Task} {turns : List (Nat × Input)} (hstart : Starts w)
    (hreached : Reached toml w.shared.live.config)
    (hrun : w.run (move toml boundPorts) turns = some w') (hfree : w'.shared.holder = none)
    (hsaved : w'.shared.saved = true) (hpaths : w'.shared.live.config.PathsUtf8)
    (htoml : toml.Faithful w'.shared.live.config) :
    ∃ text cfg, w'.shared.live.file = some text ∧ Config.fromToml toml text = .ok cfg ∧
      Routed cfg w'.shared.live.router ∧
      ∀ world, buildRouting world cfg = buildRouting world w'.shared.live.config := by
  obtain ⟨hshared, hserial⟩ := (follows_run hstart hrun).1
  obtain ⟨hload, hvalid⟩ := loadable_of_serial hreached.loadable (hserial hfree)
  obtain ⟨text, htext, hback⟩ := fromToml_toToml hload hvalid hpaths htoml
  obtain ⟨hfile, world, sites, roots, hscan, hrouter⟩ := hshared.settled hfree
  obtain ⟨text', hfile, htext'⟩ := hfile hsaved
  obtain rfl := Except.ok.inj (htext.symm.trans htext')
  refine ⟨text, _, hfile, hback, ⟨world, sites, roots, hscan, ?_⟩, fun world => ?_⟩
  · rw [build_pruned]
    exact hrouter
  · show buildRouting world (Config.pruned _) = _
    unfold buildRouting
    simp only [build_pruned]
    rfl

theorem restart_restores_routing_park :
    ∃ w', parkAndUnlink.run (move twoTexts [80]) parkTurns = some w' ∧
      ∃ text cfg, w'.shared.live.file = some text ∧ Config.fromToml twoTexts text = .ok cfg ∧
        Routed cfg w'.shared.live.router ∧
        ∀ world, buildRouting world cfg = buildRouting world w'.shared.live.config := by
  have hends : ((parkAndUnlink.run (move twoTexts [80]) parkTurns).any fun w' => w'.shared.saved &&
      w'.shared.holder.isNone && w'.shared.live.config == parkedConfig) = true := by
    decide +kernel
  obtain ⟨w', hrun, hend⟩ := (Option.any_eq_true _ _).1 hends
  simp only [Bool.and_eq_true, beq_iff_eq, Option.isNone_iff_eq_none] at hend
  obtain ⟨⟨hsaved, hfree⟩, hconfig⟩ := hend
  refine ⟨w', hrun,
    restart_restores_routing starts_parkAndUnlink (.load load_firstEntry) hrun hfree hsaved ?_ ?_⟩
  · rw [hconfig]
    exact ⟨by rintro _ ⟨⟩, by rintro _ ⟨⟩⟩
  · rw [hconfig]
    intro v hv
    obtain rfl := Except.ok.inj (document_parkedConfig.symm.trans hv)
    exact ⟨parkedEntry.1, by decide +kernel, twoTexts_fromStr⟩

end Commit

end Orcker.Daemon
