import Orcker.Base.Claim
import Orcker.Config.Schema
import Orcker.Core.RouterInvariant

/-!
# Building the router from the configuration

Sites and proxies form one claimant sequence. The arms that log a failed insert and drop the
claimant are kept: `Built.dropped` records them.
-/

namespace Orcker.Daemon

open Base Orcker.Core Orcker.Schema

/-- A site with the domains it wants. -/
structure SitePlan where
  site : Site
  effective : List Domain
  primary : Domain

/-- A whole-host proxy with its effective domain set and chosen primary;
`shadowed` when a planned site already answers to its name. -/
structure ProxyPlan where
  proxy : ProxySite
  effective : List Domain
  primary : Domain
  shadowed : Bool

/-- The effective set and primary that a stored delta gives a claimant. -/
def planDomains (name : ProxyName) (delta : Option DomainDelta) : List Domain × Domain :=
  let (added, suppressed, storedPrimary) :=
    match delta with
    | some d => (d.added, d.suppressed, d.primary)
    | none => ([], [], none)
  let effective := effectiveDomains name added suppressed
  (effective, choosePrimary name effective storedPrimary)

/-- The stored delta of a site: linked sites key by name, parked by document root. -/
def deltaFor (cfg : Config) (site : Site) : Option DomainDelta :=
  match site.kind with
  | .linked => cfg.domains.linked[site.name.text]?
  | .parked => cfg.domains.parked[site.documentRoot.toStringLossy]?

/-- The first site of each name. -/
def planSites (cfg : Config) (sites : List Site) : List SitePlan :=
  (keepFirst (fun s => s.name.text) [] sites).map fun site =>
    let (effective, primary) := planDomains site.name.toProxyName (deltaFor cfg site)
    { site, effective, primary }

/-- The proxies contributed by container projects; one that cannot be built is dropped. -/
def projectProxies (projects : List ContainerProject) : List ProxySite :=
  projects.filterMap fun p => p.proxySite.toOption

/-- A proxy with a site's name is shadowed. -/
def planProxies (cfg : Config) (sitePlans : List SitePlan) : List ProxyPlan :=
  let siteNames := sitePlans.map fun p => p.site.name.text
  (keepFirst (fun p => p.name.text) [] (cfg.proxies ++ projectProxies cfg.projects)).map fun proxy =>
    let (effective, primary) := planDomains proxy.name cfg.domains.proxy[proxy.name.text]?
    { proxy, effective, primary, shadowed := proxy.name.text ∈ siteNames }

/-- A site or a proxy, as a claimant of domains. -/
structure Claimant where
  label : Str
  apex : Domain
  effective : List Domain
  eligible : Bool

def SitePlan.claimant (p : SitePlan) : Claimant where
  label := p.site.name.text
  apex := Domain.apex p.site.name.toProxyName
  effective := p.effective
  eligible := true

def ProxyPlan.claimant (p : ProxyPlan) : Claimant where
  label := "proxy:".toList ++ p.proxy.name.text
  apex := Domain.apex p.proxy.name
  effective := p.effective
  eligible := !p.shadowed

def claimants (sitePlans : List SitePlan) (proxyPlans : List ProxyPlan) : List Claimant :=
  sitePlans.map SitePlan.claimant ++ proxyPlans.map ProxyPlan.claimant

/-- Enter the claims of one claimant; a name-shadowed one makes none. -/
def placeClaims (claims : StrMap Claim) (claimant : Claimant) (idx : Nat) : StrMap Claim :=
  if !claimant.eligible then claims
  else
    claimant.effective.foldl (fun claims (d : Domain) =>
      place claims (d.sub, { idx, explicit := d ≠ claimant.apex })) claims

/-- Who gets each domain: explicit claims first, then first come. -/
def buildClaims (claimants : List Claimant) : StrMap Nat :=
  let claims := claimants.zipIdx.foldl (fun claims p => placeClaims claims p.1 p.2) ∅
  claims.map fun _ c => c.idx

/-- The router under construction, and the errors of the inserts that failed. -/
structure Built where
  router : SiteRouter
  dropped : List CoreError

/-- Make a call; a failure is logged and the rest goes on. -/
def Built.call (b : Built) (op : RouterOp) : Built :=
  match op.run b.router with
  | (.ok (), router) => { b with router }
  | (.error e, router) => { router, dropped := b.dropped ++ [e] }

/-- The subset of an effective set that claimant `idx` won. -/
def wonBy (claims : StrMap Nat) (idx : Nat) (effective : List Domain) : List Domain :=
  effective.filter fun d => claims[d.sub]? = some idx

/-- The site, with what it won. -/
def insertSite (claims : StrMap Nat) (plan : SitePlan) (idx : Nat) : RouterOp :=
  let won := wonBy claims idx plan.effective
  .insertWithDomains plan.site won (choosePrimary plan.site.name.toProxyName won plan.primary)

def insertProxy (claims : StrMap Nat) (plan : ProxyPlan) (idx : Nat) : RouterOp :=
  let won := wonBy claims idx plan.effective
  .insertProxyWithDomains plan.proxy won (choosePrimary plan.proxy.name won plan.primary)

/-- The rule list of a site in a section split by class. -/
def rulesOf {α : Type} (linked parked : StrMap α) (site : Site) : Option α :=
  match site.kind with
  | .linked => linked[site.name.text]?
  | .parked => parked[site.documentRoot.toStringLossy]?

/-- The calls that attach a site's configured path rules. -/
def attachRules (cfg : Config) (site : Site) : List RouterOp :=
  ((rulesOf cfg.proxyRules.linked cfg.proxyRules.parked site).map
      (RouterOp.setProxyRules site.name.text)).toList ++
    ((rulesOf cfg.routeRules.linked cfg.routeRules.parked site).map
      (RouterOp.setRouteRules site.name.text)).toList

/-- The router is fed what each claimant won. -/
def build (cfg : Config) (sites : List Site) : Built :=
  let plans := planSites cfg sites
  let proxyPlans := planProxies cfg plans
  let claims := buildClaims (claimants plans proxyPlans)
  let b : Built := { router := SiteRouter.new (.withTld cfg.tld), dropped := [] }
  let b := plans.zipIdx.foldl (fun b p => b.call (insertSite claims p.1 p.2)) b
  let b := (proxyPlans.zipIdx plans.length).foldl (fun b p =>
    if p.1.shadowed then b else b.call (insertProxy claims p.1 p.2)) b
  plans.foldl (fun b plan => (attachRules cfg plan.site).foldl Built.call b) b

/-- Who got a domain and who did not. -/
structure DomainCollision where
  winner : Str
  losers : List Str
  deriving DecidableEq

/-- Domain text to the indices of the claimants that want it, in order. -/
def wantedBy (claimants : List Claimant) : StrMap (List Nat) :=
  claimants.zipIdx.foldl (fun wanted p =>
    p.1.effective.foldl (fun wanted (d : Domain) => push wanted (d.sub, p.2)) wanted) ∅

/-- The report on one domain, if it is contested. -/
def collisionOf (claimants : List Claimant) (claims : StrMap Nat) (domain : Str)
    (idxs : List Nat) : Option DomainCollision :=
  if idxs.length < 2 then none
  else
    match claims[domain]? with
    | none => none
    | some winnerIdx =>
      match claimants[winnerIdx]? with
      | none => none
      | some winner =>
        let losers := (idxs.filter (· ≠ winnerIdx)).filterMap fun i =>
          claimants[i]?.map (·.label)
        if losers.isEmpty then none else some { winner := winner.label, losers }

/-- Ownership recomputed from the plans, without a router. -/
def collisions (cfg : Config) (sites : List Site) : List DomainCollision :=
  let plans := planSites cfg sites
  let proxyPlans := planProxies cfg plans
  let claimants := claimants plans proxyPlans
  let claims := buildClaims claimants
  (wantedBy claimants).toList.filterMap fun (domain, idxs) =>
    collisionOf claimants claims domain idxs

end Orcker.Daemon
