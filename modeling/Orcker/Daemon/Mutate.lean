import Orcker.Config.Schema
import Orcker.Core.Router

/-!
# Mutations of the configuration

Paths arrive resolved, and the router is the one built before the mutation.
-/

namespace Orcker.Daemon

open Base Orcker.Core Orcker.Schema

/-- The text of an error: words of its own, or words in front of a core error's. -/
inductive Message where
  | text (s : Str)
  | core (lead : Str) (e : CoreError)
  deriving DecidableEq

/-- Why a mutation is refused. -/
inductive MutateError where
  | notFound (m : Message)
  | alreadyExists (m : Message)
  | invalid (m : Message)
  deriving DecidableEq

/-- A one-line account of what changed. -/
structure Applied where
  summary : Str
  deriving DecidableEq

/-- A mutation is applied to a copy that is dropped when it fails, so a failure carries no
configuration. -/
abbrev Mutation := Except MutateError (Config × Applied)

/-- The requests that change the configuration, and the rest. -/
inductive Request where
  | park (path : Path)
  | link (path : Path) (name : Str)
  | unpark (path : Str)
  | unlink (name : Str)
  | setSecure (name : Str) (secure : Bool)
  | setFrontController (name : Str) (enabled : Bool)
  | addDomain (name domain : Str)
  | removeDomain (name domain : Str)
  | setPrimaryDomain (name domain : Str)
  | resetDomains (name : Str)
  | addProxy (name url : Str)
  | removeProxy (name : Str)
  | addProxyRule (site pathPrefix url : Str)
  | removeProxyRule (site pathPrefix : Str)
  | addRouteRule (site pathPrefix target : Str)
  | removeRouteRule (site pathPrefix : Str)
  | createGroup (name : Str)
  | deleteGroup (name : Str)
  | setGroupOrder (order : List Str)
  | setSiteGroup (site : Str) (group : Option Str)
  | renameGroup (old new : Str)
  | other

/-- The key of a parked site's entries: its document root as text. -/
def overrideKey (site : Site) : Str := site.documentRoot.toStringLossy

/-- The error of a command that applies to sites only; it says so when the name
is a proxy's. -/
def notFoundSite (cfg : Config) (nameLc : Str) : MutateError :=
  if cfg.proxies.any fun p => p.name.text = nameLc then
    .notFound (.text ("no site named " ++ nameLc ++ " (" ++ nameLc ++
      " is a proxy - this command applies only to sites)"))
  else .notFound (.text ("no site named " ++ nameLc))

/-! ## Parking and linking -/

/-- One more parked root. -/
def applyPark (cfg : Config) (canonical : Option Path) : Mutation :=
  match canonical with
  | none => .error (.invalid (.text "park requires a path"))
  | some path =>
    let stored := path.toStringLossy
    .ok ({ cfg with parked := ⟨cfg.parked.paths.insert stored⟩ },
      ⟨if stored ∈ cfg.parked.paths then "already parked " ++ stored
        else "parked " ++ stored⟩)

/-- Link a directory. What is stored for it as a parked site moves to the new
name. -/
def applyLink (cfg : Config) (name : Str) (canonical : Option Path) (defaultPhp : PhpVersion) :
    Mutation :=
  match canonical with
  | none => .error (.invalid (.text "link requires a path"))
  | some path =>
    match Site.linked name path defaultPhp with
    | .error e => .error (.invalid (.core "invalid site name: " e))
    | .ok site =>
      let nameLc := site.name.text
      if cfg.linked.any fun s => s.name.text = nameLc then
        .error (.alreadyExists (.text ("site already linked: " ++ nameLc)))
      else
        let key := overrideKey site
        let deltas := moveEntry cfg.domains.parked cfg.domains.linked key nameLc
        let proxyRules := moveEntry cfg.proxyRules.parked cfg.proxyRules.linked key nameLc
        let routeRules := moveEntry cfg.routeRules.parked cfg.routeRules.linked key nameLc
        .ok ({ cfg with
          domains := { cfg.domains with parked := deltas.1, linked := deltas.2 }
          proxyRules := ⟨proxyRules.2, proxyRules.1⟩
          routeRules := ⟨routeRules.2, routeRules.1⟩
          linked := cfg.linked ++ [site] }, ⟨"linked " ++ nameLc⟩)

/-- The text `docroot` is `root`, or continues it with a separator. -/
def isUnderRoot (docroot root : Str) : Bool :=
  docroot == root || (docroot.dropPrefix? root).any fun rest => rest.head? == some '/'

/-- Drop the entries of the document roots under `root`. -/
def retainOutside {β : Type} (root : Str) (m : StrMap β) : StrMap β :=
  m.filter fun docroot _ => !isUnderRoot docroot root

/-- Forget a parked root, and what is stored under it. -/
def applyUnpark (cfg : Config) (path : Str) : Config × Applied :=
  ({ cfg with
    parked := ⟨cfg.parked.paths.erase path⟩
    domains := { cfg.domains with parked := retainOutside path cfg.domains.parked }
    proxyRules := { cfg.proxyRules with parked := retainOutside path cfg.proxyRules.parked }
    routeRules := { cfg.routeRules with parked := retainOutside path cfg.routeRules.parked } },
    ⟨if path ∈ cfg.parked.paths then "un-parked " ++ path
      else path ++ " was not parked"⟩)

/-- The directory above `docroot` is a parked root. -/
def parentIsParkedRoot (cfg : Config) (docroot : Str) : Bool :=
  ((Path.ofStr docroot).parent.bind Path.toStr).any fun parent => parent ∈ cfg.parked.paths

/-- Take the entry of `name` out; it goes to the parked side when the directory
will be found there. -/
def demote {β : Type} (reparks : Bool) (linked parked : StrMap β) (name docroot : Str) :
    StrMap β × StrMap β :=
  if reparks then moveEntry linked parked name docroot else (linked.erase name, parked)

/-- A project goes; what is stored for a site may move back. -/
def applyUnlink (cfg : Config) (router : SiteRouter) (name : Str) : Mutation :=
  let nameLc := lower name
  match cfg.projects.find? fun p => p.name.text = nameLc with
  | some project =>
    .ok ({ cfg with
      projects := cfg.projects.filter fun p => p.name.text ≠ nameLc
      domains := { cfg.domains with proxy := cfg.domains.proxy.erase nameLc } },
      ⟨"unlinked project " ++ nameLc ++ " (freed port " ++ decimal project.port.toNat ++ ")"⟩)
  | none =>
    match cfg.linked.find? fun s => s.name.text = nameLc with
    | none =>
      if router.sites.contains nameLc then
        .error (.notFound (.text (nameLc ++
          " is a parked site, not linked — unpark its directory instead")))
      else .error (notFoundSite cfg nameLc)
    | some site =>
      let key := overrideKey site
      let reparks := parentIsParkedRoot cfg key
      let deltas := demote reparks cfg.domains.linked cfg.domains.parked nameLc key
      let proxyRules := demote reparks cfg.proxyRules.linked cfg.proxyRules.parked nameLc key
      let routeRules := demote reparks cfg.routeRules.linked cfg.routeRules.parked nameLc key
      .ok ({ cfg with
        linked := cfg.linked.filter fun s => s.name.text ≠ nameLc
        domains := { cfg.domains with linked := deltas.1, parked := deltas.2 }
        proxyRules := ⟨proxyRules.1, proxyRules.2⟩
        routeRules := ⟨routeRules.1, routeRules.2⟩ }, ⟨"unlinked " ++ nameLc⟩)

/-! ## Switches of one site -/

def showBool (b : Bool) : Str := if b then "true" else "false"

/-- Change what is pinned for a parked site, starting from nothing pinned. -/
def editOverride (cfg : Config) (key : Str) (f : SiteOverride → SiteOverride) : Config :=
  { cfg with overrides := cfg.overrides.insert key (f (cfg.overrides[key]?.getD .default)) }

/-- The first of: a linked site, a parked site, a proxy, a project of that name. -/
def applySetSecure (cfg : Config) (router : SiteRouter) (name : Str) (secure : Bool) : Mutation :=
  let nameLc := lower name
  let words := nameLc ++ " secure=" ++ showBool secure
  match updateFirst (fun s : Site => s.name.text = nameLc) (·.set (.secure secure)) cfg.linked with
  | some linked => .ok ({ cfg with linked }, ⟨words⟩)
  | none =>
    match router.sites[nameLc]? with
    | some parked =>
      .ok (editOverride cfg (overrideKey parked) fun ov => { ov with secure := some secure },
        ⟨words⟩)
    | none =>
      match updateFirst (fun p : ProxySite => p.name.text = nameLc) (·.setSecure secure)
          cfg.proxies with
      | some proxies => .ok ({ cfg with proxies }, ⟨"proxy " ++ words⟩)
      | none =>
        match updateFirst (fun p : ContainerProject => p.name.text = nameLc) (·.setSecure secure)
            cfg.projects with
        | some projects => .ok ({ cfg with projects }, ⟨"project " ++ words⟩)
        | none => .error (.notFound (.text ("no site named " ++ nameLc)))

def applySetFrontController (cfg : Config) (router : SiteRouter) (name : Str) (enabled : Bool) :
    Mutation :=
  let nameLc := lower name
  let applied : Applied := ⟨nameLc ++ " front_controller=" ++ showBool enabled⟩
  match updateFirst (fun s : Site => s.name.text = nameLc) (·.set (.frontController (some enabled)))
      cfg.linked with
  | some linked => .ok ({ cfg with linked }, applied)
  | none =>
    match router.sites[nameLc]? with
    | some parked =>
      .ok (editOverride cfg (overrideKey parked) fun ov => { ov with frontController := some enabled },
        applied)
    | none => .error (notFoundSite cfg nameLc)

/-! ## Proxies -/

/-- Refuse a target under the TLD: a request forwarded there would come back. -/
def rejectLoopTarget (cfg : Config) (target : UpstreamTarget) : Except MutateError Unit :=
  if target.host = cfg.tld.text ∨ ('.' :: cfg.tld.text).isSuffixOf target.host then
    .error (.invalid (.text ("proxy target must not be a ." ++ cfg.tld.text ++
      " host (routing loop)")))
  else .ok ()

/-- Parse a proxy target and refuse one that loops. -/
def parseTarget (cfg : Config) (url : Str) : Except MutateError UpstreamTarget := do
  let target ← (UpstreamTarget.fromUrlStr url).mapError fun e =>
    .invalid (.core "invalid proxy target: " e)
  rejectLoopTarget cfg target
  return target

/-- The name must be free and the target must not loop. -/
def applyAddProxy (cfg : Config) (router : SiteRouter) (name url : Str) : Mutation := do
  let target ← parseTarget cfg url
  let proxy ← (ProxySite.new name target).mapError fun e => .invalid (.core [] e)
  let nameLc := proxy.name.text
  if router.sites.contains nameLc || cfg.proxies.any fun p => p.name.text = nameLc then
    .error (.alreadyExists (.text ("a site or proxy named " ++ nameLc ++ " already exists")))
  let apex := Domain.apex proxy.name
  match router.domainOwner apex with
  | some owner =>
    .error (.alreadyExists (.text (apex.toFqdn cfg.tld.text ++ " already routes to " ++ owner)))
  | none =>
    return ({ cfg with proxies := cfg.proxies ++ [proxy] },
      ⟨"added proxy " ++ nameLc ++ " -> " ++ url⟩)

def applyRemoveProxy (cfg : Config) (name : Str) : Mutation :=
  let nameLc := lower name
  let proxies := cfg.proxies.filter fun p => p.name.text ≠ nameLc
  if proxies.length = cfg.proxies.length then
    .error (.notFound (.text ("no proxy named " ++ nameLc)))
  else
    .ok ({ cfg with
      proxies
      domains := { cfg.domains with proxy := cfg.domains.proxy.erase nameLc } },
      ⟨"removed proxy " ++ nameLc⟩)

/-! ## Path rules

Proxy rules and routing rules are kept and edited alike. A section keeps the
rules of linked sites under their names and those of parked sites under their
document roots. -/

/-- Where the rules of a site are kept: on the linked side or not, and under
which key. -/
def siteRuleKey (router : SiteRouter) (nameLc : Str) : Option (Bool × Str) :=
  (router.sites[nameLc]?).map fun site =>
    match site.kind with
    | .linked => (true, nameLc)
    | .parked => (false, overrideKey site)

section Rules

variable {α : Type} (pathPrefix : α → Str) (noun : Str)

/-- Append a rule, unless its prefix has one. -/
def pushRule (nameLc : Str) (rule : α) (rules : List α) : Except MutateError (List α) :=
  if rules.any fun r => pathPrefix r = pathPrefix rule then
    .error (.alreadyExists (.text ("site " ++ nameLc ++ " already has a " ++ noun ++
      " rule for " ++ pathPrefix rule)))
  else .ok (rules ++ [rule])

/-- Take out the rule of a prefix; the site's entry goes with its last rule. -/
def dropRule (nameLc wanted : Str) (rules : Option (List α)) :
    Except MutateError (Option (List α)) :=
  let missing : MutateError := .notFound (.text ("site " ++ nameLc ++ " has no " ++ noun ++
    " rule for " ++ wanted))
  match rules with
  | none => .error missing
  | some rules =>
    let kept := rules.filter fun r => pathPrefix r ≠ wanted
    if kept.length = rules.length then .error missing
    else .ok (if kept.isEmpty then none else some kept)

/-- Change the entry of a site in a section, given as its two maps. -/
def editRules (maps : StrMap (List α) × StrMap (List α)) (key : Bool × Str)
    (f : Option (List α) → Except MutateError (Option (List α))) :
    Except MutateError (StrMap (List α) × StrMap (List α)) :=
  if key.1 then do
    let rules ← f maps.1[key.2]?
    return (maps.1.put key.2 rules, maps.2)
  else do
    let rules ← f maps.2[key.2]?
    return (maps.1, maps.2.put key.2 rules)

end Rules

def findRuleKey (cfg : Config) (router : SiteRouter) (nameLc : Str) :
    Except MutateError (Bool × Str) :=
  match siteRuleKey router nameLc with
  | some key => .ok key
  | none => .error (notFoundSite cfg nameLc)

/-- One rule for each prefix of a site. -/
def applyAddProxyRule (cfg : Config) (router : SiteRouter) (site pathPrefix url : Str) :
    Mutation := do
  let nameLc := lower site
  let target ← parseTarget cfg url
  let rule ← (ProxyRule.new pathPrefix target).mapError fun e =>
    .invalid (.core "invalid rule prefix: " e)
  let key ← findRuleKey cfg router nameLc
  let maps ← editRules (cfg.proxyRules.linked, cfg.proxyRules.parked) key fun rules =>
    some <$> pushRule ProxyRule.pathPrefix "proxy" nameLc rule (rules.getD [])
  return ({ cfg with proxyRules := ⟨maps.1, maps.2⟩ },
    ⟨"added proxy rule " ++ nameLc ++ rule.pathPrefix ++ " -> " ++ url⟩)

def applyRemoveProxyRule (cfg : Config) (router : SiteRouter) (site pathPrefix : Str) :
    Mutation := do
  let nameLc := lower site
  let wanted := normalizePrefix pathPrefix
  let key ← findRuleKey cfg router nameLc
  let maps ← editRules (cfg.proxyRules.linked, cfg.proxyRules.parked) key
    (dropRule ProxyRule.pathPrefix "proxy" nameLc wanted)
  return ({ cfg with proxyRules := ⟨maps.1, maps.2⟩ },
    ⟨"removed proxy rule " ++ nameLc ++ wanted⟩)

def applyAddRouteRule (cfg : Config) (router : SiteRouter) (site pathPrefix target : Str) :
    Mutation := do
  let nameLc := lower site
  let rule ← (RouteRule.new pathPrefix target).mapError fun e =>
    .invalid (.core "invalid routing rule: " e)
  let key ← findRuleKey cfg router nameLc
  let maps ← editRules (cfg.routeRules.linked, cfg.routeRules.parked) key fun rules =>
    some <$> pushRule RouteRule.pathPrefix "routing" nameLc rule (rules.getD [])
  return ({ cfg with routeRules := ⟨maps.1, maps.2⟩ },
    ⟨"added route " ++ nameLc ++ rule.pathPrefix ++ " -> " ++ target⟩)

def applyRemoveRouteRule (cfg : Config) (router : SiteRouter) (site pathPrefix : Str) :
    Mutation := do
  let nameLc := lower site
  let wanted := normalizePrefix pathPrefix
  let key ← findRuleKey cfg router nameLc
  let maps ← editRules (cfg.routeRules.linked, cfg.routeRules.parked) key
    (dropRule RouteRule.pathPrefix "routing" nameLc wanted)
  return ({ cfg with routeRules := ⟨maps.1, maps.2⟩ },
    ⟨"removed route " ++ nameLc ++ wanted⟩)

/-! ## Domains -/

/-- The map a claimant's delta lives in, and its key there. -/
inductive DomainTarget where
  | linked (name : Str)
  | parked (key : Str)
  | proxy (name : Str)
  deriving DecidableEq

namespace DomainTarget

def get (domains : DomainsSection) : DomainTarget → Option DomainDelta
  | .linked name => domains.linked[name]?
  | .parked key => domains.parked[key]?
  | .proxy name => domains.proxy[name]?

def put (domains : DomainsSection) (delta : Option DomainDelta) : DomainTarget → DomainsSection
  | .linked name => { domains with linked := domains.linked.put name delta }
  | .parked key => { domains with parked := domains.parked.put key delta }
  | .proxy name => { domains with proxy := domains.proxy.put name delta }

end DomainTarget

/-- Where the delta of a claimant is stored, and the claimant's name as the name
of its apex: a linked site, then a parked one, then a proxy. -/
def resolveDomainTarget (cfg : Config) (router : SiteRouter) (nameLc : Str) :
    Except MutateError (DomainTarget × ProxyName) :=
  match cfg.linked.find? fun s => s.name.text = nameLc with
  | some site => .ok (.linked nameLc, site.name.toProxyName)
  | none =>
    match router.sites[nameLc]? with
    | some parked => .ok (.parked (overrideKey parked), parked.name.toProxyName)
    | none =>
      match cfg.proxies.find? fun p => p.name.text = nameLc with
      | some proxy => .ok (.proxy nameLc, proxy.name)
      | none => .error (.notFound (.text ("no site named " ++ nameLc)))

/-- No delta is one that changes nothing. -/
def deltaOf (cfg : Config) (target : DomainTarget) : DomainDelta :=
  (target.get cfg.domains).getD .default

/-- Store a delta; one that changes nothing leaves no entry. -/
def storeDelta (cfg : Config) (target : DomainTarget) (delta : DomainDelta) : Config :=
  { cfg with domains := target.put cfg.domains (if delta.isEmpty then none else some delta) }

def parseDomain (cfg : Config) (domain : Str) : Except MutateError Domain :=
  (Domain.parse domain cfg.tld.text).mapError fun e => .invalid (.core "invalid domain: " e)

/-- Refuse a domain that is routed to another claimant. -/
def rejectIfClaimedElsewhere (router : SiteRouter) (nameLc : Str) (dom : Domain) (tld : Str) :
    Except MutateError Unit :=
  match router.domainOwner dom with
  | some owner =>
    if owner ≠ nameLc then
      .error (.alreadyExists (.text (dom.toFqdn tld ++ " already routes to " ++ owner)))
    else .ok ()
  | none => .ok ()

/-- The exact domains a delta leaves, the apex included unless suppressed. -/
def exactCount (apex : Domain) (added suppressed : List Domain) : Nat :=
  (if apex ∈ suppressed then 0 else 1) + (added.filter fun d => !d.isWildcard).length

/-- The apex is only un-suppressed; any other domain is appended once. -/
def DomainDelta.add (apex dom : Domain) (delta : DomainDelta) : DomainDelta :=
  if dom = apex then { delta with suppressed := delta.suppressed.filter (· ≠ apex) }
  else if dom ∈ delta.added then delta
  else { delta with added := delta.added ++ [dom] }

/-- Refused if somebody else has the domain. -/
def applyAddDomain (cfg : Config) (router : SiteRouter) (name domain : Str) : Mutation := do
  let nameLc := lower name
  let (target, claimant) ← resolveDomainTarget cfg router nameLc
  let dom ← parseDomain cfg domain
  rejectIfClaimedElsewhere router nameLc dom cfg.tld.text
  let delta := DomainDelta.add (Domain.apex claimant) dom (deltaOf cfg target)
  return (storeDelta cfg target delta,
    ⟨"added " ++ dom.toFqdn cfg.tld.text ++ " to " ++ nameLc⟩)

/-- The lists without the domain: out of `added` if it is there, else the apex
is suppressed. -/
def DomainDelta.without (apex dom : Domain) (delta : DomainDelta) :
    Option (List Domain × List Domain) :=
  if dom ∈ delta.added then some (delta.added.filter (· ≠ dom), delta.suppressed)
  else if dom = apex then
    some (delta.added, if apex ∈ delta.suppressed then delta.suppressed
      else delta.suppressed ++ [apex])
  else none

/-- An added domain is dropped, the apex suppressed. -/
def applyRemoveDomain (cfg : Config) (router : SiteRouter) (name domain : Str) : Mutation := do
  let nameLc := lower name
  let (target, claimant) ← resolveDomainTarget cfg router nameLc
  let dom ← parseDomain cfg domain
  let apex := Domain.apex claimant
  let fqdn := dom.toFqdn cfg.tld.text
  let delta := deltaOf cfg target
  match DomainDelta.without apex dom delta with
  | none => .error (.invalid (.text (fqdn ++ " is not a domain of " ++ nameLc)))
  | some (added, suppressed) =>
    if exactCount apex added suppressed = 0 then
      .error (.invalid (.text (nameLc ++ " must keep at least one exact domain")))
    else
      let primary := if delta.primary = some dom then none else delta.primary
      return (storeDelta cfg target { added, suppressed, primary },
        ⟨"removed " ++ fqdn ++ " from " ++ nameLc⟩)

/-- The apex needs no stored primary; any other domain is added and recorded. -/
def DomainDelta.setPrimary (apex dom : Domain) (delta : DomainDelta) : DomainDelta :=
  { DomainDelta.add apex dom delta with primary := if dom = apex then none else some dom }

/-- A concrete domain that nobody else has. -/
def applySetPrimaryDomain (cfg : Config) (router : SiteRouter) (name domain : Str) : Mutation := do
  let nameLc := lower name
  let (target, claimant) ← resolveDomainTarget cfg router nameLc
  let dom ← parseDomain cfg domain
  if dom.isWildcard then
    .error (.invalid (.text "a primary domain must be exact, not a wildcard"))
  rejectIfClaimedElsewhere router nameLc dom cfg.tld.text
  let delta := DomainDelta.setPrimary (Domain.apex claimant) dom (deltaOf cfg target)
  return (storeDelta cfg target delta,
    ⟨nameLc ++ " primary domain is " ++ dom.toFqdn cfg.tld.text⟩)

/-- The delta goes. -/
def applyResetDomains (cfg : Config) (router : SiteRouter) (name : Str) : Mutation := do
  let nameLc := lower name
  let (target, _) ← resolveDomainTarget cfg router nameLc
  return ({ cfg with domains := target.put cfg.domains none },
    ⟨nameLc ++ " domains reset to default"⟩)

/-! ## Groups -/

/-- Group names are the same when they differ in ASCII case only. -/
def sameGroup (g h : Str) : Bool := lower g = lower h

/-- A new name for a group: trimmed, not empty, not the reserved one. -/
def checkGroupName (raw : Str) : Except MutateError Str :=
  let name := trim raw
  if name.isEmpty then .error (.invalid (.text "group name must not be empty"))
  else if sameGroup name reservedGroupName then
    .error (.invalid (.text ("\"" ++ reservedGroupName ++ "\" is a reserved group name")))
  else .ok name

def applyCreateGroup (cfg : Config) (raw : Str) : Mutation := do
  let name ← checkGroupName raw
  if cfg.groups.order.any fun g => sameGroup g name then
    .error (.alreadyExists (.text ("group already exists: " ++ name)))
  return ({ cfg with groups := { cfg.groups with order := cfg.groups.order ++ [name] } },
    ⟨"created group " ++ name⟩)

/-- Its members have no group then. -/
def applyDeleteGroup (cfg : Config) (name : Str) : Config × Applied :=
  ({ cfg with
    groups :=
      { order := cfg.groups.order.filter fun g => !sameGroup g name
        members := cfg.groups.members.filter fun _ g => !sameGroup g name } },
    ⟨if cfg.groups.order.any fun g => sameGroup g name then "deleted group " ++ name
      else name ++ " was not a group"⟩)

def sortNames (names : List Str) : List Str := names.mergeSort fun a b => (compare a b).isLE

/-- The groups there are, in another order. -/
def applySetGroupOrder (cfg : Config) (order : List Str) : Mutation :=
  if sortNames order ≠ sortNames cfg.groups.order then
    .error (.invalid (.text "group order must be a permutation of the existing groups"))
  else .ok ({ cfg with groups := { cfg.groups with order } }, ⟨"reordered groups"⟩)

def applySetSiteGroup (cfg : Config) (site : Str) (group : Option Str) : Mutation :=
  let siteLc := lower site
  match group with
  | none =>
    .ok ({ cfg with groups := { cfg.groups with members := cfg.groups.members.erase siteLc } },
      ⟨siteLc ++ " ungrouped"⟩)
  | some g =>
    match cfg.groups.order.find? fun existing => sameGroup existing g with
    | none => .error (.notFound (.text ("no group named " ++ g)))
    | some canonical =>
      .ok ({ cfg with
        groups := { cfg.groups with members := cfg.groups.members.insert siteLc canonical } },
        ⟨siteLc ++ " added to " ++ canonical⟩)

/-- A name taken by another group is refused; a change of case is not. -/
def applyRenameGroup (cfg : Config) (old raw : Str) : Mutation := do
  let name ← checkGroupName raw
  match cfg.groups.order.findIdx? fun g => sameGroup g old with
  | none => .error (.notFound (.text ("no group named " ++ old)))
  | some idx =>
    if (cfg.groups.order.eraseIdx idx).any fun g => sameGroup g name then
      .error (.alreadyExists (.text ("group already exists: " ++ name)))
    return ({ cfg with
      groups :=
        { order := cfg.groups.order.set idx name
          members := cfg.groups.members.map fun _ g => if sameGroup g old then name else g } },
      ⟨"renamed group " ++ old ++ " to " ++ name⟩)

/-- The handler of each request. -/
def apply (cfg : Config) (router : SiteRouter) (req : Request) (canonical : Option Path)
    (defaultPhp : PhpVersion) : Mutation :=
  match req with
  | .park _ => applyPark cfg canonical
  | .link _ name => applyLink cfg name canonical defaultPhp
  | .unpark path => .ok (applyUnpark cfg path)
  | .unlink name => applyUnlink cfg router name
  | .setSecure name secure => applySetSecure cfg router name secure
  | .setFrontController name enabled => applySetFrontController cfg router name enabled
  | .addDomain name domain => applyAddDomain cfg router name domain
  | .removeDomain name domain => applyRemoveDomain cfg router name domain
  | .setPrimaryDomain name domain => applySetPrimaryDomain cfg router name domain
  | .resetDomains name => applyResetDomains cfg router name
  | .addProxy name url => applyAddProxy cfg router name url
  | .removeProxy name => applyRemoveProxy cfg name
  | .addProxyRule site pathPrefix url => applyAddProxyRule cfg router site pathPrefix url
  | .removeProxyRule site pathPrefix => applyRemoveProxyRule cfg router site pathPrefix
  | .addRouteRule site pathPrefix target => applyAddRouteRule cfg router site pathPrefix target
  | .removeRouteRule site pathPrefix => applyRemoveRouteRule cfg router site pathPrefix
  | .createGroup name => applyCreateGroup cfg name
  | .deleteGroup name => .ok (applyDeleteGroup cfg name)
  | .setGroupOrder order => applySetGroupOrder cfg order
  | .setSiteGroup site group => applySetSiteGroup cfg site group
  | .renameGroup old new => applyRenameGroup cfg old new
  | .other => .error (.invalid (.text "unsupported request"))

end Orcker.Daemon
