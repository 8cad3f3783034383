import Orcker.Config.Schema
import Orcker.Core.Php

/-!
# Validation

The checks across fields that a configuration passes before it is saved and after it is loaded. What
a core type already carries is not checked again here.
-/

namespace Orcker.Schema

open Base Orcker.Core

/-- Walk a list whose keys must differ from each other and from those in `seen`.
`before` runs ahead of the key check of an element and `after` behind it. -/
def checkDistinct {α : Type} (before : α → Except ConfigError Unit) (key : α → Str)
    (duplicate : ValidateErrorReason) (after : α → Except ConfigError Unit) :
    StrSet → List α → Except ConfigError Unit
  | _, [] => .ok ()
  | seen, a :: l => do
    before a
    if key a ∈ seen then .error (.validate duplicate)
    after a
    checkDistinct before key duplicate after (seen.insert (key a)) l

/-- One check. -/
def refuseIf (condition : Bool) (reason : ValidateErrorReason) : Except ConfigError Unit :=
  if condition then .error (.validate reason) else .ok ()

def noCheck {α : Type} (_ : α) : Except ConfigError Unit := .ok ()

/-- No port is zero, the pairs differ, and fallback and setup ports are unprivileged. -/
def validatePorts (c : Config) : Except ConfigError Unit := do
  refuseIf (c.ports.http = 0) .httpPortZero
  refuseIf (c.ports.https = 0) .httpsPortZero
  refuseIf (c.ports.http = c.ports.https) .httpHttpsPortsEqual
  refuseIf (c.ports.fallbackHttp < firstUnprivilegedPort ||
    c.ports.fallbackHttps < firstUnprivilegedPort) .fallbackPortPrivileged
  refuseIf (c.ports.fallbackHttp = c.ports.fallbackHttps) .fallbackPortsEqual
  refuseIf (c.mail.port = 0) .mailPortZero
  refuseIf (c.dumps.port = 0) .dumpsPortZero
  refuseIf (c.lanSetupPort < firstUnprivilegedPort) .lanSetupPortPrivileged

def linkedNames (c : Config) : List Str := c.linked.map fun s => s.name.text

def validateUniqueLinked (c : Config) : Except ConfigError Unit :=
  checkDistinct noCheck id .duplicateLinkedSite noCheck ∅ (linkedNames c)

def validateNonemptyPaths (c : Config) : Except ConfigError Unit := do
  c.parked.paths.toList.forM fun p => refuseIf p.isEmpty .parkedPathEmpty
  c.overrides.keys.forM fun key => refuseIf key.isEmpty .overridePathEmpty

/-- A web root that could resolve outside its document root. -/
def webRootEscapes (p : Path) : Bool := !p.isSafeRelative

def validateWebRoots (c : Config) : Except ConfigError Unit := do
  c.linked.forM fun s => refuseIf (webRootEscapes s.webSubpath) .webRootEscapes
  (OrdMap.values c.overrides).forM fun ov =>
    refuseIf (ov.webRoot.any fun w => webRootEscapes (.ofStr w)) .webRootEscapes

def knownSingleServices : List Str := ["mysql", "mariadb", "meilisearch", "postgres", "redis"]

def knownPerSiteServices : List Str := ["reverb"]

/-- The type of a service, and its site. -/
def splitWireId (key : Str) : Str × Option Str :=
  match splitOnce ':' key with
  | some (ty, site) => (ty, some site)
  | none => (key, none)

def isValidSiteLabel (s : Str) : Bool :=
  !s.isEmpty && byteLen s ≤ 63 && s.head? != some '-' && s.getLast? != some '-' &&
    s.all isLabelChar

/-- The service is known, and has a site exactly if it needs one. -/
def validateService (key : Str) (inst : ServiceInstance) : Except ConfigError Unit := do
  let (ty, site) := splitWireId key
  if ty ∈ knownSingleServices then refuseIf site.isSome .unknownService
  else if ty ∈ knownPerSiteServices then refuseIf (!site.any isValidSiteLabel) .unknownService
  else .error (.validate .unknownService)
  -- The instance may leave its site unstated, but must not contradict its id.
  refuseIf (inst.site.isSome && inst.site != site) .unknownService

def validateKnownServices (c : Config) : Except ConfigError Unit :=
  c.services.instances.toList.forM fun e => validateService e.1 e.2

def validatePhpSettings (c : Config) : Except ConfigError Unit :=
  c.php.settings.toList.forM fun e =>
    refuseIf (PhpSettings.validateValue e.1 e.2 matches .error _) .invalidPhpSetting

def validatePhpExtensions (c : Config) : Except ConfigError Unit :=
  (OrdMap.values c.php.extensions).forM fun entries =>
    checkDistinct
      (fun e : ExtEntry => refuseIf (PhpExtensions.validateEntry e.name e.path e.zend matches
        .error _) .invalidPhpExtension)
      ExtEntry.name .duplicateExtensionName noCheck ∅ entries

def validateUpdateChannel (c : Config) : Except ConfigError Unit :=
  refuseIf (c.updateChannel ∉ updateChannels) .invalidUpdateChannel

/-- It can be the name of a file. -/
def isSafeKey (s : Str) : Bool :=
  !s.isEmpty && byteLen s ≤ 64 && s != ".".toList && s != "..".toList &&
    s.all fun c => c.isAlphanum || c == '-' || c == '_' || c == '.'

def isHostnameLabel (label : Str) : Bool :=
  !label.isEmpty && byteLen label ≤ 63 && label.head? != some '-' && label.getLast? != some '-' &&
    label.all fun c => c.isAlphanum || c == '-'

/-- Two labels at least. -/
def isPlausibleHostname (host : Str) : Bool :=
  !host.isEmpty && byteLen host ≤ 253 && (host.splitOn '.').all isHostnameLabel &&
    2 ≤ (host.splitOn '.').length

def validateTunnel (c : Config) : Except ConfigError Unit := do
  refuseIf (1 < c.tunnel.named.size) .tunnelMultipleNamed
  c.tunnel.named.toList.forM fun e => do
    refuseIf (e.1.isEmpty || e.2.isEmpty) .tunnelEntryEmpty
    refuseIf (!isSafeKey e.1 || !isSafeKey e.2) .tunnelKeyInvalid
  checkDistinct
    (fun e : Str × Str => do
      refuseIf (e.1.isEmpty || e.2.isEmpty) .tunnelEntryEmpty
      refuseIf (!isSafeKey e.1) .tunnelKeyInvalid
      refuseIf (!isPlausibleHostname e.2) .tunnelHostnameInvalid)
    Prod.snd .tunnelDuplicateHostname noCheck ∅ c.tunnel.sites.toList

/-- Group names are compared without regard to ASCII case. -/
def validateGroups (c : Config) : Except ConfigError Unit := do
  checkDistinct
    (fun name : Str => do
      refuseIf name.isEmpty .groupNameEmpty
      refuseIf (lower name = lower reservedGroupName) .groupNameReserved)
    lower .groupDuplicate noCheck ∅ c.groups.order
  (OrdMap.values c.groups.members).forM fun group =>
    refuseIf (lower group ∉ StrSet.collect (c.groups.order.map lower)) .groupMemberDangling

/-- No domain is added twice or also suppressed, and the primary is concrete. -/
def validateDelta (delta : DomainDelta) : Except ConfigError Unit := do
  checkDistinct noCheck Domain.sub .domainAddedDuplicate noCheck ∅ delta.added
  delta.suppressed.forM fun s =>
    refuseIf (s.sub ∈ StrSet.collect (delta.added.map Domain.sub)) .domainAddedSuppressedOverlap
  refuseIf (delta.primary.any Domain.isWildcard) .domainPrimaryWildcard

def validateDomains (c : Config) : Except ConfigError Unit :=
  (OrdMap.values c.domains.linked ++ OrdMap.values c.domains.parked ++
    OrdMap.values c.domains.proxy).forM validateDelta

/-- The target is a host under the TLD, so a forwarded request would come back. -/
def targetsLoop (tld : Tld) (t : UpstreamTarget) : Bool :=
  t.host == tld.text || ('.' :: tld.text).isSuffixOf t.host

/-- Prefixes differ and no target loops. -/
def validateRuleSet (tld : Tld) (rules : List ProxyRule) : Except ConfigError Unit :=
  checkDistinct noCheck ProxyRule.pathPrefix .proxyRuleDuplicatePrefix
    (fun r => refuseIf (targetsLoop tld r.target) .proxyTargetLoop) ∅ rules

def validateProxies (c : Config) : Except ConfigError Unit := do
  checkDistinct noCheck (fun p : ProxySite => p.name.text) .proxyNameCollision
    (fun p => refuseIf (targetsLoop c.tld p.target) .proxyTargetLoop)
    (StrSet.collect (linkedNames c)) c.proxies
  c.proxyRules.linked.toList.forM fun e => do
    refuseIf (e.1 ∉ StrSet.collect (linkedNames c)) .proxyRuleUnknownSite
    validateRuleSet c.tld e.2
  (OrdMap.values c.proxyRules.parked).forM (validateRuleSet c.tld)

def validateRouteRuleSet (rules : List RouteRule) : Except ConfigError Unit :=
  checkDistinct noCheck RouteRule.pathPrefix .routeRuleDuplicatePrefix noCheck ∅ rules

def validateRouteRules (c : Config) : Except ConfigError Unit := do
  c.routeRules.linked.toList.forM fun e => do
    refuseIf (e.1 ∉ StrSet.collect (linkedNames c)) .routeRuleUnknownSite
    validateRouteRuleSet e.2
  (OrdMap.values c.routeRules.parked).forM validateRouteRuleSet

/-- Names must be new among projects, linked sites and proxies; ports must be
non-zero and new among projects. -/
def validateProjectList : StrSet → List UInt16 → List ContainerProject → Except ConfigError Unit
  | _, _, [] => .ok ()
  | seenName, seenPort, p :: rest => do
    refuseIf (p.name.text ∈ seenName) .projectNameCollision
    refuseIf (p.port = 0) .projectPortZero
    refuseIf (p.port ∈ seenPort) .projectPortCollision
    validateProjectList (seenName.insert p.name.text) (p.port :: seenPort) rest

def validateProjects (c : Config) : Except ConfigError Unit :=
  validateProjectList
    (StrSet.collect (linkedNames c ++ c.proxies.map fun p => p.name.text)) [] c.projects

/-- All checks, in this order. -/
def validate (c : Config) : Except ConfigError Unit := do
  validatePorts c
  validateUniqueLinked c
  validateNonemptyPaths c
  validateWebRoots c
  validateKnownServices c
  validatePhpSettings c
  validatePhpExtensions c
  validateUpdateChannel c
  validateTunnel c
  validateGroups c
  validateDomains c
  validateProxies c
  validateProjects c
  validateRouteRules c

end Orcker.Schema
