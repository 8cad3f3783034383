import Orcker.Base.Toml
import Orcker.Core.Php

/-!
# The configuration

The on-disk settings as the daemon holds them in memory. Sections split by site
class key linked sites by name and parked sites by their document root's text.
-/

namespace Orcker.Schema

open Base Orcker.Core

/-- What the checks across fields refuse. -/
inductive ValidateErrorReason where
  | duplicateLinkedSite
  | httpHttpsPortsEqual
  | httpPortZero
  | httpsPortZero
  | mailPortZero
  | dumpsPortZero
  | unknownService
  | parkedPathEmpty
  | overridePathEmpty
  | invalidPhpSetting
  | webRootEscapes
  | invalidUpdateChannel
  | fallbackPortPrivileged
  | fallbackPortsEqual
  | lanSetupPortPrivileged
  | tunnelEntryEmpty
  | tunnelHostnameInvalid
  | tunnelKeyInvalid
  | tunnelMultipleNamed
  | tunnelDuplicateHostname
  | groupNameEmpty
  | groupNameReserved
  | groupDuplicate
  | groupMemberDangling
  | invalidPhpExtension
  | duplicateExtensionName
  | domainAddedDuplicate
  | domainAddedSuppressedOverlap
  | domainPrimaryWildcard
  | proxyNameCollision
  | proxyRuleDuplicatePrefix
  | proxyTargetLoop
  | proxyRuleUnknownSite
  | routeRuleDuplicatePrefix
  | routeRuleUnknownSite
  | projectNameCollision
  | projectPortCollision
  | projectPortZero
  deriving DecidableEq, Repr

/-- Why a document cannot be migrated. -/
inductive MigrationErrorReason where
  | missingVersion
  | nonIntegerVersion
  | missingStep (source : Nat)
  deriving DecidableEq, Repr

/-- Why a project descriptor is refused. Lines count from one. -/
inductive OrckerYmlErrorReason where
  | malformed (line : Nat)
  | missingKey (key : Str)
  | duplicateKey (key : Str)
  | unsupportedSchemaVersion (found : Nat)
  | invalidValue (key value : Str)
  deriving DecidableEq, Repr

/-- No document, or one of the wrong shape. -/
inductive ParseError where
  | document (message : Str)
  | shape (e : DeError)
  deriving DecidableEq, Repr

inductive SerializeError where
  /-- A path is not valid UTF-8, so it has no text form. -/
  | nonUtf8Path
  | printer (message : Str)
  deriving DecidableEq, Repr

/-- Why a configuration is not loaded, saved or accepted. -/
inductive ConfigError where
  | parse (e : ParseError)
  | serialize (e : SerializeError)
  | validate (reason : ValidateErrorReason)
  | core (e : CoreError)
  | unsupportedVersion (found current : Nat)
  | migration (reason : MigrationErrorReason)
  | orckerYml (reason : OrckerYmlErrorReason)
  deriving DecidableEq, Repr

def fromCore {α : Type} (x : Except CoreError α) : Except ConfigError α := x.mapError .core

@[simp] theorem fromCore_ok {α : Type} (a : α) : fromCore (.ok a) = .ok a := rfl

theorem fromCore_eq_ok_iff {α : Type} {x : Except CoreError α} {a : α} :
    fromCore x = .ok a ↔ x = .ok a := mapError_eq_ok_iff

def currentVersion : Nat := 24

/-- Listen ports and their unprivileged fallbacks. -/
structure Ports where
  http : UInt16
  https : UInt16
  fallbackHttp : UInt16
  fallbackHttps : UInt16
  deriving DecidableEq

def Ports.wellKnown : Ports := ⟨80, 443, 8080, 8443⟩

def defaultDnsPort : UInt16 := 1053

def defaultUpdateChannel : Str := "stable"

def updateChannels : List Str := ["stable", "edge"]

def defaultSymlinkProtection : Bool := true

def defaultMcpEnabled : Bool := false

def defaultLanEnabled : Bool := false

def defaultLanSetupPort : UInt16 := 7073

/-- The lowest port that can be bound without elevation. -/
def firstUnprivilegedPort : UInt16 := 1024

def defaultMailPort : UInt16 := 2525

def defaultDumpPort : UInt16 := 2304

/-- The name of the bucket that ungrouped sites are shown in. -/
def reservedGroupName : Str := "Unallocated"

/-- An extension to load. -/
structure ExtEntry where
  name : Str
  path : Str
  zend : Bool
  deriving DecidableEq

/-- The default PHP version, and what is set for all versions and for each. -/
structure PhpSection where
  default : PhpVersion
  settings : StrMap Str
  extensions : OrdMap PhpVersion (List ExtEntry)
  versionSettings : OrdMap PhpVersion (StrMap Str)
  directives : OrdMap PhpVersion (StrMap Str)
  deriving DecidableEq

def defaultPhp : PhpVersion := ⟨8, 3⟩

/-- The parked roots. -/
structure ParkedSection where
  paths : Std.ExtTreeSet Str compare
  deriving DecidableEq

/-- Settings of a parked site that its directory alone cannot carry. -/
structure SiteOverride where
  php : Option PhpVersion
  secure : Option Bool
  webRoot : Option Str
  wpAutoLogin : Option Bool
  wpAutoLoginUser : Option Str
  frontController : Option Bool
  deriving DecidableEq

def SiteOverride.default : SiteOverride := ⟨none, none, none, none, none, none⟩

/-- A service, or the one of a site. -/
structure ServiceInstance where
  version : Option Str
  port : Option UInt16
  site : Option Str
  enabled : Bool
  overrides : StrMap Str
  deriving DecidableEq

structure ServicesSection where
  instances : StrMap ServiceInstance
  deriving DecidableEq

structure MailSection where
  enabled : Bool
  port : UInt16
  deriving DecidableEq

def MailSection.default : MailSection := ⟨true, defaultMailPort⟩

structure DumpsSection where
  enabled : Bool
  port : UInt16
  persist : Bool
  features : StrMap Bool
  deriving DecidableEq

def DumpsSection.default : DumpsSection := ⟨false, defaultDumpPort, false, ∅⟩

/-- Named tunnels and the host names of sites. -/
structure TunnelSection where
  named : StrMap Str
  sites : StrMap Str
  deriving DecidableEq

def TunnelSection.default : TunnelSection := ⟨∅, ∅⟩

/-- The groups in order, and the group of each site. -/
structure GroupsSection where
  order : List Str
  members : StrMap Str
  deriving DecidableEq

def GroupsSection.isEmpty (g : GroupsSection) : Bool := g.order.isEmpty && g.members.isEmpty

/-- A site's changes to its default domain set. -/
structure DomainDelta where
  added : List Domain
  suppressed : List Domain
  primary : Option Domain
  deriving DecidableEq

def DomainDelta.default : DomainDelta := ⟨[], [], none⟩

/-- It changes nothing. -/
def DomainDelta.isEmpty (d : DomainDelta) : Bool :=
  d.added.isEmpty && d.suppressed.isEmpty && d.primary.isNone

structure DomainsSection where
  linked : StrMap DomainDelta
  parked : StrMap DomainDelta
  proxy : StrMap DomainDelta
  deriving DecidableEq

structure ProxyRulesSection where
  linked : StrMap (List ProxyRule)
  parked : StrMap (List ProxyRule)
  deriving DecidableEq

structure RouteRulesSection where
  linked : StrMap (List RouteRule)
  parked : StrMap (List RouteRule)
  deriving DecidableEq

/-- All settings. -/
structure Config where
  version : Nat
  tld : Tld
  dnsPort : UInt16
  updateChannel : Str
  symlinkProtection : Bool
  mcpEnabled : Bool
  lanEnabled : Bool
  lanSetupPort : UInt16
  ports : Ports
  php : PhpSection
  parked : ParkedSection
  linked : List Site
  projects : List ContainerProject
  overrides : StrMap SiteOverride
  services : ServicesSection
  mail : MailSection
  dumps : DumpsSection
  tunnel : TunnelSection
  groups : GroupsSection
  domains : DomainsSection
  proxies : List ProxySite
  proxyRules : ProxyRulesSection
  routeRules : RouteRulesSection
  deriving DecidableEq

def Config.default : Config where
  version := currentVersion
  tld := Inhabited.default
  dnsPort := defaultDnsPort
  updateChannel := defaultUpdateChannel
  symlinkProtection := defaultSymlinkProtection
  mcpEnabled := defaultMcpEnabled
  lanEnabled := defaultLanEnabled
  lanSetupPort := defaultLanSetupPort
  ports := .wellKnown
  php := ⟨defaultPhp, .collect PhpSettings.defaultSettings, ∅, ∅, ∅⟩
  parked := ⟨∅⟩
  linked := []
  projects := []
  overrides := ∅
  services := ⟨∅⟩
  mail := .default
  dumps := .default
  tunnel := .default
  groups := ⟨[], ∅⟩
  domains := ⟨∅, ∅, ∅⟩
  proxies := []
  proxyRules := ⟨∅, ∅⟩
  routeRules := ⟨∅, ∅⟩

end Orcker.Schema
