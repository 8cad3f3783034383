import Orcker.Config.Schema
import Orcker.Core.Php

/-!
# The configuration file's shape

One record per table of the file, with raw field types. Each record refuses keys it does not know,
and most fields have a default, so that files written before a field existed still load.
-/

namespace Orcker.Schema

open Base Orcker.Core Toml

structure ProjectWire where
  name : Str
  root : Path
  port : UInt16
  secure : Bool

def ProjectWire.decode : Decoder ProjectWire := fun v => do
  let t ← fields ["name", "root", "port", "secure"] v
  let name ← required t "name" Decoder.string
  let root ← required t "root" Decoder.path
  let port ← required t "port" Decoder.u16
  let secure ← defaulted t "secure" Decoder.boolean false
  return { name, root, port, secure }

structure ProxyWire where
  name : Str
  target : Str
  secure : Bool

def ProxyWire.decode : Decoder ProxyWire := fun v => do
  let t ← fields ["name", "target", "secure"] v
  let name ← required t "name" Decoder.string
  let target ← required t "target" Decoder.string
  let secure ← defaulted t "secure" Decoder.boolean false
  return { name, target, secure }

/-- A rule of either kind: a path prefix and where it leads. -/
structure RuleWire where
  pathPrefix : Str
  target : Str

/-- Proxy rules and route rules look alike. -/
def RuleWire.decode : Decoder RuleWire := fun v => do
  let t ← fields ["prefix", "target"] v
  let pathPrefix ← required t "prefix" Decoder.string
  let target ← required t "target" Decoder.string
  return { pathPrefix, target }

structure RulesSectionWire where
  linked : StrMap (List RuleWire)
  parked : StrMap (List RuleWire)

def RulesSectionWire.default : RulesSectionWire := ⟨∅, ∅⟩

def RulesSectionWire.decode : Decoder RulesSectionWire := fun v => do
  let t ← fields ["linked", "parked"] v
  let linked ← defaulted t "linked" (Decoder.map (Decoder.vec RuleWire.decode)) ∅
  let parked ← defaulted t "parked" (Decoder.map (Decoder.vec RuleWire.decode)) ∅
  return { linked, parked }

abbrev ProxyRuleWire := RuleWire

abbrev RouteRuleWire := RuleWire

abbrev ProxyRulesSectionWire := RulesSectionWire

abbrev RouteRulesSectionWire := RulesSectionWire

structure DomainDeltaWire where
  added : List Str
  suppressed : List Str
  primary : Option Str

def DomainDeltaWire.decode : Decoder DomainDeltaWire := fun v => do
  let t ← fields ["added", "suppressed", "primary"] v
  let added ← defaulted t "added" (Decoder.vec Decoder.string) []
  let suppressed ← defaulted t "suppressed" (Decoder.vec Decoder.string) []
  let primary ← optional t "primary" Decoder.string
  return { added, suppressed, primary }

structure DomainsSectionWire where
  linked : StrMap DomainDeltaWire
  parked : StrMap DomainDeltaWire
  proxy : StrMap DomainDeltaWire

def DomainsSectionWire.default : DomainsSectionWire := ⟨∅, ∅, ∅⟩

def DomainsSectionWire.decode : Decoder DomainsSectionWire := fun v => do
  let t ← fields ["linked", "parked", "proxy"] v
  let linked ← defaulted t "linked" (Decoder.map DomainDeltaWire.decode) ∅
  let parked ← defaulted t "parked" (Decoder.map DomainDeltaWire.decode) ∅
  let proxy ← defaulted t "proxy" (Decoder.map DomainDeltaWire.decode) ∅
  return { linked, parked, proxy }

structure GroupsSectionWire where
  order : List Str
  members : StrMap Str

def GroupsSectionWire.default : GroupsSectionWire := ⟨[], ∅⟩

def GroupsSectionWire.decode : Decoder GroupsSectionWire := fun v => do
  let t ← fields ["order", "members"] v
  let order ← defaulted t "order" (Decoder.vec Decoder.string) []
  let members ← defaulted t "members" (Decoder.map Decoder.string) ∅
  return { order, members }

structure TunnelSectionWire where
  named : StrMap Str
  sites : StrMap Str

def TunnelSectionWire.default : TunnelSectionWire := ⟨∅, ∅⟩

def TunnelSectionWire.decode : Decoder TunnelSectionWire := fun v => do
  let t ← fields ["named", "sites"] v
  let named ← defaulted t "named" (Decoder.map Decoder.string) ∅
  let sites ← defaulted t "sites" (Decoder.map Decoder.string) ∅
  return { named, sites }

structure DumpsSectionWire where
  enabled : Bool
  port : UInt16
  persist : Bool
  features : StrMap Bool

def DumpsSectionWire.default : DumpsSectionWire := ⟨false, defaultDumpPort, false, ∅⟩

def DumpsSectionWire.decode : Decoder DumpsSectionWire := fun v => do
  let t ← fields ["enabled", "port", "persist", "features"] v
  let enabled ← defaulted t "enabled" Decoder.boolean false
  let port ← defaulted t "port" Decoder.u16 defaultDumpPort
  let persist ← defaulted t "persist" Decoder.boolean false
  let features ← defaulted t "features" (Decoder.map Decoder.boolean) ∅
  return { enabled, port, persist, features }

structure PortsWire where
  http : UInt16
  https : UInt16
  fallbackHttp : UInt16
  fallbackHttps : UInt16

def PortsWire.default : PortsWire :=
  let p := Ports.wellKnown
  ⟨p.http, p.https, p.fallbackHttp, p.fallbackHttps⟩

def PortsWire.decode : Decoder PortsWire := fun v => do
  let t ← fields ["http", "https", "fallback_http", "fallback_https"] v
  let http ← required t "http" Decoder.u16
  let https ← required t "https" Decoder.u16
  let fallbackHttp ← defaulted t "fallback_http" Decoder.u16 Ports.wellKnown.fallbackHttp
  let fallbackHttps ← defaulted t "fallback_https" Decoder.u16 Ports.wellKnown.fallbackHttps
  return { http, https, fallbackHttp, fallbackHttps }

structure ExtEntryWire where
  name : Option Str
  path : Str
  zend : Bool

def ExtEntryWire.decode : Decoder ExtEntryWire := fun v => do
  let t ← fields ["name", "path", "zend"] v
  let name ← optional t "name" Decoder.string
  let path ← required t "path" Decoder.string
  let zend ← defaulted t "zend" Decoder.boolean false
  return { name, path, zend }

/-- The retired `pool` table is accepted with any content and not looked at. -/
structure PhpSectionWire where
  default : Str
  settings : StrMap Str
  extensions : StrMap (List ExtEntryWire)
  versionSettings : StrMap (StrMap Str)
  directives : StrMap (StrMap Str)
  pool : Option Toml

/-- A file without the section. -/
def PhpSectionWire.absent : PhpSectionWire := ⟨defaultPhp.display, ∅, ∅, ∅, ∅, none⟩

def PhpSectionWire.decode : Decoder PhpSectionWire := fun v => do
  let t ← fields ["default", "settings", "extensions", "version_settings", "directives", "pool"] v
  let default ← required t "default" Decoder.string
  let settings ← defaulted t "settings" (Decoder.map Decoder.string) ∅
  let extensions ← defaulted t "extensions" (Decoder.map (Decoder.vec ExtEntryWire.decode)) ∅
  let versionSettings ←
    defaulted t "version_settings" (Decoder.map (Decoder.map Decoder.string)) ∅
  let directives ← defaulted t "directives" (Decoder.map (Decoder.map Decoder.string)) ∅
  let pool ← optional t "pool" Decoder.any
  return { default, settings, extensions, versionSettings, directives, pool }

structure ParkedSectionWire where
  paths : StrSet

def ParkedSectionWire.default : ParkedSectionWire := ⟨∅⟩

def ParkedSectionWire.decode : Decoder ParkedSectionWire := fun v => do
  let t ← fields ["paths"] v
  let paths ← defaulted t "paths" Decoder.set ∅
  return { paths }

structure ServiceInstanceWire where
  version : Option Str
  port : Option UInt16
  site : Option Str
  enabled : Option Bool
  overrides : StrMap Str

def ServiceInstanceWire.decode : Decoder ServiceInstanceWire := fun v => do
  let t ← fields ["version", "port", "site", "enabled", "overrides"] v
  let version ← optional t "version" Decoder.string
  let port ← optional t "port" Decoder.u16
  let site ← optional t "site" Decoder.string
  let enabled ← optional t "enabled" Decoder.boolean
  let overrides ← defaulted t "overrides" (Decoder.map Decoder.string) ∅
  return { version, port, site, enabled, overrides }

structure MailSectionWire where
  enabled : Bool
  port : UInt16

def MailSectionWire.default : MailSectionWire :=
  ⟨MailSection.default.enabled, MailSection.default.port⟩

def MailSectionWire.decode : Decoder MailSectionWire := fun v => do
  let t ← fields ["enabled", "port"] v
  let enabled ← defaulted t "enabled" Decoder.boolean MailSection.default.enabled
  let port ← defaulted t "port" Decoder.u16 MailSection.default.port
  return { enabled, port }

/-- The names a site's kind has in the file. -/
def siteKinds : List (Str × SiteKind) := [("parked", .parked), ("linked", .linked)]

structure SiteWire where
  name : Str
  documentRoot : Path
  webSubpath : Path
  php : Str
  secure : Bool
  kind : SiteKind
  wpAutoLogin : Bool
  wpAutoLoginUser : Option Str
  frontController : Option Bool

def SiteWire.decode : Decoder SiteWire := fun v => do
  let t ← fields ["name", "document_root", "web_subpath", "php", "secure", "kind",
    "wp_auto_login", "wp_auto_login_user", "front_controller"] v
  let name ← required t "name" Decoder.string
  let documentRoot ← required t "document_root" Decoder.path
  let webSubpath ← defaulted t "web_subpath" Decoder.path ⟨[]⟩
  let php ← required t "php" Decoder.string
  let secure ← required t "secure" Decoder.boolean
  let kind ← required t "kind" (Decoder.unitVariant siteKinds)
  let wpAutoLogin ← defaulted t "wp_auto_login" Decoder.boolean false
  let wpAutoLoginUser ← optional t "wp_auto_login_user" Decoder.string
  let frontController ← optional t "front_controller" Decoder.boolean
  return { name, documentRoot, webSubpath, php, secure, kind, wpAutoLogin, wpAutoLoginUser,
           frontController }

structure OverrideWire where
  path : Str
  php : Option Str
  secure : Option Bool
  webRoot : Option Str
  wpAutoLogin : Option Bool
  wpAutoLoginUser : Option Str
  frontController : Option Bool

def OverrideWire.decode : Decoder OverrideWire := fun v => do
  let t ← fields ["path", "php", "secure", "web_root", "wp_auto_login", "wp_auto_login_user",
    "front_controller"] v
  let path ← required t "path" Decoder.string
  let php ← optional t "php" Decoder.string
  let secure ← optional t "secure" Decoder.boolean
  let webRoot ← optional t "web_root" Decoder.string
  let wpAutoLogin ← optional t "wp_auto_login" Decoder.boolean
  let wpAutoLoginUser ← optional t "wp_auto_login_user" Decoder.string
  let frontController ← optional t "front_controller" Decoder.boolean
  return { path, php, secure, webRoot, wpAutoLogin, wpAutoLoginUser, frontController }

/-- The whole file. -/
structure Wire where
  version : Nat
  tld : Str
  dnsPort : UInt16
  updateChannel : Str
  symlinkProtection : Bool
  mcpEnabled : Bool
  lanEnabled : Bool
  lanSetupPort : UInt16
  ports : PortsWire
  php : PhpSectionWire
  parked : ParkedSectionWire
  linked : List SiteWire
  overrides : List OverrideWire
  services : StrMap ServiceInstanceWire
  mail : MailSectionWire
  dumps : DumpsSectionWire
  tunnel : TunnelSectionWire
  groups : GroupsSectionWire
  domains : DomainsSectionWire
  proxies : List ProxyWire
  proxyRules : ProxyRulesSectionWire
  routeRules : RouteRulesSectionWire
  projects : List ProjectWire

def wireFields : List Str :=
  ["version", "tld", "dns_port", "update_channel", "symlink_protection", "mcp_enabled",
    "lan_enabled", "lan_setup_port", "ports", "php", "parked", "linked", "overrides", "services",
    "mail", "dumps", "tunnel", "groups", "domains", "proxies", "proxy_rules", "route_rules",
    "projects"]

/-- Only the version has no default. -/
def Wire.decode : Decoder Wire := fun v => do
  let t ← fields wireFields v
  let version ← required t "version" Decoder.u32
  let tld ← defaulted t "tld" Decoder.string (default : Tld).text
  let dnsPort ← defaulted t "dns_port" Decoder.u16 defaultDnsPort
  let updateChannel ← defaulted t "update_channel" Decoder.string defaultUpdateChannel
  let symlinkProtection ←
    defaulted t "symlink_protection" Decoder.boolean defaultSymlinkProtection
  let mcpEnabled ← defaulted t "mcp_enabled" Decoder.boolean defaultMcpEnabled
  let lanEnabled ← defaulted t "lan_enabled" Decoder.boolean defaultLanEnabled
  let lanSetupPort ← defaulted t "lan_setup_port" Decoder.u16 defaultLanSetupPort
  let ports ← defaulted t "ports" PortsWire.decode .default
  let php ← defaulted t "php" PhpSectionWire.decode .absent
  let parked ← defaulted t "parked" ParkedSectionWire.decode .default
  let linked ← defaulted t "linked" (Decoder.vec SiteWire.decode) []
  let overrides ← defaulted t "overrides" (Decoder.vec OverrideWire.decode) []
  let services ← defaulted t "services" (Decoder.map ServiceInstanceWire.decode) ∅
  let mail ← defaulted t "mail" MailSectionWire.decode .default
  let dumps ← defaulted t "dumps" DumpsSectionWire.decode .default
  let tunnel ← defaulted t "tunnel" TunnelSectionWire.decode .default
  let groups ← defaulted t "groups" GroupsSectionWire.decode .default
  let domains ← defaulted t "domains" DomainsSectionWire.decode .default
  let proxies ← defaulted t "proxies" (Decoder.vec ProxyWire.decode) []
  let proxyRules ← defaulted t "proxy_rules" RulesSectionWire.decode .default
  let routeRules ← defaulted t "route_rules" RulesSectionWire.decode .default
  let projects ← defaulted t "projects" (Decoder.vec ProjectWire.decode) []
  return { version, tld, dnsPort, updateChannel, symlinkProtection, mcpEnabled, lanEnabled,
           lanSetupPort, ports, php, parked, linked, overrides, services, mail, dumps, tunnel,
           groups, domains, proxies, proxyRules, routeRules, projects }

end Orcker.Schema
