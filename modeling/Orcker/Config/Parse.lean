import Orcker.Config.Validate
import Orcker.Config.Wire

/-!
# Loading a configuration
-/

namespace Orcker.Schema

open Base Orcker.Core

/-! ## Migration

A file of an older schema version is brought forward one version at a time. Most steps only raise
the version, the fields they introduced having defaults; two rewrite the services table. -/

section

open Toml

/-- From one version to the next. -/
abbrev MigrationStep := Toml → Except ConfigError Toml

def setVersion (n : Nat) : MigrationStep
  | .table t => .ok (.table (insert "version" (.integer n) t))
  | _ => .error (.migration .missingVersion)

/-- The version a document says it has. -/
def readVersion : Toml → Except ConfigError Nat
  | .table t =>
    match find "version" t with
    | none => .error (.migration .missingVersion)
    | some (.integer n) =>
      if 0 ≤ n ∧ n ≤ 4294967295 then .ok n.toNat else .error (.migration .nonIntegerVersion)
    | some _ => .error (.migration .nonIntegerVersion)
  | _ => .error (.migration .missingVersion)

/-- Rewrite the table under a top-level key, if there is one. -/
def updateTable (key : Str) (f : Table → Table) : Toml → Toml
  | .table t =>
    match find key t with
    | some (.table s) => .table (insert key (.table (f s)) t)
    | _ => .table t
  | v => v

/-- Names listed as enabled become tables; anything else stays, except that the
`enabled` key goes even when it is not a list. -/
def promoteEnabled (services : Table) : Table :=
  match find "enabled" services with
  | some (.array enabled) =>
    enabled.foldl (fun services entry =>
      match entry with
      | .string name => insert name (.table [("enabled", .boolean true)]) services
      | _ => services) (erase "enabled" services)
  | _ => erase "enabled" services

/-- Engines without a site are switched on, as they used to start regardless. -/
def enableSingles (services : Table) : Table :=
  services.map fun (key, inst) =>
    match inst with
    | .table t => if ':' ∈ key then (key, inst) else (key, .table (insert "enabled" (.boolean true) t))
    | _ => (key, inst)

/-- Most steps only raise the version. -/
def migrateV0ToV1 : MigrationStep := setVersion 1
def migrateV1ToV2 : MigrationStep := setVersion 2
def migrateV2ToV3 : MigrationStep := fun v => setVersion 3 (updateTable "services" promoteEnabled v)
def migrateV3ToV4 : MigrationStep := setVersion 4
def migrateV4ToV5 : MigrationStep := setVersion 5
def migrateV5ToV6 : MigrationStep := setVersion 6
def migrateV6ToV7 : MigrationStep := setVersion 7
def migrateV7ToV8 : MigrationStep := setVersion 8
def migrateV8ToV9 : MigrationStep := setVersion 9
def migrateV9ToV10 : MigrationStep := setVersion 10
def migrateV10ToV11 : MigrationStep := setVersion 11
def migrateV11ToV12 : MigrationStep := setVersion 12
def migrateV12ToV13 : MigrationStep := setVersion 13
def migrateV13ToV14 : MigrationStep := setVersion 14
def migrateV14ToV15 : MigrationStep := fun v => setVersion 15 (updateTable "services" enableSingles v)
def migrateV15ToV16 : MigrationStep := setVersion 16
def migrateV16ToV17 : MigrationStep := setVersion 17
def migrateV17ToV18 : MigrationStep := setVersion 18
def migrateV18ToV19 : MigrationStep := setVersion 19
def migrateV19ToV20 : MigrationStep := setVersion 20
def migrateV20ToV21 : MigrationStep := setVersion 21
def migrateV21ToV22 : MigrationStep := setVersion 22
def migrateV22ToV23 : MigrationStep := setVersion 23
def migrateV23ToV24 : MigrationStep := setVersion 24

/-- `steps[n]` leads from version `n` to version `n + 1`. -/
def steps : List MigrationStep :=
  [migrateV0ToV1, migrateV1ToV2, migrateV2ToV3, migrateV3ToV4, migrateV4ToV5, migrateV5ToV6,
    migrateV6ToV7, migrateV7ToV8, migrateV8ToV9, migrateV9ToV10, migrateV10ToV11, migrateV11ToV12,
    migrateV12ToV13, migrateV13ToV14, migrateV14ToV15, migrateV15ToV16, migrateV16ToV17,
    migrateV17ToV18, migrateV18ToV19, migrateV19ToV20, migrateV20ToV21, migrateV21ToV22,
    migrateV22ToV23, migrateV23ToV24]

/-- So many steps, from the current version on. -/
def walk : Nat → Nat → Toml → Except ConfigError Toml
  | 0, _, value => .ok value
  | count + 1, current, value =>
    match steps[current]? with
    | none => .error (.migration (.missingStep current))
    | some step => step value >>= walk count (current + 1)

/-- From the version found to the current one. -/
def up (value : Toml) (found : Nat) : Except ConfigError Toml :=
  walk (currentVersion - found) found value

end

/-- The TOML library: its parser and its pretty printer. -/
structure TomlCrate where
  fromStr : Str → Except Str Toml
  toStringPretty : Toml → Except Str Str

def convertProject (p : ProjectWire) : Except ConfigError ContainerProject := do
  let project ← fromCore (ContainerProject.new p.name p.root p.port)
  return project.setSecure p.secure

def convertProjects (wire : List ProjectWire) : Except ConfigError (List ContainerProject) :=
  wire.mapM convertProject

def convertProxy (p : ProxyWire) : Except ConfigError ProxySite := do
  let target ← fromCore (UpstreamTarget.fromUrlStr p.target)
  let proxy ← fromCore (ProxySite.new p.name target)
  return proxy.setSecure p.secure

def convertProxies (wire : List ProxyWire) : Except ConfigError (List ProxySite) :=
  wire.mapM convertProxy

def convertSite (sw : SiteWire) : Except ConfigError Site := do
  let php ← fromCore (PhpVersion.fromStr sw.php)
  let s ← fromCore (match sw.kind with
    | .linked => Site.linked sw.name sw.documentRoot php
    | .parked => Site.parked sw.name sw.documentRoot php)
  return ((((s.set (.secure sw.secure)).set (.webSubpath sw.webSubpath)).set
    (.wpAutoLogin sw.wpAutoLogin)).set (.wpAutoLoginUser sw.wpAutoLoginUser)).set
    (.frontController sw.frontController)

def convertLinked (wire : List SiteWire) : Except ConfigError (List Site) := wire.mapM convertSite

/-- Convert a map's values; the first bad one is reported. -/
def convertValues {β γ : Type} (f : β → Except ConfigError γ) (wire : StrMap β) :
    Except ConfigError (StrMap γ) := do
  let entries ← wire.toList.mapM fun e => (fun b => (e.1, b)) <$> f e.2
  return OrdMap.collect entries

def convertProxyRule (r : ProxyRuleWire) : Except ConfigError ProxyRule := do
  let target ← fromCore (UpstreamTarget.fromUrlStr r.target)
  fromCore (ProxyRule.new r.pathPrefix target)

def convertProxyRules : StrMap (List ProxyRuleWire) → Except ConfigError (StrMap (List ProxyRule)) :=
  convertValues fun rules => rules.mapM convertProxyRule

def convertRouteRule (r : RouteRuleWire) : Except ConfigError RouteRule :=
  fromCore (RouteRule.new r.pathPrefix r.target)

def convertRouteRules : StrMap (List RouteRuleWire) → Except ConfigError (StrMap (List RouteRule)) :=
  convertValues fun rules => rules.mapM convertRouteRule

def parseDomainList (subs : List Str) : Except ConfigError (List Domain) :=
  subs.mapM fun s => fromCore (Domain.parseSubpart s)

def convertOption {α β : Type} (f : α → Except CoreError β) (o : Option α) :
    Except ConfigError (Option β) :=
  match o with
  | none => .ok none
  | some a => some <$> fromCore (f a)

def convertDomainDelta (delta : DomainDeltaWire) : Except ConfigError DomainDelta := do
  let added ← parseDomainList delta.added
  let suppressed ← parseDomainList delta.suppressed
  let primary ← convertOption Domain.parseSubpart delta.primary
  return { added, suppressed, primary }

def convertDomainDeltas : StrMap DomainDeltaWire → Except ConfigError (StrMap DomainDelta) :=
  convertValues convertDomainDelta

/-- Convert a map keyed by version texts, keeping what `keep` keeps. Two texts of
one version collide, and the later one stays. -/
def convertVersions {β γ : Type} (keep : β → Option γ) (wire : StrMap β) :
    Except ConfigError (OrdMap PhpVersion γ) := do
  let entries ← wire.toList.mapM fun e =>
    (fun v => (v, keep e.2)) <$> fromCore (PhpVersion.fromStr e.1)
  return OrdMap.collect (entries.filterMap fun e => e.2.map fun c => (e.1, c))

/-- An entry without a name gets one from its path. -/
def convertExtEntry (e : ExtEntryWire) : ExtEntry where
  name := (e.name.or (PhpExtensions.defaultNameFromPath e.path)).getD []
  path := e.path
  zend := e.zend

def convertExtensions :
    StrMap (List ExtEntryWire) → Except ConfigError (OrdMap PhpVersion (List ExtEntry)) :=
  convertVersions fun entries => some (entries.map convertExtEntry)

/-- Drop the entries that would be refused when they are set. -/
def keepValid (valid : Str → Str → Bool) (entries : StrMap Str) : Option (StrMap Str) :=
  let kept := entries.filter fun k v => valid k v
  if kept.isEmpty then none else some kept

def isVersionSetting (name value : Str) : Bool :=
  PhpSettings.validateValue name value matches .ok _

def convertVersionSettings :
    StrMap (StrMap Str) → Except ConfigError (OrdMap PhpVersion (StrMap Str)) :=
  convertVersions (keepValid isVersionSetting)

/-- The directive could be set. -/
def isDirective (name value : Str) : Bool :=
  (PhpDirectives.validateName name matches .ok _) &&
    (PhpDirectives.validateValue value matches .ok _) && (PhpDirectives.reserved name).isNone

def convertDirectives :
    StrMap (StrMap Str) → Except ConfigError (OrdMap PhpVersion (StrMap Str)) :=
  convertVersions (keepValid isDirective)

def isServiceOverride (dialect : OverrideDialect) (name value : Str) : Bool :=
  (ServiceDirectives.validateName name matches .ok _) &&
    (ServiceDirectives.validateValue dialect value matches .ok _) &&
    (ServiceDirectives.reserved dialect name).isNone

/-- A service type without a dialect keeps no overrides. -/
def convertServiceOverrides (key : Str) (wire : StrMap Str) : StrMap Str :=
  match ServiceDirectives.dialectFor (splitWireId key).1 with
  | none => ∅
  | some dialect => wire.filter fun k v => isServiceOverride dialect k v

/-- Per-site services are off unless said otherwise. -/
def defaultAutostartForKey (key : Str) : Bool := (splitWireId key).1 ∉ knownPerSiteServices

def convertService (key : Str) (inst : ServiceInstanceWire) : ServiceInstance where
  version := inst.version
  port := inst.port
  site := inst.site
  enabled := inst.enabled.getD (defaultAutostartForKey key)
  overrides := convertServiceOverrides key inst.overrides

def convertOverride (o : OverrideWire) : Except ConfigError (Str × SiteOverride) := do
  let php ← convertOption PhpVersion.fromStr o.php
  return (o.path, {
    php
    secure := o.secure
    webRoot := o.webRoot
    wpAutoLogin := o.wpAutoLogin
    wpAutoLoginUser := o.wpAutoLoginUser
    frontController := o.frontController })

def convertPhp (w : PhpSectionWire) : Except ConfigError PhpSection := do
  let default ← fromCore (PhpVersion.fromStr w.default)
  let extensions ← convertExtensions w.extensions
  let versionSettings ← convertVersionSettings w.versionSettings
  let directives ← convertDirectives w.directives
  return { default, settings := w.settings, extensions, versionSettings, directives }

/-- Strict about names, versions and targets, and lenient about PHP settings, directives and service
overrides. -/
def Config.tryFrom (w : Wire) : Except ConfigError Config := do
  if w.version ≠ currentVersion then .error (.unsupportedVersion w.version currentVersion)
  let tld ← fromCore (Tld.new w.tld)
  let php ← convertPhp w.php
  let overrides ← w.overrides.mapM convertOverride
  let linked ← convertLinked w.linked
  let domainsLinked ← convertDomainDeltas w.domains.linked
  let domainsParked ← convertDomainDeltas w.domains.parked
  let domainsProxy ← convertDomainDeltas w.domains.proxy
  let proxies ← convertProxies w.proxies
  let projects ← convertProjects w.projects
  let proxyRulesLinked ← convertProxyRules w.proxyRules.linked
  let proxyRulesParked ← convertProxyRules w.proxyRules.parked
  let routeRulesLinked ← convertRouteRules w.routeRules.linked
  let routeRulesParked ← convertRouteRules w.routeRules.parked
  return {
    version := currentVersion
    tld
    dnsPort := w.dnsPort
    updateChannel := w.updateChannel
    symlinkProtection := w.symlinkProtection
    mcpEnabled := w.mcpEnabled
    lanEnabled := w.lanEnabled
    lanSetupPort := w.lanSetupPort
    ports := ⟨w.ports.http, w.ports.https, w.ports.fallbackHttp, w.ports.fallbackHttps⟩
    php
    parked := ⟨w.parked.paths⟩
    linked
    projects
    overrides := OrdMap.collect overrides
    services := ⟨w.services.map convertService⟩
    mail := ⟨w.mail.enabled, w.mail.port⟩
    dumps := ⟨w.dumps.enabled, w.dumps.port, w.dumps.persist, w.dumps.features⟩
    tunnel := ⟨w.tunnel.named, w.tunnel.sites⟩
    groups := ⟨w.groups.order, w.groups.members⟩
    domains := ⟨domainsLinked, domainsParked, domainsProxy⟩
    proxies
    proxyRules := ⟨proxyRulesLinked, proxyRulesParked⟩
    routeRules := ⟨routeRulesLinked, routeRulesParked⟩ }

/-- From a document of the current version. -/
def Config.fromDocument (value : Toml) : Except ConfigError Config := do
  let wire ← (Wire.decode value).mapError fun e => .parse (.shape e)
  let cfg ← Config.tryFrom wire
  validate cfg
  return cfg

/-- Parses the text, migrates it, reads it into the file's records, converts those into the
validated types and checks the result. -/
def Config.fromToml (toml : TomlCrate) (s : Str) : Except ConfigError Config := do
  let value ← (toml.fromStr s).mapError fun e => .parse (.document e)
  let found ← readVersion value
  if currentVersion < found then .error (.unsupportedVersion found currentVersion)
  let value ← if found < currentVersion then up value found else .ok value
  Config.fromDocument value

/-! ## Saving

Sections at their default and empty tables are left out, and so are domain deltas that change
nothing and rule lists with no rule. Only paths can fail to be written, when they are not UTF-8. -/

section

open Toml

/-- A path is written as a text, if it is one. -/
def serPath (p : Path) : Except ConfigError Toml :=
  match p.toStr with
  | some s => .ok (.string s)
  | none => .error (.serialize .nonUtf8Path)

def serKind : SiteKind → Toml
  | .parked => .string "parked"
  | .linked => .string "linked"

def serSite (s : Site) : Except ConfigError Toml := do
  let documentRoot ← serPath s.documentRoot
  let webSubpath ← serPath s.webSubpath
  return ofRecord [
    ("name", some (.string s.name.text)),
    ("document_root", some documentRoot),
    ("web_subpath", skipIf s.webSubpath.isEmpty webSubpath),
    ("php", some (.string s.php.display)),
    ("secure", some (.boolean s.secure)),
    ("kind", some (serKind s.kind)),
    ("wp_auto_login", skipIf (!s.wpAutoLogin) (.boolean s.wpAutoLogin)),
    ("wp_auto_login_user", s.wpAutoLoginUser.map .string),
    ("front_controller", s.frontController.map .boolean)]

def serProject (p : ContainerProject) : Except ConfigError Toml := do
  let root ← serPath p.root
  return ofRecord [
    ("name", some (.string p.name.text)),
    ("root", some root),
    ("port", some (ofU16 p.port)),
    ("secure", some (.boolean p.secure))]

def serProxy (p : ProxySite) : Toml :=
  ofRecord [
    ("name", some (.string p.name.text)),
    ("target", some (.string p.target.display)),
    ("secure", some (.boolean p.secure))]

def serOverride (path : Str) (ov : SiteOverride) : Toml :=
  ofRecord [
    ("path", some (.string path)),
    ("php", ov.php.map fun v => .string v.display),
    ("secure", ov.secure.map .boolean),
    ("web_root", ov.webRoot.map .string),
    ("wp_auto_login", ov.wpAutoLogin.map .boolean),
    ("wp_auto_login_user", ov.wpAutoLoginUser.map .string),
    ("front_controller", ov.frontController.map .boolean)]

def serRule (pathPrefix target : Str) : Toml :=
  ofRecord [("prefix", some (.string pathPrefix)), ("target", some (.string target))]

/-- Empty lists of rules are not written. -/
def pruneRules {α : Type} (src : StrMap (List α)) : StrMap (List α) :=
  src.filter fun _ rules => !rules.isEmpty

def serProxyRules (rules : List ProxyRule) : Toml :=
  .array (rules.map fun r => serRule r.pathPrefix r.target.display)

def serRouteRules (rules : List RouteRule) : Toml :=
  .array (rules.map fun r => serRule r.pathPrefix r.target)

/-- The `linked` and `parked` tables of either kind of rule, left out when no
site has one. -/
def serRulesSection {α : Type} (ser : List α → Toml) (linked parked : StrMap (List α)) :
    Option Toml :=
  let linked := pruneRules linked
  let parked := pruneRules parked
  skipIf (linked.isEmpty && parked.isEmpty) (ofRecord [
    ("linked", skipIf linked.isEmpty (ofMap ser linked)),
    ("parked", skipIf parked.isEmpty (ofMap ser parked))])

def serDomains (domains : List Domain) : Toml := .array (domains.map fun d => .string d.sub)

def serDomainDelta (d : DomainDelta) : Toml :=
  ofRecord [
    ("added", skipIf d.added.isEmpty (serDomains d.added)),
    ("suppressed", skipIf d.suppressed.isEmpty (serDomains d.suppressed)),
    ("primary", d.primary.map fun d => .string d.sub)]

/-- Deltas that change nothing are not written. -/
def pruneDeltas (src : StrMap DomainDelta) : StrMap DomainDelta :=
  src.filter fun _ d => !d.isEmpty

def serDomainDeltaMap (src : StrMap DomainDelta) : Option Toml :=
  skipIf (pruneDeltas src).isEmpty (ofMap serDomainDelta (pruneDeltas src))

def serDomainsSection (d : DomainsSection) : Option Toml :=
  skipIf ((OrdMap.values d.linked ++ OrdMap.values d.parked ++ OrdMap.values d.proxy).all
      DomainDelta.isEmpty)
    (ofRecord [
      ("linked", serDomainDeltaMap d.linked),
      ("parked", serDomainDeltaMap d.parked),
      ("proxy", serDomainDeltaMap d.proxy)])

def serPorts (p : Ports) : Toml :=
  ofRecord [
    ("http", some (ofU16 p.http)),
    ("https", some (ofU16 p.https)),
    ("fallback_http", some (ofU16 p.fallbackHttp)),
    ("fallback_https", some (ofU16 p.fallbackHttps))]

def serExtEntry (e : ExtEntry) : Toml :=
  ofRecord [
    ("name", some (.string e.name)),
    ("path", some (.string e.path)),
    ("zend", some (.boolean e.zend))]

def serStrMap (m : StrMap Str) : Toml := ofMap .string m

/-- Keyed by text, as the file has it. -/
def byVersionText {β : Type} (m : OrdMap PhpVersion β) : StrMap β :=
  OrdMap.collect (m.toList.map fun e => (e.1.display, e.2))

def serVersions {β : Type} (ser : β → Toml) (m : OrdMap PhpVersion β) : Option Toml :=
  skipIf m.isEmpty (ofMap ser (byVersionText m))

def serPhp (p : PhpSection) : Toml :=
  ofRecord [
    ("default", some (.string p.default.display)),
    ("settings", skipIf p.settings.isEmpty (serStrMap p.settings)),
    ("version_settings", serVersions serStrMap p.versionSettings),
    ("directives", serVersions serStrMap p.directives),
    ("extensions", serVersions (fun entries => .array (entries.map serExtEntry)) p.extensions)]

def serParked (p : ParkedSection) : Toml := ofRecord [("paths", some (ofSet p.paths))]

def serService (inst : ServiceInstance) : Toml :=
  ofRecord [
    ("version", inst.version.map .string),
    ("port", inst.port.map ofU16),
    ("site", inst.site.map .string),
    ("enabled", some (.boolean inst.enabled)),
    ("overrides", skipIf inst.overrides.isEmpty (serStrMap inst.overrides))]

def serMail (m : MailSection) : Option Toml :=
  skipIf (m = .default) (ofRecord [
    ("enabled", some (.boolean m.enabled)),
    ("port", some (ofU16 m.port))])

def serDumps (d : DumpsSection) : Option Toml :=
  skipIf (d = .default) (ofRecord [
    ("enabled", some (.boolean d.enabled)),
    ("port", some (ofU16 d.port)),
    ("persist", some (.boolean d.persist)),
    ("features", skipIf d.features.isEmpty (ofMap .boolean d.features))])

def serTunnel (t : TunnelSection) : Option Toml :=
  skipIf (t = .default) (ofRecord [
    ("named", skipIf t.named.isEmpty (serStrMap t.named)),
    ("sites", skipIf t.sites.isEmpty (serStrMap t.sites))])

def serGroups (g : GroupsSection) : Option Toml :=
  skipIf g.isEmpty (ofRecord [
    ("order", some (.array (g.order.map .string))),
    ("members", skipIf g.members.isEmpty (serStrMap g.members))])

def serArray (items : List Toml) : Option Toml := skipIf items.isEmpty (.array items)

/-- The document a configuration is written as. -/
def Config.document (c : Config) : Except ConfigError Toml := do
  let linked ← c.linked.mapM serSite
  let projects ← c.projects.mapM serProject
  return ofRecord [
    ("version", some (.integer currentVersion)),
    ("tld", some (.string c.tld.text)),
    ("dns_port", some (ofU16 c.dnsPort)),
    ("update_channel", some (.string c.updateChannel)),
    ("symlink_protection", some (.boolean c.symlinkProtection)),
    ("mcp_enabled", some (.boolean c.mcpEnabled)),
    ("lan_enabled", some (.boolean c.lanEnabled)),
    ("lan_setup_port", some (ofU16 c.lanSetupPort)),
    ("ports", some (serPorts c.ports)),
    ("php", some (serPhp c.php)),
    ("parked", some (serParked c.parked)),
    ("linked", some (.array linked)),
    ("overrides", serArray (c.overrides.toList.map fun e => serOverride e.1 e.2)),
    ("services", skipIf c.services.instances.isEmpty (ofMap serService c.services.instances)),
    ("mail", serMail c.mail),
    ("dumps", serDumps c.dumps),
    ("tunnel", serTunnel c.tunnel),
    ("groups", serGroups c.groups),
    ("domains", serDomainsSection c.domains),
    ("proxies", serArray (c.proxies.map serProxy)),
    ("proxy_rules", serRulesSection serProxyRules c.proxyRules.linked c.proxyRules.parked),
    ("route_rules", serRulesSection serRouteRules c.routeRules.linked c.routeRules.parked),
    ("projects", serArray projects)]

/-- The text a configuration is saved as. -/
def Config.toToml (toml : TomlCrate) (c : Config) : Except ConfigError Str := do
  let value ← c.document
  (toml.toStringPretty value).mapError fun e => .serialize (.printer e)

end

end Orcker.Schema
