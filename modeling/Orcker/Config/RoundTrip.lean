import Orcker.Config.Parse

/-!
# Reading back what was written

A configuration whose paths are text has a document, which reads back record by record
(`decode_ser…`).
-/

namespace Orcker.Schema

open Base Orcker.Core Toml Std.ExtTreeMap Decoder

def wireSite (s : Site) : SiteWire where
  name := s.name.text
  documentRoot := s.documentRoot
  webSubpath := s.webSubpath
  php := s.php.display
  secure := s.secure
  kind := s.kind
  wpAutoLogin := s.wpAutoLogin
  wpAutoLoginUser := s.wpAutoLoginUser
  frontController := s.frontController

def wireProject (p : ContainerProject) : ProjectWire := ⟨p.name.text, p.root, p.port, p.secure⟩

def wireProxy (p : ProxySite) : ProxyWire := ⟨p.name.text, p.target.display, p.secure⟩

def wireOverride (path : Str) (ov : SiteOverride) : OverrideWire where
  path := path
  php := ov.php.map PhpVersion.display
  secure := ov.secure
  webRoot := ov.webRoot
  wpAutoLogin := ov.wpAutoLogin
  wpAutoLoginUser := ov.wpAutoLoginUser
  frontController := ov.frontController

def wireProxyRule (r : ProxyRule) : RuleWire := ⟨r.pathPrefix, r.target.display⟩

def wireRouteRule (r : RouteRule) : RuleWire := ⟨r.pathPrefix, r.target⟩

def wireRules {α : Type} (wire : α → RuleWire) (linked parked : StrMap (List α)) :
    RulesSectionWire where
  linked := (pruneRules linked).map fun _ rules => rules.map wire
  parked := (pruneRules parked).map fun _ rules => rules.map wire

def wireDelta (d : DomainDelta) : DomainDeltaWire where
  added := d.added.map Domain.sub
  suppressed := d.suppressed.map Domain.sub
  primary := d.primary.map Domain.sub

def wireDeltas (src : StrMap DomainDelta) : StrMap DomainDeltaWire :=
  (pruneDeltas src).map fun _ d => wireDelta d

def wireService (inst : ServiceInstance) : ServiceInstanceWire where
  version := inst.version
  port := inst.port
  site := inst.site
  enabled := some inst.enabled
  overrides := inst.overrides

def wireExtEntry (e : ExtEntry) : ExtEntryWire := ⟨some e.name, e.path, e.zend⟩

def wirePhp (p : PhpSection) : PhpSectionWire where
  default := p.default.display
  settings := p.settings
  extensions := (byVersionText p.extensions).map fun _ entries => entries.map wireExtEntry
  versionSettings := byVersionText p.versionSettings
  directives := byVersionText p.directives
  pool := none

/-- The configuration in the file's own types. -/
def wireConfig (c : Config) : Wire where
  version := currentVersion
  tld := c.tld.text
  dnsPort := c.dnsPort
  updateChannel := c.updateChannel
  symlinkProtection := c.symlinkProtection
  mcpEnabled := c.mcpEnabled
  lanEnabled := c.lanEnabled
  lanSetupPort := c.lanSetupPort
  ports := ⟨c.ports.http, c.ports.https, c.ports.fallbackHttp, c.ports.fallbackHttps⟩
  php := wirePhp c.php
  parked := ⟨c.parked.paths⟩
  linked := c.linked.map wireSite
  overrides := c.overrides.toList.map fun e => wireOverride e.1 e.2
  services := c.services.instances.map fun _ inst => wireService inst
  mail := ⟨c.mail.enabled, c.mail.port⟩
  dumps := ⟨c.dumps.enabled, c.dumps.port, c.dumps.persist, c.dumps.features⟩
  tunnel := ⟨c.tunnel.named, c.tunnel.sites⟩
  groups := ⟨c.groups.order, c.groups.members⟩
  domains := ⟨wireDeltas c.domains.linked, wireDeltas c.domains.parked, wireDeltas c.domains.proxy⟩
  proxies := c.proxies.map wireProxy
  proxyRules := wireRules wireProxyRule c.proxyRules.linked c.proxyRules.parked
  routeRules := wireRules wireRouteRule c.routeRules.linked c.routeRules.parked
  projects := c.projects.map wireProject

section Decode

theorem serPath_of_isText {p : Path} (h : p.IsText) :
    ∃ s, serPath p = .ok (.string s) ∧ Path.ofStr s = p := by
  obtain ⟨s, rfl⟩ := h
  refine ⟨s, ?_, rfl⟩
  have hstr : (Path.ofStr s).toStr = some s := fromUtf8_eq_some_iff.2 rfl
  rw [serPath, hstr]

@[simp] theorem unitVariant_serKind (kind : SiteKind) :
    Decoder.unitVariant siteKinds (serKind kind) = .ok kind := by
  cases kind <;> decide

theorem exists_serSite {s : Site} (hroot : s.documentRoot.IsText) (hsub : s.webSubpath.IsText) :
    ∃ v, serSite s = .ok v ∧ SiteWire.decode v = .ok (wireSite s) := by
  obtain ⟨root, hroot, hrootEq⟩ := serPath_of_isText hroot
  obtain ⟨sub, hsub, hsubEq⟩ := serPath_of_isText hsub
  refine ⟨_, by rw [serSite, hroot, ok_bind, hsub, ok_bind, pure_eq_ok], ?_⟩
  have hwebSubpath : readDefaulted path ⟨[]⟩ (skipIf s.webSubpath.isEmpty (.string sub)) =
      .ok s.webSubpath := by
    refine readDefaulted_skipIf (fun hempty => ?_) fun _ => by rw [path_ofStr, hsubEq]
    rw [Path.isEmpty, List.isEmpty_iff] at hempty
    rw [← hempty]
  have hwpAutoLogin : readDefaulted boolean false
      (skipIf (!s.wpAutoLogin) (.boolean s.wpAutoLogin)) = .ok s.wpAutoLogin :=
    readDefaulted_skipIf (fun h => by simpa using h.symm) fun _ => rfl
  rw [SiteWire.decode, fields_ofRecord (by simp)]
  simp [required, defaulted, Toml.optional, hwebSubpath, hwpAutoLogin, hrootEq, wireSite]

theorem exists_serProject {p : ContainerProject} (hroot : p.root.IsText) :
    ∃ v, serProject p = .ok v ∧ ProjectWire.decode v = .ok (wireProject p) := by
  obtain ⟨root, hroot, hrootEq⟩ := serPath_of_isText hroot
  refine ⟨_, by rw [serProject, hroot, ok_bind, pure_eq_ok], ?_⟩
  rw [ProjectWire.decode, fields_ofRecord (by simp)]
  simp [required, defaulted, hrootEq, wireProject]

theorem decode_serProxy (p : ProxySite) : ProxyWire.decode (serProxy p) = .ok (wireProxy p) := by
  rw [ProxyWire.decode, serProxy, fields_ofRecord (by simp)]
  simp [required, defaulted, wireProxy]

theorem decode_serOverride (path : Str) (ov : SiteOverride) :
    OverrideWire.decode (serOverride path ov) = .ok (wireOverride path ov) := by
  have hphp : readOptional string (ov.php.map fun v => .string v.display) =
      .ok (ov.php.map PhpVersion.display) := readOptional_map (fun v => string_string _) _
  rw [OverrideWire.decode, serOverride, fields_ofRecord (by simp)]
  simp [required, Toml.optional, hphp, wireOverride]

theorem decode_serRule (pathPrefix target : Str) :
    RuleWire.decode (serRule pathPrefix target) = .ok ⟨pathPrefix, target⟩ := by
  rw [RuleWire.decode, serRule, fields_ofRecord (by simp)]
  simp [required]

variable {α β : Type} {r : Decoder α} {ser : β → Toml}

theorem decode_serRulesSection {ser : List α → Toml} {wire : α → RuleWire}
    (h : ∀ rules, Decoder.vec RuleWire.decode (ser rules) = .ok (rules.map wire))
    (linked parked : StrMap (List α)) :
    readDefaulted RulesSectionWire.decode .default (serRulesSection ser linked parked) =
      .ok (wireRules wire linked parked) := by
  refine readDefaulted_skipIf (fun hempty => ?_) fun _ => ?_
  · rw [Bool.and_eq_true, Std.ExtTreeMap.isEmpty_iff, Std.ExtTreeMap.isEmpty_iff] at hempty
    simp [wireRules, RulesSectionWire.default, hempty.1, hempty.2, map_eq_empty_iff]
  · rw [RulesSectionWire.decode, fields_ofRecord (by simp)]
    simp [defaulted, readDefaulted_map_skipIf (fun _ rules _ => h rules), wireRules]

theorem decode_serDomains (domains : List Domain) :
    readDefaulted (Decoder.vec Decoder.string) [] (skipIf domains.isEmpty (serDomains domains)) =
      .ok (domains.map Domain.sub) := by
  refine readDefaulted_skipIf (fun hempty => ?_) fun _ => vec_array fun _ _ => string_string _
  rw [List.isEmpty_iff.1 hempty, List.map_nil]

theorem decode_serDomainDelta (d : DomainDelta) :
    DomainDeltaWire.decode (serDomainDelta d) = .ok (wireDelta d) := by
  have hprimary : readOptional string (d.primary.map fun d => .string d.sub) =
      .ok (d.primary.map Domain.sub) := readOptional_map (fun d => string_string _) _
  rw [DomainDeltaWire.decode, serDomainDelta, fields_ofRecord (by simp)]
  simp [defaulted, Toml.optional, decode_serDomains, hprimary, wireDelta]

theorem pruneDeltas_eq_empty {src : StrMap DomainDelta}
    (h : ∀ d ∈ OrdMap.values src, d.isEmpty = true) : pruneDeltas src = ∅ := by
  refine OrdMap.ext_some fun k d => ?_
  rw [pruneDeltas, getElem?_filter', Option.filter_eq_some_iff]
  constructor
  · intro ⟨hk, hkept⟩
    rw [h d (OrdMap.mem_values.2 ⟨k, hk⟩)] at hkept
    cases hkept
  · intro hk
    cases hk

theorem decode_serDomainsSection (d : DomainsSection) :
    readDefaulted DomainsSectionWire.decode .default (serDomainsSection d) =
      .ok ⟨wireDeltas d.linked, wireDeltas d.parked, wireDeltas d.proxy⟩ := by
  refine readDefaulted_skipIf (fun hempty => ?_) fun _ => ?_
  · simp only [List.all_append, Bool.and_eq_true, List.all_eq_true] at hempty
    obtain ⟨⟨hlinked, hparked⟩, hproxy⟩ := hempty
    simp [wireDeltas, DomainsSectionWire.default, pruneDeltas_eq_empty hlinked,
      pruneDeltas_eq_empty hparked, pruneDeltas_eq_empty hproxy, map_eq_empty_iff]
  · rw [DomainsSectionWire.decode, fields_ofRecord (by simp)]
    simp [defaulted, serDomainDeltaMap, wireDeltas,
      readDefaulted_map_skipIf fun _ d _ => decode_serDomainDelta d]

theorem decode_serPorts (p : Ports) :
    PortsWire.decode (serPorts p) = .ok ⟨p.http, p.https, p.fallbackHttp, p.fallbackHttps⟩ := by
  rw [PortsWire.decode, serPorts, fields_ofRecord (by simp)]
  simp [required, defaulted]

theorem decode_serExtEntry (e : ExtEntry) :
    ExtEntryWire.decode (serExtEntry e) = .ok (wireExtEntry e) := by
  rw [ExtEntryWire.decode, serExtEntry, fields_ofRecord (by simp)]
  simp [required, defaulted, Toml.optional, readOptional, wireExtEntry]

@[simp] theorem decode_serStrMap (m : StrMap Str) :
    Decoder.map Decoder.string (serStrMap m) = .ok m := map_ofMap_self string_string m

@[simp] theorem readDefaulted_serStrMap (m : StrMap Str) :
    readDefaulted (Decoder.map Decoder.string) ∅ (skipIf m.isEmpty (serStrMap m)) = .ok m :=
  readDefaulted_map_skipIf_self string_string m

theorem decode_serVersions {g : β → α} (h : ∀ b, r (ser b) = .ok (g b)) (m : OrdMap PhpVersion β) :
    readDefaulted (Decoder.map r) ∅ (serVersions ser m) =
      .ok ((byVersionText m).map fun _ b => g b) := by
  refine readDefaulted_skipIf (fun hempty => ?_) fun _ => map_ofMap fun _ b _ => h b
  rw [isEmpty_iff.1 hempty]
  exact (map_eq_empty_iff.2 rfl).symm

theorem decode_serPhp (p : PhpSection) : PhpSectionWire.decode (serPhp p) = .ok (wirePhp p) := by
  have hmaps : ∀ m : OrdMap PhpVersion (StrMap Str),
      readDefaulted (map (map string)) ∅ (serVersions serStrMap m) =
        .ok (byVersionText m) := by
    intro m
    rw [decode_serVersions (g := id) decode_serStrMap]
    simp
  have hentries : ∀ entries : List ExtEntry, vec ExtEntryWire.decode
      (.array (entries.map serExtEntry)) = .ok (entries.map wireExtEntry) :=
    fun entries => vec_array fun e _ => decode_serExtEntry e
  have hext := decode_serVersions hentries p.extensions
  rw [PhpSectionWire.decode, serPhp, fields_ofRecord (by simp)]
  simp [required, defaulted, Toml.optional, readOptional, hmaps, hext, wirePhp]

theorem decode_serParked (p : ParkedSection) :
    ParkedSectionWire.decode (serParked p) = .ok ⟨p.paths⟩ := by
  rw [ParkedSectionWire.decode, serParked, fields_ofRecord (by simp)]
  simp [defaulted]

theorem decode_serService (inst : ServiceInstance) :
    ServiceInstanceWire.decode (serService inst) = .ok (wireService inst) := by
  rw [ServiceInstanceWire.decode, serService, fields_ofRecord (by simp)]
  simp [defaulted, Toml.optional, wireService]

theorem decode_serMail (m : MailSection) :
    readDefaulted MailSectionWire.decode .default (serMail m) = .ok ⟨m.enabled, m.port⟩ := by
  refine readDefaulted_skipIf (fun hdefault => ?_) fun _ => ?_
  · rw [of_decide_eq_true hdefault]
    rfl
  · rw [MailSectionWire.decode, fields_ofRecord (by simp)]
    simp [defaulted]

theorem decode_serDumps (d : DumpsSection) :
    readDefaulted DumpsSectionWire.decode .default (serDumps d) =
      .ok ⟨d.enabled, d.port, d.persist, d.features⟩ := by
  refine readDefaulted_skipIf (fun hdefault => ?_) fun _ => ?_
  · rw [of_decide_eq_true hdefault]
    rfl
  · rw [DumpsSectionWire.decode, fields_ofRecord (by simp)]
    simp [defaulted, readDefaulted_map_skipIf_self boolean_boolean]

theorem decode_serTunnel (t : TunnelSection) :
    readDefaulted TunnelSectionWire.decode .default (serTunnel t) = .ok ⟨t.named, t.sites⟩ := by
  refine readDefaulted_skipIf (fun hdefault => ?_) fun _ => ?_
  · rw [of_decide_eq_true hdefault]
    rfl
  · rw [TunnelSectionWire.decode, fields_ofRecord (by simp)]
    simp [defaulted]

theorem decode_serGroups (g : GroupsSection) :
    readDefaulted GroupsSectionWire.decode .default (serGroups g) = .ok ⟨g.order, g.members⟩ := by
  refine readDefaulted_skipIf (fun hempty => ?_) fun _ => ?_
  · rw [GroupsSection.isEmpty, Bool.and_eq_true, List.isEmpty_iff,
      Std.ExtTreeMap.isEmpty_iff] at hempty
    rw [hempty.1, hempty.2]
    rfl
  · rw [GroupsSectionWire.decode, fields_ofRecord (by simp)]
    simp [defaulted]

theorem decode_serArray {wire : β → α} (h : ∀ b, r (ser b) = .ok (wire b)) (l : List β) :
    readDefaulted (Decoder.vec r) [] (serArray (l.map ser)) = .ok (l.map wire) := by
  rw [serArray, readDefaulted_vec_skipIf, List.mapM_map]
  exact mapM_eq_ok fun b _ => h b

theorem u32_currentVersion : Decoder.u32 (.integer currentVersion) = .ok currentVersion := by
  decide

end Decode

/-- The paths of a configuration that are not kept as text. -/
structure Config.PathsUtf8 (c : Config) : Prop where
  linked : ∀ s ∈ c.linked, s.documentRoot.IsText ∧ s.webSubpath.IsText
  projects : ∀ p ∈ c.projects, p.root.IsText

theorem exists_document {c : Config} (h : c.PathsUtf8) :
    ∃ v, c.document = .ok v ∧ Wire.decode v = .ok (wireConfig c) := by
  obtain ⟨linked, hlinked, hlinkedWire⟩ := exists_mapM_mapM fun s hs =>
    exists_serSite (h.linked s hs).1 (h.linked s hs).2
  obtain ⟨projects, hprojects, hprojectsWire⟩ := exists_mapM_mapM fun p hp =>
    exists_serProject (h.projects p hp)
  refine ⟨_, by rw [Config.document, hlinked, ok_bind, hprojects, ok_bind, pure_eq_ok], ?_⟩
  have hoverrides := decode_serArray (fun e : Str × SiteOverride => decode_serOverride e.1 e.2)
    c.overrides.toList
  have hproxies := decode_serArray decode_serProxy c.proxies
  have hprojects : readDefaulted (vec ProjectWire.decode) [] (serArray projects) =
      .ok (c.projects.map wireProject) := by
    rw [serArray, readDefaulted_vec_skipIf]
    exact hprojectsWire
  have hvec : vec SiteWire.decode (.array linked) = .ok (c.linked.map wireSite) :=
    hlinkedWire
  have hproxyRules := @decode_serRulesSection _ serProxyRules wireProxyRule fun _ =>
    vec_array fun _ _ => decode_serRule _ _
  have hrouteRules := @decode_serRulesSection _ serRouteRules wireRouteRule fun _ =>
    vec_array fun _ _ => decode_serRule _ _
  rw [Wire.decode, fields_ofRecord (by simp [wireFields])]
  simp [required, defaulted, u32_currentVersion, decode_serPorts, decode_serPhp, decode_serParked,
    hvec, hoverrides, readDefaulted_map_skipIf fun _ inst _ => decode_serService inst,
    decode_serMail, decode_serDumps, decode_serTunnel, decode_serGroups, decode_serDomainsSection,
    hproxies, hproxyRules, hrouteRules, hprojects, wireConfig]

end Orcker.Schema
