import Orcker.Config.RoundTrip

/-!
# Reloading a saved configuration

A valid configuration whose leniently checked entries a load would keep (`Loadable`) survives saving
and loading, but for the deltas and rule lists the file leaves out (`Config.pruned`).
-/

namespace Orcker.Schema

open Base Orcker.Core Toml List OrdMap PhpVersion Config

/-- The parts of the PHP section a load would change or refuse. -/
structure PhpSection.Loadable (p : PhpSection) : Prop where
  default : p.default.InRange
  extensions : ∀ (v : PhpVersion) (es : List ExtEntry), p.extensions[v]? = some es → v.InRange
  versionSettings : ∀ (v : PhpVersion) (m : StrMap Str), p.versionSettings[v]? = some m →
    v.InRange ∧ keepValid isVersionSetting m = some m
  directives : ∀ (v : PhpVersion) (m : StrMap Str), p.directives[v]? = some m →
    v.InRange ∧ keepValid isDirective m = some m

/-- What the configuration's types leave open and a load would change or refuse:
version numbers out of range and entries that a load drops. -/
structure Config.Loadable (c : Config) : Prop where
  version : c.version = currentVersion
  php : c.php.Loadable
  services : ∀ (key : Str) (inst : ServiceInstance), c.services.instances[key]? = some inst →
    convertServiceOverrides key inst.overrides = inst.overrides
  linked : ∀ s ∈ c.linked, s.php.InRange
  overrides : ∀ (key : Str) (ov : SiteOverride), c.overrides[key]? = some ov →
    ∀ v, ov.php = some v → v.InRange

/-- The configuration without the deltas that change nothing and without empty
rule lists. -/
def Config.pruned (c : Config) : Config :=
  { c with
    domains := ⟨pruneDeltas c.domains.linked, pruneDeltas c.domains.parked,
      pruneDeltas c.domains.proxy⟩
    proxyRules := ⟨pruneRules c.proxyRules.linked, pruneRules c.proxyRules.parked⟩
    routeRules := ⟨pruneRules c.routeRules.linked, pruneRules c.routeRules.parked⟩ }

theorem convertSite_wireSite {s : Site} (h : s.php.InRange) : convertSite (wireSite s) = .ok s := by
  obtain ⟨name, documentRoot, webSubpath, php, secure, kind, login, user, front⟩ := s
  cases kind <;>
    simp [convertSite, wireSite, fromStr_display h, Site.linked, Site.parked, Except.map,
      Site.ofName, Site.set]

theorem convertProject_wireProject (p : ContainerProject) :
    convertProject (wireProject p) = .ok p := by
  simp [convertProject, wireProject, ContainerProject.new, Except.map, ContainerProject.setSecure]

theorem convertProxy_wireProxy (p : ProxySite) : convertProxy (wireProxy p) = .ok p := by
  simp [convertProxy, wireProxy, UpstreamTarget.fromUrlStr_display, ProxySite.new,
    ProxySite.setSecure]

theorem convertProxyRule_wireProxyRule (r : ProxyRule) :
    convertProxyRule (wireProxyRule r) = .ok r := by
  simp [convertProxyRule, wireProxyRule, UpstreamTarget.fromUrlStr_display, ProxyRule.new_self]

theorem convertRouteRule_wireRouteRule (r : RouteRule) :
    convertRouteRule (wireRouteRule r) = .ok r := by
  simp [convertRouteRule, wireRouteRule, RouteRule.new_self]

theorem parseDomainList_sub (domains : List Domain) :
    parseDomainList (domains.map Domain.sub) = .ok domains := by
  rw [parseDomainList, mapM_map, mapM_eq_ok (g := id), map_id]
  intro d _
  simp

theorem convertDomainDelta_wireDelta (d : DomainDelta) :
    convertDomainDelta (wireDelta d) = .ok d := by
  have hprimary : convertOption Domain.parseSubpart (d.primary.map Domain.sub) = .ok d.primary := by
    cases d.primary with
    | none => rfl
    | some p => simp [convertOption]
  simp [convertDomainDelta, wireDelta, parseDomainList_sub, hprimary]

theorem convertValues_map {β γ : Type} {f : β → Except ConfigError γ} {g : γ → β} {m : StrMap γ}
    (h : ∀ c, f (g c) = .ok c) : convertValues f (m.map fun _ c => g c) = .ok m := by
  rw [convertValues, Std.ExtTreeMap.toList_map, mapM_map, mapM_eq_ok (g := id), map_id,
    ok_bind, collect_toList, pure_eq_ok]
  intro e _
  simp [h]

variable {α : Type}

theorem convertRules_wire {f : RuleWire → Except ConfigError α} {g : α → RuleWire}
    (h : ∀ r, f (g r) = .ok r) (src : StrMap (List α)) :
    convertValues (fun rules => rules.mapM f) (src.map fun _ rules => rules.map g) = .ok src := by
  refine convertValues_map fun rules => ?_
  rw [mapM_map, mapM_eq_ok (f := f ∘ g) (g := id) fun r _ => h r, map_id]

theorem convertOverride_wireOverride {path : Str} {ov : SiteOverride}
    (h : ∀ v, ov.php = some v → v.InRange) :
    convertOverride (wireOverride path ov) = .ok (path, ov) := by
  have hphp : convertOption fromStr (ov.php.map display) = .ok ov.php := by
    cases hov : ov.php with
    | none => rfl
    | some v => simp [convertOption, fromStr_display (h v hov)]
  simp [convertOverride, wireOverride, hphp]

section Versions

variable {β γ : Type} {m : OrdMap PhpVersion γ}

def versionOf (s : Str) : PhpVersion :=
  match PhpVersion.fromStr s with
  | .ok v => v
  | .error _ => ⟨0, 0⟩

variable {v : PhpVersion}

theorem versionOf_display (h : v.InRange) : versionOf v.display = v := by
  rw [versionOf, fromStr_display h]

theorem mem_byVersionText (hrange : ∀ (v : PhpVersion) (c : γ), m[v]? = some c → v.InRange)
    {s : Str} {c : γ} :
    (s, c) ∈ (byVersionText m).toList ↔ ∃ v : PhpVersion, v.display = s ∧ m[v]? = some c := by
  rw [mem_toList, byVersionText, getElem?_collect_map]
  · simp [and_comm]
  · intro e he e' he' heq
    exact display_inj (hrange _ _ (mem_toList.1 he))
      (hrange _ _ (mem_toList.1 he')) heq

variable {keep : β → Option γ}

theorem convertVersions_byVersionText {g : γ → β}
    (hrange : ∀ (v : PhpVersion) (c : γ), m[v]? = some c → v.InRange)
    (hkeep : ∀ (v : PhpVersion) (c : γ), m[v]? = some c → keep (g c) = some c) :
    convertVersions keep ((byVersionText m).map fun _ c => g c) = .ok m := by
  have hmem := fun {s : Str} {c : γ} => mem_byVersionText (s := s) (c := c) hrange
  rw [convertVersions, Std.ExtTreeMap.toList_map, mapM_map,
    mapM_eq_ok (g := fun e => (versionOf e.1, some e.2)), ok_bind, pure_eq_ok, filterMap_map]
  · refine congrArg Except.ok (ext_some fun v c => ?_)
    rw [show ((fun e : PhpVersion × Option γ => e.2.map fun c => (e.1, c)) ∘
      fun e : Str × γ => (versionOf e.1, some e.2)) = some ∘ fun e => (versionOf e.1, e.2) from rfl,
      filterMap_eq_map, getElem?_collect_map]
    · constructor
      · intro ⟨s, c', hs, heq⟩
        obtain ⟨w, rfl, hc⟩ := hmem.1 (mem_toList.2 hs)
        obtain ⟨rfl, rfl⟩ := Prod.mk.inj heq
        rwa [versionOf_display (hrange w _ hc)]
      · intro hc
        refine ⟨v.display, c, mem_toList.1 (hmem.2 ⟨v, rfl, hc⟩), ?_⟩
        rw [versionOf_display (hrange v c hc)]
    · intro e he e' he' heq
      obtain ⟨v, hv, hc⟩ := hmem.1 he
      obtain ⟨w, hw, hc'⟩ := hmem.1 he'
      rw [← hv, ← hw, versionOf_display (hrange v _ hc), versionOf_display (hrange w _ hc')] at heq
      rw [← hv, ← hw, show v = w from heq]
  · -- Every text parses back, and `keep` keeps what was written.
    intro e he
    obtain ⟨v, hv, hc⟩ := hmem.1 he
    show (fun v => (v, keep (g e.2))) <$> fromCore (fromStr e.1) = _
    rw [← hv, fromStr_display (hrange v _ hc), versionOf_display (hrange v _ hc),
      fromCore_ok, map_ok, hkeep v _ hc]

theorem exists_of_convertVersions {wire : StrMap β} (h : convertVersions keep wire = .ok m)
    {c : γ} (hc : m[v]? = some c) : v.InRange ∧ ∃ b, keep b = some c := by
  obtain ⟨entries, hentries, heq⟩ := bind_eq_ok_iff.1 h
  rw [pure_eq_ok, Except.ok.injEq] at heq
  obtain ⟨e, he, hec⟩ := mem_filterMap.1 (mem_of_getElem?_collect (heq ▸ hc))
  obtain ⟨c', hc', hpair⟩ := Option.map_eq_some_iff.1 hec
  obtain ⟨rfl, rfl⟩ := Prod.mk.inj hpair
  obtain ⟨b, _, hb⟩ := exists_of_mapM_eq_ok hentries he
  obtain ⟨w, hw, rfl⟩ := map_eq_ok_iff.1 hb
  exact ⟨inRange_of_fromStr (fromCore_eq_ok_iff.1 hw), b.2, hc'⟩

end Versions

theorem keepValid_keepValid {valid : Str → Str → Bool} {m kept : StrMap Str}
    (h : keepValid valid m = some kept) : keepValid valid kept = some kept := by
  rw [keepValid] at h
  split at h
  · cases h
  · rename_i hne
    obtain rfl := Option.some.inj h
    show (if ((m.filter valid).filter valid).isEmpty then none
      else some ((m.filter valid).filter valid)) = _
    rw [filter_filter_self, if_neg hne]

theorem convertServiceOverrides_self (key : Str) (m : StrMap Str) :
    convertServiceOverrides key (convertServiceOverrides key m) = convertServiceOverrides key m := by
  rw [convertServiceOverrides, convertServiceOverrides]
  cases ServiceDirectives.dialectFor (splitWireId key).1 with
  | none => rfl
  | some dialect => exact filter_filter_self _ _

theorem convertVersions_byVersionText_self {γ : Type} {keep : γ → Option γ} {m : OrdMap PhpVersion γ}
    (h : ∀ (v : PhpVersion) (c : γ), m[v]? = some c → v.InRange ∧ keep c = some c) :
    convertVersions keep (byVersionText m) = .ok m := by
  have hmap : (byVersionText m).map (fun _ c => c) = byVersionText m :=
    ext_some fun k c => by simp
  rw [← hmap]
  exact convertVersions_byVersionText (fun v c hc => (h v c hc).1) fun v c hc => (h v c hc).2

variable {p : PhpSection} {c : Config} {s : Str} {src : StrMap (List α)}

theorem convertPhp_wirePhp (h : p.Loadable) : convertPhp (wirePhp p) = .ok p := by
  have hextensions : convertExtensions (wirePhp p).extensions = .ok p.extensions :=
    convertVersions_byVersionText h.extensions fun v es _ => by
      rw [map_map, show convertExtEntry ∘ wireExtEntry = id from rfl, map_id]
  have hsettings : convertVersionSettings (wirePhp p).versionSettings = .ok p.versionSettings :=
    convertVersions_byVersionText_self h.versionSettings
  have hdirectives : convertDirectives (wirePhp p).directives = .ok p.directives :=
    convertVersions_byVersionText_self h.directives
  rw [convertPhp, hextensions, hsettings, hdirectives]
  simp [wirePhp, fromStr_display h.default]

theorem convertOverrides_wire {m : StrMap SiteOverride}
    (h : ∀ (key : Str) (ov : SiteOverride), m[key]? = some ov → ∀ v, ov.php = some v → v.InRange) :
    (m.toList.map fun e => wireOverride e.1 e.2).mapM convertOverride = .ok m.toList := by
  rw [mapM_map, mapM_eq_ok (g := id), map_id]
  intro e he
  exact convertOverride_wireOverride (h e.1 e.2 (mem_toList.1 he))

theorem convertServices_wire {m : StrMap ServiceInstance}
    (h : ∀ (key : Str) (inst : ServiceInstance), m[key]? = some inst →
      convertServiceOverrides key inst.overrides = inst.overrides) :
    (m.map fun _ inst => wireService inst).map convertService = m := by
  refine Std.ExtTreeMap.ext_getElem? fun key => ?_
  rw [Std.ExtTreeMap.getElem?_map, Std.ExtTreeMap.getElem?_map]
  cases hkey : m[key]? with
  | none => rfl
  | some inst => simp [convertService, wireService, h key inst hkey]

theorem convertProxies_wire (proxies : List ProxySite) :
    convertProxies (proxies.map wireProxy) = .ok proxies := by
  rw [convertProxies, mapM_map, mapM_eq_ok (g := id), map_id]
  exact fun p _ => convertProxy_wireProxy p

theorem tryFrom_wireConfig (h : c.Loadable) : Config.tryFrom (wireConfig c) = .ok c.pruned := by
  have hlinked : convertLinked (c.linked.map wireSite) = .ok c.linked := by
    rw [convertLinked, mapM_map, mapM_eq_ok (g := id), map_id]
    exact fun s hs => convertSite_wireSite (h.linked s hs)
  have hprojects : convertProjects (c.projects.map wireProject) = .ok c.projects := by
    rw [convertProjects, mapM_map, mapM_eq_ok (g := id), map_id]
    exact fun p _ => convertProject_wireProject p
  have hdeltas : ∀ src, convertDomainDeltas (wireDeltas src) = .ok (pruneDeltas src) :=
    fun src => convertValues_map convertDomainDelta_wireDelta
  have hproxyRules := convertRules_wire convertProxyRule_wireProxyRule
  have hrouteRules := convertRules_wire convertRouteRule_wireRouteRule
  simp [tryFrom, wireConfig, convertPhp_wirePhp h.php, convertOverrides_wire h.overrides,
    hlinked, hdeltas, convertProxies_wire, hprojects, wireRules, convertProxyRules, convertRouteRules,
    hproxyRules, hrouteRules, convertServices_wire h.services, pruned, h.version]

theorem convertPhp_loadable {w : PhpSectionWire} (h : convertPhp w = .ok p) : p.Loadable := by
  simp only [convertPhp, bind_eq_ok_iff, pure_eq_ok, Except.ok.injEq] at h
  obtain ⟨default, hdefault, extensions, hext, settings, hsettings, directives, hdirectives, rfl⟩ := h
  refine ⟨inRange_of_fromStr (fromCore_eq_ok_iff.1 hdefault), ?_, ?_, ?_⟩
  · intro v es hes
    exact (exists_of_convertVersions hext hes).1
  · intro v m hm
    obtain ⟨hv, b, hb⟩ := exists_of_convertVersions hsettings hm
    exact ⟨hv, keepValid_keepValid hb⟩
  · intro v m hm
    obtain ⟨hv, b, hb⟩ := exists_of_convertVersions hdirectives hm
    exact ⟨hv, keepValid_keepValid hb⟩

theorem convertSite_inRange {w : SiteWire} {s : Site} (h : convertSite w = .ok s) :
    s.php.InRange := by
  simp only [convertSite, bind_eq_ok_iff, pure_eq_ok, Except.ok.injEq] at h
  obtain ⟨php, hphp, s', hs', rfl⟩ := h
  have hs'php : s'.php = php := by
    rw [fromCore_eq_ok_iff] at hs'
    split at hs' <;>
    · obtain ⟨name, _, rfl⟩ := map_eq_ok_iff.1 hs'
      rfl
  show s'.php.InRange
  rw [hs'php]
  exact inRange_of_fromStr (fromCore_eq_ok_iff.1 hphp)

theorem convertOverride_inRange {w : OverrideWire} {e : Str × SiteOverride}
    (h : convertOverride w = .ok e) {v : PhpVersion} (hv : e.2.php = some v) : v.InRange := by
  simp only [convertOverride, bind_eq_ok_iff, pure_eq_ok, Except.ok.injEq] at h
  obtain ⟨php, hphp, rfl⟩ := h
  rw [show php = some v from hv] at hphp
  cases hw : w.php with
  | none =>
    rw [hw] at hphp
    cases hphp
  | some text =>
    rw [hw] at hphp
    obtain ⟨v', hv', heq⟩ := map_eq_ok_iff.1 hphp
    obtain rfl := Option.some.inj heq
    exact inRange_of_fromStr (fromCore_eq_ok_iff.1 hv')

theorem loadable_of_tryFrom {w : Wire} (h : Config.tryFrom w = .ok c) : c.Loadable := by
  rw [tryFrom] at h
  split at h
  · cases h
  simp only [bind_eq_ok_iff, pure_eq_ok, Except.ok.injEq] at h
  obtain ⟨tld, _, php, hphp, overrides, hoverrides, linked, hlinked, _, _, _, _, _, _, _, _,
    _, _, _, _, _, _, _, _, _, _, rfl⟩ := h
  refine ⟨rfl, convertPhp_loadable hphp, ?_, ?_, ?_⟩
  · intro key inst hinst
    rw [Std.ExtTreeMap.getElem?_map, Option.map_eq_some_iff] at hinst
    obtain ⟨wire, _, rfl⟩ := hinst
    exact convertServiceOverrides_self key wire.overrides
  · intro s hs
    obtain ⟨sw, _, hsw⟩ := exists_of_mapM_eq_ok hlinked hs
    exact convertSite_inRange hsw
  · intro key ov hov v hv
    obtain ⟨ow, _, how⟩ := exists_of_mapM_eq_ok hoverrides (mem_of_getElem?_collect hov)
    exact convertOverride_inRange how hv

variable {toml : TomlCrate}

theorem loadable_of_fromToml (h : Config.fromToml toml s = .ok c) :
    c.Loadable ∧ validate c = .ok () := by
  simp only [fromToml, bind_eq_ok_iff] at h
  obtain ⟨value, _, found, _, h⟩ := h
  split at h
  · cases h
  -- Migrated or not, the document goes through the same reader.
  have hdocument : ∃ value, fromDocument value = .ok c := by
    split at h
    · obtain ⟨value, _, h⟩ := bind_eq_ok_iff.1 h
      exact ⟨value, h⟩
    · exact ⟨value, h⟩
  obtain ⟨value, h⟩ := hdocument
  simp only [fromDocument, bind_eq_ok_iff, pure_eq_ok, Except.ok.injEq] at h
  obtain ⟨wire, _, cfg, hcfg, _, hvalid, rfl⟩ := h
  exact ⟨loadable_of_tryFrom hcfg, hvalid⟩

theorem validate_eq_ok_iff :
    validate c = .ok () ↔
      validatePorts c = .ok () ∧ validateUniqueLinked c = .ok () ∧
      validateNonemptyPaths c = .ok () ∧ validateWebRoots c = .ok () ∧
      validateKnownServices c = .ok () ∧ validatePhpSettings c = .ok () ∧
      validatePhpExtensions c = .ok () ∧ validateUpdateChannel c = .ok () ∧
      validateTunnel c = .ok () ∧ validateGroups c = .ok () ∧ validateDomains c = .ok () ∧
      validateProxies c = .ok () ∧ validateProjects c = .ok () ∧ validateRouteRules c = .ok () := by
  simp only [validate, check_bind_eq_ok_iff]

theorem validateDomains_pruned (h : validateDomains c = .ok ()) :
    validateDomains c.pruned = .ok () := by
  rw [validateDomains, forM_eq_ok_iff] at h ⊢
  intro d hd
  refine h d ?_
  simp only [mem_append, mem_values] at hd ⊢
  exact hd.imp (Or.imp (Exists.imp fun _ => getElem?_of_filter)
    (Exists.imp fun _ => getElem?_of_filter)) (Exists.imp fun _ => getElem?_of_filter)

theorem forM_pruneRules {f : Str × List α → Except ConfigError Unit}
    (h : src.toList.forM f = .ok ()) : (pruneRules src).toList.forM f = .ok () := by
  rw [forM_eq_ok_iff] at h ⊢
  intro e he
  exact h e (mem_toList.2 (getElem?_of_filter (mem_toList.1 he)))

theorem forM_values_pruneRules {f : List α → Except ConfigError Unit}
    (h : (OrdMap.values src).forM f = .ok ()) :
    (OrdMap.values (pruneRules src)).forM f = .ok () := by
  rw [forM_eq_ok_iff] at h ⊢
  intro rules hrules
  obtain ⟨k, hk⟩ := mem_values.1 hrules
  exact h rules (mem_values.2 ⟨k, getElem?_of_filter hk⟩)

theorem validateProxies_pruned (h : validateProxies c = .ok ()) :
    validateProxies c.pruned = .ok () := by
  simp only [validateProxies, check_bind_eq_ok_iff] at h ⊢
  exact ⟨h.1, forM_pruneRules h.2.1, forM_values_pruneRules h.2.2⟩

theorem validateRouteRules_pruned (h : validateRouteRules c = .ok ()) :
    validateRouteRules c.pruned = .ok () := by
  simp only [validateRouteRules, check_bind_eq_ok_iff] at h ⊢
  exact ⟨forM_pruneRules h.1, forM_values_pruneRules h.2⟩

theorem validate_pruned (h : validate c = .ok ()) : validate c.pruned = .ok () := by
  rw [validate_eq_ok_iff] at h ⊢
  obtain ⟨hports, hlinked, hpaths, hroots, hservices, hsettings, hext, hchannel, htunnel, hgroups,
    hdomains, hproxies, hprojects, hrules⟩ := h
  exact ⟨hports, hlinked, hpaths, hroots, hservices, hsettings, hext, hchannel, htunnel, hgroups,
    validateDomains_pruned hdomains, validateProxies_pruned hproxies, hprojects,
    validateRouteRules_pruned hrules⟩

@[simp] theorem pruneDeltas_pruneDeltas (src : StrMap DomainDelta) :
    pruneDeltas (pruneDeltas src) = pruneDeltas src :=
  filter_filter_self _ _

@[simp] theorem pruneRules_pruneRules (src : StrMap (List α)) :
    pruneRules (pruneRules src) = pruneRules src :=
  filter_filter_self _ _

theorem Config.pruned_pruned (c : Config) : c.pruned.pruned = c.pruned := by
  simp [pruned]

@[simp] theorem all_isEmpty_pruneDeltas (src : StrMap DomainDelta) :
    (OrdMap.values (pruneDeltas src)).all DomainDelta.isEmpty =
      (OrdMap.values src).all DomainDelta.isEmpty := by
  rw [Bool.eq_iff_iff, all_eq_true, all_eq_true]
  constructor
  · -- A delta that is not empty would have been kept.
    intro h d hd
    by_contra hne
    obtain ⟨k, hk⟩ := mem_values.1 hd
    refine hne (h d (mem_values.2 ⟨k, ?_⟩))
    rw [pruneDeltas, Std.ExtTreeMap.getElem?_filter', hk]
    simp [Option.filter, hne]
  · intro h d hd
    obtain ⟨k, hk⟩ := mem_values.1 hd
    exact h d (mem_values.2 ⟨k, getElem?_of_filter hk⟩)

theorem Config.document_pruned (c : Config) : c.pruned.document = c.document := by
  have hdomains : serDomainsSection c.pruned.domains = serDomainsSection c.domains := by
    simp [serDomainsSection, pruned, serDomainDeltaMap, all_append]
  have hproxyRules : serRulesSection serProxyRules c.pruned.proxyRules.linked
      c.pruned.proxyRules.parked =
      serRulesSection serProxyRules c.proxyRules.linked c.proxyRules.parked := by
    simp [serRulesSection, pruned]
  have hrouteRules : serRulesSection serRouteRules c.pruned.routeRules.linked
      c.pruned.routeRules.parked =
      serRulesSection serRouteRules c.routeRules.linked c.routeRules.parked := by
    simp [serRulesSection, pruned]
  rw [document, hdomains, hproxyRules, hrouteRules]
  rfl

theorem Config.Loadable.pruned (h : c.Loadable) : c.pruned.Loadable :=
  ⟨h.version, h.php, h.services, h.linked, h.overrides⟩

theorem Config.PathsUtf8.pruned (h : c.PathsUtf8) : c.pruned.PathsUtf8 :=
  ⟨h.linked, h.projects⟩

/-- The library prints the configuration's document as a text it parses back to
the same document. -/
def TomlCrate.Faithful (toml : TomlCrate) (c : Config) : Prop :=
  ∀ v, c.document = .ok v → ∃ s, toml.toStringPretty v = .ok s ∧ toml.fromStr s = .ok v

theorem fromToml_of_document {v : Toml} (hv : c.document = .ok v) (hs : toml.fromStr s = .ok v) :
    Config.fromToml toml s = Config.fromDocument v := by
  have hversion : readVersion v = .ok currentVersion := by
    simp only [document, bind_eq_ok_iff, pure_eq_ok, Except.ok.injEq] at hv
    obtain ⟨linked, _, projects, _, rfl⟩ := hv
    rw [ofRecord, readVersion, find_recordEntries_cons, if_pos rfl]
    rfl
  rw [fromToml, hs]
  simp [hversion, Except.mapError]

theorem fromToml_toToml (hload : c.Loadable) (hvalid : validate c = .ok ()) (hpaths : c.PathsUtf8)
    (htoml : toml.Faithful c) :
    ∃ s, c.toToml toml = .ok s ∧ Config.fromToml toml s = .ok c.pruned := by
  obtain ⟨v, hv, hdecode⟩ := exists_document hpaths
  obtain ⟨s, hprint, hparse⟩ := htoml v hv
  refine ⟨s, ?_, ?_⟩
  · rw [toToml, hv, ok_bind, hprint]
    rfl
  · rw [fromToml_of_document hv hparse, fromDocument, hdecode]
    simp [Except.mapError, tryFrom_wireConfig hload, validate_pruned hvalid]

theorem Config.PathsUtf8.of_document {v : Toml} (h : c.document = .ok v) : c.PathsUtf8 := by
  have hpath : ∀ {p : Path} {t : Toml}, serPath p = .ok t → p.IsText := by
    intro p t ht
    rw [Path.isText_iff_toStr]
    intro hnone
    rw [serPath, hnone] at ht
    cases ht
  rw [document] at h
  obtain ⟨linked, hlinked, h⟩ := bind_eq_ok_iff.1 h
  obtain ⟨projects, hprojects, -⟩ := bind_eq_ok_iff.1 h
  constructor
  · intro s hs
    obtain ⟨t, -, ht⟩ := exists_mem_of_mapM_eq_ok hlinked hs
    rw [serSite] at ht
    obtain ⟨root, hroot, ht⟩ := bind_eq_ok_iff.1 ht
    obtain ⟨sub, hsub, -⟩ := bind_eq_ok_iff.1 ht
    exact ⟨hpath hroot, hpath hsub⟩
  · intro p hp
    obtain ⟨t, -, ht⟩ := exists_mem_of_mapM_eq_ok hprojects hp
    rw [serProject] at ht
    obtain ⟨root, hroot, -⟩ := bind_eq_ok_iff.1 ht
    exact hpath hroot

theorem tryFrom_of_reload {r : Config} (htoml : toml.Faithful c) (hsave : c.toToml toml = .ok s)
    (hload : Config.fromToml toml s = .ok r) : Config.tryFrom (wireConfig c) = .ok r := by
  rw [toToml] at hsave
  obtain ⟨v, hv, hprint⟩ := bind_eq_ok_iff.1 hsave
  obtain ⟨s', hs', hparse⟩ := htoml v hv
  rw [hs'] at hprint
  obtain rfl := Except.ok.inj hprint
  obtain ⟨v', hv', hdecode⟩ := exists_document (Config.PathsUtf8.of_document hv)
  obtain rfl := Except.ok.inj (hv.symm.trans hv')
  rw [fromToml_of_document hv hparse, fromDocument, hdecode] at hload
  simp only [Except.mapError, ok_bind] at hload
  obtain ⟨cfg, hcfg, hload⟩ := bind_eq_ok_iff.1 hload
  obtain ⟨-, -, hpure⟩ := bind_eq_ok_iff.1 hload
  obtain rfl := Except.ok.inj hpure
  exact hcfg

end Orcker.Schema
