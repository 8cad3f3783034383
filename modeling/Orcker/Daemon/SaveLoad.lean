import Orcker.Config.Reload
import Orcker.Daemon.Effects
import Orcker.Daemon.Link
import Orcker.Daemon.WebRoot

/-!
# Configurations survive being saved

No mutation can store a value that a load would drop or refuse, so what is saved is what the next
start finds.
-/

namespace Orcker.Daemon

open Base Orcker.Core Orcker.Schema

/-- The configurations a daemon can hold: one it loaded, changed by committed
mutations, web-root choices and project links. -/
inductive Reached (toml : TomlCrate) : Config → Prop
  | load {s : Str} {c : Config} (h : Config.fromToml toml s = .ok c) : Reached toml c
  | apply {c c' : Config} {a : Applied} (hc : Reached toml c) (router : SiteRouter) (req : Request)
      (canonical : Option Path) (h : apply c router req canonical c.php.default = .ok (c', a))
      (hvalid : validate c' = .ok ()) : Reached toml c'
  | webRoot {c c' : Config} {a : Applied} (hc : Reached toml c) (fs : Fs)
      (gatherProjectSignals : Path → ProjectSignals) (router : SiteRouter) (name : Str)
      (path : Option Str)
      (h : resolveWebRootMutation fs gatherProjectSignals c router name path = .ok (c', a))
      (hvalid : validate c' = .ok ()) : Reached toml c'
  | linkProject {c : Config} {project : ContainerProject} {writeYml : Option OrckerYml}
      (hc : Reached toml c) (root : Path) (requestedName : Option Str)
      (requestedPort : Option UInt16) (existingYml : Option OrckerYml) (isFree : UInt16 → Bool)
      (h : planLink c root requestedName requestedPort existingYml isFree =
        .ok (.link project writeYml))
      (hvalid : validate { c with projects := c.projects ++ [project] } = .ok ()) :
    Reached toml { c with projects := c.projects ++ [project] }

/-- A step changes no setting a load filters, and every PHP version it stores was
stored before or is the default. -/
structure Keeps (c c' : Config) : Prop where
  version : c'.version = c.version
  php : c'.php = c.php
  services : c'.services = c.services
  linked : ∀ s ∈ c'.linked, s.php = c.php.default ∨ ∃ s₀ ∈ c.linked, s₀.php = s.php
  overrides : ∀ (key : Str) (ov : SiteOverride), c'.overrides[key]? = some ov →
    ov.php = none ∨ ∃ (key₀ : Str) (ov₀ : SiteOverride),
      c.overrides[key₀]? = some ov₀ ∧ ov₀.php = ov.php

variable {c c' : Config}

theorem Keeps.loadable (h : Keeps c c') (hc : c.Loadable) : c'.Loadable where
  version := h.version.trans hc.version
  php := h.php ▸ hc.php
  services := h.services ▸ hc.services
  linked := by
    intro s hs
    rcases h.linked s hs with heq | ⟨s₀, hs₀, heq⟩
    · exact heq ▸ hc.php.default
    · exact heq ▸ hc.linked s₀ hs₀
  overrides := by
    intro key ov hov v hv
    rcases h.overrides key ov hov with hnone | ⟨key₀, ov₀, hov₀, heq⟩
    · rw [hnone] at hv
      cases hv
    · exact hc.overrides key₀ ov₀ hov₀ v (heq.trans hv)

theorem Keeps.of_linked (hversion : c'.version = c.version) (hphp : c'.php = c.php)
    (hservices : c'.services = c.services) (hoverrides : c'.overrides = c.overrides)
    (hlinked : ∀ s ∈ c'.linked, s.php = c.php.default ∨ ∃ s₀ ∈ c.linked, s₀.php = s.php) :
    Keeps c c' :=
  ⟨hversion, hphp, hservices, hlinked, fun key ov hov => .inr ⟨key, ov, hoverrides ▸ hov, rfl⟩⟩

theorem Keeps.of_eq (hversion : c'.version = c.version) (hphp : c'.php = c.php)
    (hservices : c'.services = c.services) (hoverrides : c'.overrides = c.overrides)
    (hlinked : c'.linked = c.linked) : Keeps c c' :=
  .of_linked hversion hphp hservices hoverrides fun s hs => .inr ⟨s, hlinked ▸ hs, rfl⟩

variable {key : Str} {g : SiteOverride → SiteOverride}

theorem Keeps.editOverride (hpin : ∀ ov, (g ov).php = ov.php) : Keeps c (editOverride c key g) := by
  refine ⟨rfl, rfl, rfl, fun s hs => .inr ⟨s, hs, rfl⟩, fun k ov hov => ?_⟩
  rw [Daemon.editOverride, OrdMap.getElem?_insert] at hov
  split at hov
  · -- The edited pin starts from the stored one, or from nothing pinned.
    obtain rfl := Option.some.inj hov
    rw [hpin]
    cases hkey : c.overrides[key]? with
    | none => exact .inl rfl
    | some ov₀ => exact .inr ⟨key, ov₀, hkey, rfl⟩
  · exact .inr ⟨k, ov, hov, rfl⟩

theorem Keeps.switched {f : Site.Setter} (hphp : ∀ s : Site, (s.set f).php = s.php)
    (hpin : ∀ ov, (g ov).php = ov.php) (h : Switched c (·.set f) g c') : Keeps c c' := by
  cases h with
  | linked hl =>
    refine .of_linked rfl rfl rfl rfl fun s hs => .inr ?_
    rcases mem_of_updateFirst hl hs with hs | ⟨s₀, hs₀, -, rfl⟩
    · exact ⟨s, hs, rfl⟩
    · exact ⟨s₀, hs₀, (hphp s₀).symm⟩
  | parked key => exact .editOverride hpin
  | proxies | projects => exact .of_eq rfl rfl rfl rfl rfl

variable {router : SiteRouter}

theorem Keeps.step (h : Step c router c.php.default c') : Keeps c c' := by
  cases h with
  | park | unpark | unlinkProject | domains | proxies | rules | groups =>
    exact .of_eq rfl rfl rfl rfl rfl
  | link hsite hnew =>
    refine .of_linked rfl rfl rfl rfl fun s hs => ?_
    rcases List.mem_append.1 hs with hs | hs
    · exact .inr ⟨s, hs, rfl⟩
    · -- The new site starts on the default version.
      obtain rfl := List.mem_singleton.1 hs
      obtain ⟨name, -, rfl⟩ := map_eq_ok_iff.1 hsite
      exact .inl rfl
  | unlink hsite =>
    refine .of_linked rfl rfl rfl rfl fun s hs => .inr ⟨s, ?_, rfl⟩
    exact (List.mem_filter.1 hs).1
  | switch h hphp hpin => exact .switched hphp hpin h

theorem Keeps.clearWebRoot : Keeps c (clearWebRoot c key) := by
  rw [Daemon.clearWebRoot]
  split
  · exact .of_eq rfl rfl rfl rfl rfl
  rename_i ov hov
  split
  · refine ⟨rfl, rfl, rfl, fun s hs => .inr ⟨s, hs, rfl⟩, fun k ov' hov' => .inr ⟨k, ov', ?_, rfl⟩⟩
    rw [OrdMap.getElem?_erase] at hov'
    split at hov'
    · cases hov'
    · exact hov'
  · refine ⟨rfl, rfl, rfl, fun s hs => .inr ⟨s, hs, rfl⟩, fun k ov' hov' => .inr ?_⟩
    rw [OrdMap.getElem?_insert] at hov'
    split at hov'
    · obtain rfl := Option.some.inj hov'
      exact ⟨key, ov, hov, rfl⟩
    · exact ⟨k, ov', hov', rfl⟩

theorem Keeps.webRoot {fs : Fs} {gatherProjectSignals : Path → ProjectSignals} {name : Str}
    {path : Option Str} {a : Applied}
    (h : resolveWebRootMutation fs gatherProjectSignals c router name path = .ok (c', a)) :
    Keeps c c' := by
  rw [resolveWebRootMutation] at h
  split at h
  · rename_i site hsite
    simp only [bind_eq_ok_iff, pure_eq_ok, Except.ok.injEq, Prod.mk.injEq] at h
    obtain ⟨rel, -, rfl, -⟩ := h
    refine .of_linked rfl rfl rfl rfl fun s hs => .inr ?_
    cases hl : updateFirst (fun s : Site => s.name.text = lower name)
        (·.set (.webSubpath (.ofStr rel))) c.linked with
    | none =>
      rw [hl] at hs
      exact ⟨s, hs, rfl⟩
    | some l =>
      rw [hl] at hs
      rcases mem_of_updateFirst hl hs with hs | ⟨s₀, hs₀, -, rfl⟩
      · exact ⟨s, hs, rfl⟩
      · exact ⟨s₀, hs₀, rfl⟩
  · split at h
    · cases h
    split at h
    · simp only [bind_eq_ok_iff, pure_eq_ok, Except.ok.injEq, Prod.mk.injEq] at h
      obtain ⟨rel, -, rfl, -⟩ := h
      exact .editOverride fun _ => rfl
    · cases h
      exact .clearWebRoot

/-- A configuration the daemon can hold is valid, and a load would keep all of it. -/
theorem Reached.loadable {toml : TomlCrate} (hc : Reached toml c) :
    c.Loadable ∧ validate c = .ok () := by
  induction hc with
  | load h => exact loadable_of_fromToml h
  | apply _ router req canonical h hvalid ih =>
    exact ⟨(Keeps.step (step_of_apply h)).loadable ih.1, hvalid⟩
  | webRoot _ fs gather router name path h hvalid ih =>
    exact ⟨(Keeps.webRoot h).loadable ih.1, hvalid⟩
  | @linkProject c project _ _ root requestedName requestedPort existingYml isFree h hvalid ih =>
    have hkeeps : Keeps c { c with projects := c.projects ++ [project] } :=
      .of_eq rfl rfl rfl rfl rfl
    exact ⟨hkeeps.loadable ih.1, hvalid⟩

/-- Every configuration the daemon can hold is written, comes back without the
deltas and rule lists that hold nothing, and from then on comes back unchanged. -/
theorem reached_save_load {toml : TomlCrate} {c : Config} (hc : Reached toml c)
    (hpaths : c.PathsUtf8) (htoml : toml.Faithful c) :
    ∃ s, c.toToml toml = .ok s ∧ Config.fromToml toml s = .ok c.pruned ∧
      ∃ s', c.pruned.toToml toml = .ok s' ∧ Config.fromToml toml s' = .ok c.pruned := by
  obtain ⟨hload, hvalid⟩ := hc.loadable
  obtain ⟨s, hs, hback⟩ := fromToml_toToml hload hvalid hpaths htoml
  refine ⟨s, hs, hback, ?_⟩
  -- The pruned configuration has the same document, so the library is faithful on it too.
  have htoml' : toml.Faithful c.pruned := fun v hv => htoml v (c.document_pruned ▸ hv)
  have hagain := fromToml_toToml hload.pruned (validate_pruned hvalid) hpaths.pruned htoml'
  rwa [c.pruned_pruned] at hagain

/-- A library that knows some texts and what they say. -/
def tomlOf (known : List (Str × Toml)) : TomlCrate where
  fromStr s :=
    match known.find? fun e => e.1 = s with
    | some e => .ok e.2
    | none => .error "unknown text"
  toStringPretty v :=
    match known.find? fun e => e.2.same v with
    | some e => .ok e.1
    | none => .error "unknown value"

theorem tomlOf_fromStr {e₁ e₂ : Str × Toml} (hne : e₁.1 ≠ e₂.1) :
    (tomlOf [e₁, e₂]).fromStr e₂.1 = .ok e₂.2 := by
  simp [tomlOf, List.find?, hne]

/-- The settings a first start writes. -/
def settingsLines : List String :=
  ["",
   "[php.settings]",
   "display_errors = \"On\"",
   "error_reporting = \"E_ALL\"",
   "max_execution_time = \"60\"",
   "max_file_uploads = \"20\"",
   "max_input_time = \"60\"",
   "memory_limit = \"512M\"",
   "post_max_size = \"100M\"",
   "upload_max_filesize = \"100M\""]

def settingsTable : Toml :=
  .table ((OrdMap.collect PhpSettings.defaultSettings).toList.map fun s => (s.1, .string s.2))

def textOf (lines : List String) : Str := lines.flatMap fun line => line.toList ++ ['\n']

/-- What is written after a first start with one parked directory. -/
def parkedLines : List String :=
  ["version = 24",
   "tld = \"test\"",
   "dns_port = 1053",
   "update_channel = \"stable\"",
   "symlink_protection = true",
   "mcp_enabled = false",
   "lan_enabled = false",
   "lan_setup_port = 7073",
   "linked = []",
   "",
   "[ports]",
   "http = 80",
   "https = 443",
   "fallback_http = 8080",
   "fallback_https = 8443",
   "",
   "[php]",
   "default = \"8.3\""] ++ settingsLines ++
  ["",
   "[parked]",
   "paths = [\"/srv/sites\"]"]

def parkedDocument : Toml :=
  .table [
    ("dns_port", .integer 1053),
    ("lan_enabled", .boolean false),
    ("lan_setup_port", .integer 7073),
    ("linked", .array []),
    ("mcp_enabled", .boolean false),
    ("parked", .table [("paths", .array [.string "/srv/sites"])]),
    ("php", .table [("default", .string "8.3"), ("settings", settingsTable)]),
    ("ports", .table [
      ("fallback_http", .integer 8080),
      ("fallback_https", .integer 8443),
      ("http", .integer 80),
      ("https", .integer 443)]),
    ("symlink_protection", .boolean true),
    ("tld", .string "test"),
    ("update_channel", .string "stable"),
    ("version", .integer 24)]

/-- A text that says nothing but its version and those settings. -/
def firstEntry : Str × Toml :=
  (textOf (["version = 24", "", "[php]", "default = \"8.3\""] ++ settingsLines),
    .table [("php", .table [("default", .string "8.3"), ("settings", settingsTable)]),
      ("version", .integer 24)])

def parkedEntry : Str × Toml := (textOf parkedLines, parkedDocument)

def twoTexts : TomlCrate := tomlOf [firstEntry, parkedEntry]

theorem twoTexts_fromStr : twoTexts.fromStr parkedEntry.1 = .ok parkedEntry.2 := by
  have hne : firstEntry.1 ≠ parkedEntry.1 := by decide +kernel
  rw [twoTexts, tomlOf_fromStr hne]

/-- The config with its settings collected in the order of their names, as they are read. -/
def reread (cfg : Config) : Config :=
  { cfg with php.settings := .collect cfg.php.settings.toList }

theorem reread_eq (cfg : Config) : reread cfg = cfg := by
  rw [reread, OrdMap.collect_toList]

theorem load_firstEntry : Config.fromToml twoTexts firstEntry.1 = .ok Config.default := by
  have hload : Config.fromToml twoTexts firstEntry.1 = .ok (reread Config.default) := by
    decide +kernel
  rwa [reread_eq] at hload

def parkedConfig : Config := { Config.default with parked := ⟨StrSet.collect ["/srv/sites"]⟩ }

theorem reached_parkedConfig : Reached twoTexts parkedConfig := by
  have hpark : apply Config.default (SiteRouter.new (.withTld Config.default.tld)) (.park "/srv/sites")
      (some "/srv/sites") Config.default.php.default =
      .ok (parkedConfig, ⟨"parked /srv/sites"⟩) := by decide +kernel
  have hvalid : validate parkedConfig = .ok () := by decide +kernel
  exact .apply (.load load_firstEntry) _ _ _ hpark hvalid

theorem document_parkedConfig : parkedConfig.document = .ok parkedDocument := by
  rfl

theorem reached_save_load_parked :
    ∃ s, parkedConfig.toToml twoTexts = .ok s ∧
      Config.fromToml twoTexts s = .ok parkedConfig.pruned ∧
      ∃ s', parkedConfig.pruned.toToml twoTexts = .ok s' ∧
        Config.fromToml twoTexts s' = .ok parkedConfig.pruned := by
  refine reached_save_load reached_parkedConfig ⟨?_, ?_⟩ ?_
  · intro s hs
    cases hs
  · intro p hp
    cases hp
  · intro v hv
    obtain rfl := Except.ok.inj (document_parkedConfig.symm.trans hv)
    exact ⟨parkedEntry.1, by decide +kernel, twoTexts_fromStr⟩

end Orcker.Daemon
