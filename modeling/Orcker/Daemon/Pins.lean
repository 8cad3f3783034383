import Orcker.Daemon.AddDomain

/-!
# What is pinned for a parked site

A parked site has no entry of its own; what was set for it is kept under its document root and
re-applied by every scan. Each handler changes one part of that entry. The
reset of the web root also drops an entry that it takes for empty.
-/

namespace Orcker.Daemon

open Base Orcker.Core Orcker.Schema

/-- What is pinned under a document root; nothing without an entry. -/
def pinned (cfg : Config) (key : Str) : SiteOverride := cfg.overrides[key]?.getD .default

/-- The pins under `key` are changed by `f`, those under other keys stay. -/
structure Repins (c c' : Config) (key : Str) (f : SiteOverride → SiteOverride) : Prop where
  here : pinned c' key = f (pinned c key)
  others : ∀ k, k ≠ key → c'.overrides[k]? = c.overrides[k]?

variable {c c' : Config} {key : Str}

theorem repins_editOverride (c : Config) (key : Str) (f : SiteOverride → SiteOverride) :
    Repins c (editOverride c key f) key f where
  here := by
    unfold pinned editOverride
    rw [OrdMap.getElem?_insert, if_pos rfl, Option.getD_some]
  others k hk := by
    unfold editOverride
    rw [OrdMap.getElem?_insert, if_neg hk]

theorem pinned_clearWebRoot (c : Config) (key : Str) :
    pinned (clearWebRoot c key) key =
      if (pinned c key).php.isNone && (pinned c key).secure.isNone then .default
      else { pinned c key with webRoot := none } := by
  unfold clearWebRoot pinned
  cases hov : c.overrides[key]? with
  | none =>
    simp only [hov]
    rfl
  | some ov =>
    simp only [Option.getD_some]
    split
    · rw [OrdMap.getElem?_erase, if_pos rfl, Option.getD_none]
    · rw [OrdMap.getElem?_insert, if_pos rfl, Option.getD_some]

theorem getElem?_clearWebRoot {k : Str} (hk : k ≠ key) :
    (clearWebRoot c key).overrides[k]? = c.overrides[k]? := by
  unfold clearWebRoot
  cases c.overrides[key]? with
  | none => rfl
  | some ov =>
    simp only
    split
    · rw [OrdMap.getElem?_erase, if_neg hk]
    · rw [OrdMap.getElem?_insert, if_neg hk]

/-- The reset looks at two of the other pins, and sees one; or there is none it could miss. -/
def ResetKeeps (ov : SiteOverride) : Prop :=
  ov.php.isSome ∨ ov.secure.isSome ∨
    ov.wpAutoLogin = none ∧ ov.wpAutoLoginUser = none ∧ ov.frontController = none

theorem repins_clearWebRoot_iff :
    Repins c (clearWebRoot c key) key (fun ov => { ov with webRoot := none }) ↔
      ResetKeeps (pinned c key) := by
  have hhere : Repins c (clearWebRoot c key) key (fun ov => { ov with webRoot := none }) ↔
      pinned (clearWebRoot c key) key = { pinned c key with webRoot := none } :=
    ⟨fun h => h.here, fun h => ⟨h, fun k hk => getElem?_clearWebRoot hk⟩⟩
  rw [hhere, pinned_clearWebRoot, ResetKeeps]
  obtain ⟨php, secure, webRoot, login, user, front⟩ := pinned c key
  cases php <;> cases secure <;> simp [SiteOverride.default, eq_comm]

section Handlers

variable {router : SiteRouter} {name : Str} {s : Site} {a : Applied}

/-- The name is that of a parked site: the router has it, and no linked site does. -/
structure IsParked (c : Config) (router : SiteRouter) (nameLc : Str) (s : Site) : Prop where
  site : router.sites[nameLc]? = some s
  notLinked : ∀ t ∈ c.linked, t.name.text ≠ nameLc

theorem IsParked.updateFirst (h : IsParked c router (lower name) s) (f : Site → Site) :
    Base.updateFirst (fun t : Site => t.name.text = lower name) f c.linked = none :=
  updateFirst_eq_none_iff.2 fun t ht => by simpa using h.notLinked t ht

theorem IsParked.find?_linked (h : IsParked c router (lower name) s) :
    c.linked.find? (fun t => t.name.text = lower name) = none :=
  List.find?_eq_none.2 fun t ht => by simpa using h.notLinked t ht

theorem resolveWebRootMutation_reset (fs : Fs) (gatherProjectSignals : Path → ProjectSignals)
    (h : IsParked c router (lower name) s) :
    resolveWebRootMutation fs gatherProjectSignals c router name none =
      .ok (clearWebRoot c (overrideKey s), ⟨lower name ++ " web root reset to auto-detect"⟩) := by
  unfold resolveWebRootMutation
  simp only [h.find?_linked, h.site]

end Handlers

theorem isParked_of_scan {world : ScanWorld} {defaultPhp : PhpVersion} {sites : List Site}
    {watch : List Path} {n : Str} {s : Site}
    (hscan : scanSites world defaultPhp c = .ok (sites, watch))
    (hs : (build c sites).router.sites[n]? = some s) (hn : n ∉ linkedNames c) :
    IsParked c (build c sites).router n s ∧ ∃ watch,
      buildParkedSite world defaultPhp c s.name.text s.documentRoot = some (s, watch) := by
  have hlinked : ∀ t ∈ c.linked, t.name.text ≠ n :=
    fun t ht hname => hn (List.mem_map.2 ⟨t, ht, hname⟩)
  refine ⟨⟨hs, hlinked⟩, ?_⟩
  rw [build_sites] at hs
  have hname : s.name.text = n := by simpa using List.find?_some hs
  obtain ⟨parked, rfl, hparked⟩ := scanSites_spec hscan
  rcases List.mem_append.1 (List.mem_of_find?_eq_some hs) with hmem | hmem
  · obtain ⟨root, -, entries, -, entry, -, watch', hentry⟩ := (hparked s).1 hmem
    have hbuild := (scanEntry_eq_some_iff.1 hentry).2
    obtain ⟨-, -, -, -, hroot⟩ := buildParkedSite_eq_some hbuild
    rw [← hroot] at hbuild
    exact ⟨watch', hbuild⟩
  · exact absurd hname (hlinked s hmem)

/-- For every configuration, every router and every parked site of it: a successful setting changes
the one pin it names and no other document root's. The reset of the web root does so exactly if a
version or the secure flag is pinned, or neither a login nor the front controller is. -/
theorem setting_keeps_others_iff (fs : Fs) (gatherProjectSignals : Path → ProjectSignals)
    (c : Config) (router : SiteRouter) (name : Str) (s : Site) (canonical : Option Path)
    (defaultPhp : PhpVersion) (h : IsParked c router (lower name) s) :
    (∀ secure c' a,
      apply c router (.setSecure name secure) canonical defaultPhp = .ok (c', a) →
      Repins c c' (overrideKey s) fun ov => { ov with secure := some secure }) ∧
    (∀ enabled c' a,
      apply c router (.setFrontController name enabled) canonical defaultPhp = .ok (c', a) →
      Repins c c' (overrideKey s) fun ov => { ov with frontController := some enabled }) ∧
    (∀ p c' a,
      resolveWebRootMutation fs gatherProjectSignals c router name (some p) = .ok (c', a) →
      ∃ rel, resolveWebRootWithin fs s.documentRoot p = .ok rel ∧
        Repins c c' (overrideKey s) fun ov => { ov with webRoot := some rel }) ∧
    ∀ c' a, resolveWebRootMutation fs gatherProjectSignals c router name none = .ok (c', a) →
      (∀ k, k ≠ overrideKey s → c'.overrides[k]? = c.overrides[k]?) ∧
      ((Repins c c' (overrideKey s) fun ov => { ov with webRoot := none }) ↔
        ResetKeeps (pinned c (overrideKey s))) := by
  refine ⟨fun secure c' a happly => ?_, fun enabled c' a happly => ?_, fun p c' a happly => ?_,
    fun c' a happly => ?_⟩
  · simp only [apply, applySetSecure, h.updateFirst, h.site] at happly
    cases happly
    exact repins_editOverride _ _ _
  · simp only [apply, applySetFrontController, h.updateFirst, h.site] at happly
    cases happly
    exact repins_editOverride _ _ _
  · simp only [resolveWebRootMutation, h.find?_linked, h.site] at happly
    obtain ⟨rel, hrel, hpair⟩ := bind_eq_ok_iff.1 happly
    cases hpair
    exact ⟨rel, hrel, repins_editOverride _ _ _⟩
  · rw [resolveWebRootMutation_reset fs gatherProjectSignals h] at happly
    cases happly
    exact ⟨fun k hk => getElem?_clearWebRoot hk, repins_clearWebRoot_iff⟩

def blogKey : Str := "/srv/sites/blog".toList

def pinnedConfig (ov : SiteOverride) : Config :=
  { parkedConfig with overrides := (∅ : StrMap SiteOverride).insert blogKey ov }

def loginPin : SiteOverride := { SiteOverride.default with wpAutoLogin := some true }

def securedPin : SiteOverride := { loginPin with secure := some true }

/-- The parked site as a scan finds it. -/
def pinnedSite (ov : SiteOverride) : Site := applyOverride ov (blogSite .parked)

def pinnedRouter (ov : SiteOverride) : SiteRouter :=
  (build (pinnedConfig ov) [pinnedSite ov]).router

/-- A reset reads no disk. -/
def bareDisk : FsTable := ⟨[], [], nofun, nofun⟩

def noSignals (_ : Path) : ProjectSignals := ⟨∅, ∅, ∅⟩

theorem setting_keeps_others_secured :
    ∃ c' a, resolveWebRootMutation bareDisk.toFs noSignals (pinnedConfig securedPin)
        (pinnedRouter securedPin) "Blog" none = .ok (c', a) ∧
      Repins (pinnedConfig securedPin) c' blogKey fun ov => { ov with webRoot := none } := by
  have hscan : scanSites blogWorld defaultPhp (pinnedConfig securedPin) =
      .ok ([pinnedSite securedPin], []) := by decide +kernel
  have hsite : (pinnedRouter securedPin).sites[lower "Blog"]? = some (pinnedSite securedPin) := by
    decide +kernel
  have hparked := (isParked_of_scan hscan hsite (by decide +kernel)).1
  have hreset := resolveWebRootMutation_reset bareDisk.toFs noSignals hparked
  have hkeeps := setting_keeps_others_iff bareDisk.toFs noSignals _ _ _ _ none defaultPhp hparked
  exact ⟨_, _, hreset, ((hkeeps.2.2.2 _ _ hreset).2).2 (.inr (.inl (by decide +kernel)))⟩

/-- The automatic login was on and nothing else pinned; the reset turns it off. -/
theorem reset_forgets_login :
    scanSites blogWorld defaultPhp (pinnedConfig loginPin) = .ok ([pinnedSite loginPin], []) ∧
      (pinnedSite loginPin).wpAutoLogin = true ∧
      (resolveWebRootMutation bareDisk.toFs noSignals (pinnedConfig loginPin)
        (pinnedRouter loginPin) "blog" none).toOption.map Prod.fst = some parkedConfig ∧
      (pinned parkedConfig blogKey).wpAutoLogin = none ∧
      scanSites blogWorld defaultPhp parkedConfig = .ok ([blogSite .parked], []) ∧
      (blogSite .parked).wpAutoLogin = false := by
  decide +kernel

end Orcker.Daemon
