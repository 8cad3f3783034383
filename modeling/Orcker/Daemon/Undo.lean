import Orcker.Daemon.LinkProject
import Orcker.Daemon.Relink

/-!
# Additions and their removals

A rule is added to the list of its site and taken out of it by its prefix; what is stored for a
directory goes to a linked name and comes back. Either way the configuration is to be the one from
before, to the last entry.
-/

namespace Base

variable {κ β : Type} [Ord κ] [Std.TransOrd κ] [Std.LawfulEqOrd κ] [DecidableEq κ]

theorem OrdMap.put_put (m : OrdMap κ β) (k : κ) (o o' : Option β) :
    (m.put k o).put k o' = m.put k o' := by
  refine Std.ExtTreeMap.ext_getElem? fun a => ?_
  simp only [getElem?_put]
  split <;> rfl

theorem OrdMap.put_self (m : OrdMap κ β) (k : κ) : m.put k m[k]? = m := by
  refine Std.ExtTreeMap.ext_getElem? fun a => ?_
  rw [getElem?_put]
  split
  · rename_i h
    rw [h]
  · rfl

theorem moveEntry_moveEntry {src dst : OrdMap κ β} {k k' : κ} (h : dst[k']? = none) :
    moveEntry (moveEntry src dst k k').2 (moveEntry src dst k k').1 k' k = (dst, src) := by
  refine Prod.ext (Std.ExtTreeMap.ext_getElem? fun a => ?_)
    (Std.ExtTreeMap.ext_getElem? fun a => ?_)
  · simp only [getElem?_moveEntry_fst, getElem?_moveEntry_snd]
    split
    · rename_i ha
      rw [ha, h]
    · rfl
  · simp only [getElem?_moveEntry_snd, getElem?_moveEntry_fst, if_true, h, Option.or_none]
    split
    · rename_i ha
      rw [ha, Option.or_none]
    · rfl

end Base

namespace Orcker.Daemon

open Base Orcker.Core Orcker.Schema List

/-- The texts differ in slashes at their ends only. -/
def SameButSlashes (p p' : Str) : Prop :=
  ∃ base i j, p = base ++ List.replicate i '/' ∧ p' = base ++ List.replicate j '/'

theorem normalizePrefix_slashes {base : Str} (h : base ≠ []) (k : Nat) :
    normalizePrefix (base ++ List.replicate k '/') = normalizePrefix base := by
  induction k with
  | zero => simp
  | succ k ih =>
    rw [← ih, replicate_succ', ← append_assoc]
    obtain ⟨c, rest, hrest⟩ := exists_cons_of_ne_nil
      (show (base ++ replicate k '/').reverse ≠ [] by simp [h])
    rw [normalizePrefix, normalizePrefix, reverse_append, hrest]
    rfl

/-- All spellings have one normal form, but for the empty one. -/
theorem normalizePrefix_eq_iff {p p' : Str} (h : SameButSlashes p p') (hp : p ≠ []) :
    normalizePrefix p' = normalizePrefix p ↔ p' ≠ [] := by
  obtain ⟨base, i, j, rfl, rfl⟩ := h
  by_cases hbase : base = []
  · subst hbase
    have hroot : ∀ k, normalizePrefix (replicate (k + 1) '/') = ['/'] := by
      intro k
      rw [replicate_succ, ← singleton_append]
      exact normalizePrefix_slashes (by simp) k
    obtain ⟨i, rfl⟩ := Nat.exists_eq_succ_of_ne_zero fun hi : i = 0 => hp (by rw [hi]; rfl)
    rw [nil_append, nil_append, hroot]
    cases j with
    | zero => simp [normalizePrefix, dropSlashes]
    | succ j => simp [hroot]
  · rw [normalizePrefix_slashes hbase, normalizePrefix_slashes hbase]
    simp [hbase]

section Rules

variable {α : Type} {maps maps' : StrMap (List α) × StrMap (List α)} {key : Bool × Str}

/-- The rules under a key of the linked or the parked map. -/
def ruleEntry (maps : StrMap (List α) × StrMap (List α)) (key : Bool × Str) : Option (List α) :=
  if key.1 then maps.1[key.2]? else maps.2[key.2]?

def putRules (maps : StrMap (List α) × StrMap (List α)) (key : Bool × Str)
    (rules : Option (List α)) : StrMap (List α) × StrMap (List α) :=
  if key.1 then (maps.1.put key.2 rules, maps.2) else (maps.1, maps.2.put key.2 rules)

theorem editRules_eq_ok_iff {f : Option (List α) → Except MutateError (Option (List α))} :
    editRules maps key f = .ok maps' ↔
      ∃ rules, f (ruleEntry maps key) = .ok rules ∧ putRules maps key rules = maps' := by
  unfold editRules ruleEntry putRules
  obtain ⟨side, name⟩ := key
  cases side <;> simp [bind_eq_ok_iff]

@[simp] theorem ruleEntry_putRules (rules : Option (List α)) :
    ruleEntry (putRules maps key rules) key = rules := by
  unfold ruleEntry putRules
  split <;> simp

@[simp] theorem putRules_putRules (rules rules' : Option (List α)) :
    putRules (putRules maps key rules) key rules' = putRules maps key rules' := by
  unfold putRules
  split <;> simp [OrdMap.put_put]

theorem putRules_ruleEntry : putRules maps key (ruleEntry maps key) = maps := by
  unfold putRules ruleEntry
  split <;> simp [OrdMap.put_self]

variable {pathPrefix : α → Str} {noun nameLc wanted : Str} {rule : α} {rules : List α}

theorem dropRule_push (hnew : ∀ r ∈ rules, pathPrefix r ≠ pathPrefix rule) :
    dropRule pathPrefix noun nameLc (pathPrefix rule) (some (rules ++ [rule])) =
      .ok (if rules.isEmpty then none else some rules) := by
  have hkept : (rules ++ [rule]).filter (fun r => pathPrefix r ≠ pathPrefix rule) = rules := by
    rw [filter_append, filter_eq_self.2 fun r hr => by simpa using hnew r hr]
    simp
  unfold dropRule
  simp only [hkept]
  rw [if_neg (by simp)]

theorem editRules_undone_iff
    (hadd : editRules maps key (fun rules =>
      some <$> pushRule pathPrefix noun nameLc rule (rules.getD [])) = .ok maps')
    (hne : ruleEntry maps key ≠ some []) :
    editRules maps' key (dropRule pathPrefix noun nameLc wanted) = .ok maps ↔
      wanted = pathPrefix rule := by
  obtain ⟨entry, hpush, rfl⟩ := editRules_eq_ok_iff.1 hadd
  obtain ⟨rules, hrules, rfl⟩ := map_eq_ok_iff.1 hpush
  unfold pushRule at hrules
  split at hrules
  · cases hrules
  rename_i hfree
  obtain rfl := Except.ok.inj hrules
  have hnew : ∀ r ∈ (ruleEntry maps key).getD [], pathPrefix r ≠ pathPrefix rule := by
    simpa using hfree
  rw [editRules_eq_ok_iff]
  simp only [ruleEntry_putRules, putRules_putRules]
  constructor
  · rintro ⟨entry, hdrop, hmaps⟩
    by_contra hother
    -- The rule is kept, but the section had none for its prefix.
    obtain rfl : ruleEntry maps key = entry := by
      rw [← hmaps, ruleEntry_putRules]
    unfold dropRule at hdrop
    simp only at hdrop
    split at hdrop
    · cases hdrop
    have hmem : rule ∈ ((ruleEntry maps key).getD [] ++ [rule]).filter
        fun r => pathPrefix r ≠ wanted := by
      simp [Ne.symm hother]
    rw [if_neg (by simpa using ne_nil_of_mem hmem)] at hdrop
    refine hnew rule ?_ rfl
    rw [← Except.ok.inj hdrop, Option.getD_some]
    exact hmem
  · rintro rfl
    refine ⟨_, dropRule_push hnew, ?_⟩
    cases hentry : ruleEntry maps key with
    | none =>
      show putRules maps key none = maps
      rw [← hentry, putRules_ruleEntry]
    | some rules =>
      rw [hentry] at hne
      rw [Option.getD_some, if_neg (by simpa using hne), ← hentry, putRules_ruleEntry]

end Rules

section Handlers

variable {c c' : Config} {router router' : SiteRouter} {a : Applied} {site pathPrefix : Str}

theorem findRuleKey_eq_ok_iff {nameLc : Str} {key : Bool × Str} :
    findRuleKey c router nameLc = .ok key ↔ siteRuleKey router nameLc = some key := by
  unfold findRuleKey
  cases siteRuleKey router nameLc <;> simp

theorem siteRuleKey_congr (h : ∀ n : Str, router'.sites[n]? = router.sites[n]?) {nameLc : Str} :
    siteRuleKey router' nameLc = siteRuleKey router nameLc := by
  rw [siteRuleKey, siteRuleKey, h]

/-- No list of rules is empty. -/
structure NoEmptyRules (c : Config) : Prop where
  proxy : ∀ key, ruleEntry (c.proxyRules.linked, c.proxyRules.parked) key ≠ some []
  route : ∀ key, ruleEntry (c.routeRules.linked, c.routeRules.parked) key ≠ some []

section Rules

variable {pathPrefix' : Str} (hrules : NoEmptyRules c)
  (hspelling : SameButSlashes pathPrefix pathPrefix')
  (hsites : ∀ n : Str, router'.sites[n]? = router.sites[n]?)

include hrules hspelling hsites

theorem proxyRule_undone_iff {url : Str}
    (h : applyAddProxyRule c router site pathPrefix url = .ok (c', a)) :
    (∃ a', applyRemoveProxyRule c' router' site pathPrefix' = .ok (c, a')) ↔ pathPrefix' ≠ [] := by
  simp only [applyAddProxyRule, bind_eq_ok_iff, mapError_eq_ok_iff, pure_eq_ok, Except.ok.injEq,
    Prod.mk.injEq, findRuleKey_eq_ok_iff] at h
  obtain ⟨target, -, rule, hnew, key, hkey, maps, hadd, rfl, -⟩ := h
  obtain ⟨hrule, -, hne⟩ := ProxyRule.new_ok hnew
  rw [← siteRuleKey_congr hsites] at hkey
  rw [← normalizePrefix_eq_iff hspelling hne, ← hrule,
    ← editRules_undone_iff hadd (hrules.proxy key)]
  simp only [applyRemoveProxyRule, bind_eq_ok_iff, pure_eq_ok, Except.ok.injEq, Prod.mk.injEq,
    findRuleKey_eq_ok_iff, hkey, Option.some.injEq]
  constructor
  · rintro ⟨a, key, rfl, maps', hdrop, hc, -⟩
    obtain ⟨hlinked, hparked⟩ := ProxyRulesSection.mk.inj (congrArg Config.proxyRules hc)
    rw [hdrop, ← hlinked, ← hparked]
  · intro hdrop
    exact ⟨_, key, rfl, _, hdrop, rfl, rfl⟩

theorem routeRule_undone_iff {target : Str}
    (h : applyAddRouteRule c router site pathPrefix target = .ok (c', a)) :
    (∃ a', applyRemoveRouteRule c' router' site pathPrefix' = .ok (c, a')) ↔ pathPrefix' ≠ [] := by
  simp only [applyAddRouteRule, bind_eq_ok_iff, mapError_eq_ok_iff, pure_eq_ok, Except.ok.injEq,
    Prod.mk.injEq, findRuleKey_eq_ok_iff] at h
  obtain ⟨rule, hnew, key, hkey, maps, hadd, rfl, -⟩ := h
  obtain ⟨hrule, hne⟩ := RouteRule.new_ok hnew
  rw [← siteRuleKey_congr hsites] at hkey
  rw [← normalizePrefix_eq_iff hspelling hne, ← hrule,
    ← editRules_undone_iff hadd (hrules.route key)]
  simp only [applyRemoveRouteRule, bind_eq_ok_iff, pure_eq_ok, Except.ok.injEq, Prod.mk.injEq,
    findRuleKey_eq_ok_iff, hkey, Option.some.injEq]
  constructor
  · rintro ⟨a, key, rfl, maps', hdrop, hc, -⟩
    obtain ⟨hlinked, hparked⟩ := RouteRulesSection.mk.inj (congrArg Config.routeRules hc)
    rw [hdrop, ← hlinked, ← hparked]
  · intro hdrop
    exact ⟨_, key, rfl, _, hdrop, rfl, rfl⟩

end Rules

/-- Nothing is stored under the name. -/
def NothingLinked (c : Config) (n : Str) : Prop :=
  c.domains.linked[n]? = none ∧ c.proxyRules.linked[n]? = none ∧ c.routeRules.linked[n]? = none

theorem unlinkedConfig_linkedConfig {s : Site} (hfree : ∀ t ∈ c.linked, t.name.text ≠ s.name.text)
    (hnothing : NothingLinked c s.name.text)
    (hparent : parentIsParkedRoot c (overrideKey s) = true) :
    unlinkedConfig (linkedConfig c s) s = c := by
  have hlinked : (c.linked ++ [s]).filter (fun t => t.name.text ≠ s.name.text) = c.linked := by
    rw [filter_append, filter_eq_self.2 fun t ht => by simpa using hfree t ht]
    simp
  have hreparks : parentIsParkedRoot (linkedConfig c s) (overrideKey s) = true := hparent
  unfold unlinkedConfig
  simp only [hreparks, demote, if_true]
  simp only [linkedConfig, moveEntry_moveEntry hnothing.1, moveEntry_moveEntry hnothing.2.1,
    moveEntry_moveEntry hnothing.2.2, hlinked]

theorem link_undone_iff {name : Str} {path : Path} {php : PhpVersion}
    (h : applyLink c name (some path) php = .ok (c', a))
    (hparent : parentIsParkedRoot c path.toStringLossy = true)
    (hnothing : NothingLinked c (lower name)) :
    (∃ a', applyUnlink c' router name = .ok (c, a')) ↔
      ∀ p ∈ c.projects, p.name.text ≠ lower name := by
  obtain ⟨path, s, hpath, hs, hfree, rfl⟩ := applyLink_ok h
  obtain rfl := Option.some.inj hpath
  obtain ⟨hname, hkey⟩ := name_of_siteLinked hs
  constructor
  · rintro ⟨a', hunlink⟩
    rcases applyUnlink_ok hunlink with ⟨-, hc⟩ | ⟨hprojects, -⟩
    · -- Without the project only, the link is still there.
      have hlength := congrArg (fun c : Config => c.linked.length) hc
      simp [withoutProject, linkedConfig] at hlength
    · exact hprojects
  · intro hprojects
    have hproject : (linkedConfig c s).projects.find? (fun p => p.name.text = lower name) = none :=
      find?_eq_none.2 fun p hp => by simpa using hprojects p hp
    have hfind : (linkedConfig c s).linked.find? (fun t => t.name.text = lower name) = some s := by
      show (c.linked ++ [s]).find? _ = _
      rw [find?_append, find?_eq_none.2 fun t ht => by simpa [hname] using hfree t ht]
      simp [hname]
    refine ⟨⟨"unlinked " ++ lower name⟩, ?_⟩
    rw [applyUnlink]
    simp only [hproject, hfind]
    rw [← hname] at hnothing ⊢
    exact congrArg (fun c : Config => Except.ok (c, (⟨"unlinked " ++ s.name.text⟩ : Applied)))
      (unlinkedConfig_linkedConfig hfree hnothing (hkey ▸ hparent))

end Handlers

/-- For every configuration without empty rule lists and every router built from it. A rule that was
added is taken out, under this router or the next, by exactly those spellings of its prefix that are
not empty. A directory that was linked below a parked root, under a name for which nothing was
stored, is unlinked by that name exactly if no project has it. Either gives the configuration
back. -/
theorem removal_undoes_addition_iff (c : Config) (hrules : NoEmptyRules c) (sites : List Site)
    (php : PhpVersion) :
    let router := (build c sites).router
    (∀ site pathPrefix pathPrefix' url c' a, SameButSlashes pathPrefix pathPrefix' →
      apply c router (.addProxyRule site pathPrefix url) none php = .ok (c', a) →
      ∀ router' ∈ [router, (build c' sites).router],
        ((∃ a', apply c' router' (.removeProxyRule site pathPrefix') none php = .ok (c, a')) ↔
          pathPrefix' ≠ [])) ∧
    (∀ site pathPrefix pathPrefix' target c' a, SameButSlashes pathPrefix pathPrefix' →
      apply c router (.addRouteRule site pathPrefix target) none php = .ok (c', a) →
      ∀ router' ∈ [router, (build c' sites).router],
        ((∃ a', apply c' router' (.removeRouteRule site pathPrefix') none php = .ok (c, a')) ↔
          pathPrefix' ≠ [])) ∧
    ∀ name raw path c' a, apply c router (.link raw name) (some path) php = .ok (c', a) →
      parentIsParkedRoot c path.toStringLossy = true → NothingLinked c (lower name) →
      ∀ router', (∃ a', apply c' router' (.unlink name) none php = .ok (c, a')) ↔
        ∀ p ∈ c.projects, p.name.text ≠ lower name := by
  intro router
  have hsites (c' : Config) : ∀ router' ∈ [router, (build c' sites).router], ∀ n : Str,
      router'.sites[n]? = router.sites[n]? := by
    intro router' hrouter' n
    rcases mem_pair.1 hrouter' with rfl | rfl
    · rfl
    · show (build c' sites).router.sites[n]? = (build c sites).router.sites[n]?
      rw [build_sites, build_sites]
  refine ⟨fun site pathPrefix pathPrefix' url c' a hspelling h router' hrouter' => ?_,
    fun site pathPrefix pathPrefix' target c' a hspelling h router' hrouter' => ?_,
    fun name raw path c' a h hparent hnothing router' => link_undone_iff h hparent hnothing⟩
  · exact proxyRule_undone_iff hrules hspelling (hsites c' router' hrouter') h
  · exact routeRule_undone_iff hrules hspelling (hsites c' router' hrouter') h

def upstream : UpstreamTarget := ContainerProject.loopback 9000 (by decide)

def rootRule : ProxyRule where
  pathPrefix := "/"
  target := upstream
  wellFormed := (@checkPathPrefix_eq_ok_iff Unit () () () () _).1 (by decide)
  normal := by decide

def rootRuleConfig : Config :=
  { parkedConfig with proxyRules := ⟨∅, OrdMap.put ∅ "/srv/sites/blog" (some [rootRule])⟩ }

def blogRouter (c : Config) : SiteRouter := (build c [blogSite .parked]).router

/-- A project under the name of the parked directory. -/
def projectConfig (linked : List Site) (projects : List ContainerProject) : Config :=
  { parkedConfig with linked, projects }

theorem noEmptyRules_parkedConfig : NoEmptyRules parkedConfig := by
  refine ⟨fun key => ?_, fun key => ?_⟩ <;>
  · unfold ruleEntry
    split <;> exact fun h => by cases h

theorem removal_undoes_addition_root :
    ∃ a, apply rootRuleConfig (blogRouter parkedConfig) (.removeProxyRule "blog" "//") none
      defaultPhp = .ok (parkedConfig, a) := by
  have hadd : apply parkedConfig (blogRouter parkedConfig)
      (.addProxyRule "blog" "/" "http://127.0.0.1:9000") none defaultPhp =
        .ok (rootRuleConfig, ⟨"added proxy rule blog/ -> http://127.0.0.1:9000"⟩) := by
    decide +kernel
  obtain ⟨hproxy, -, -⟩ := removal_undoes_addition_iff parkedConfig noEmptyRules_parkedConfig
    [blogSite .parked] defaultPhp
  exact (hproxy _ _ "//" _ _ _ ⟨[], 1, 2, rfl, rfl⟩ hadd _ mem_cons_self).2 (by decide)

/-- The rule for `/` is not found under the empty prefix; and a link under the name of a project
makes a configuration that no longer passes, of which `Unlink` takes the project. -/
theorem removal_misses :
    validate parkedConfig = .ok () ∧
    apply parkedConfig (blogRouter parkedConfig)
        (.addProxyRule "blog" "/" "http://127.0.0.1:9000") none defaultPhp =
      .ok (rootRuleConfig, ⟨"added proxy rule blog/ -> http://127.0.0.1:9000"⟩) ∧
    apply rootRuleConfig (blogRouter rootRuleConfig) (.removeProxyRule "blog" "") none defaultPhp =
      .error (.notFound (.text "site blog has no proxy rule for ")) ∧
    validate (projectConfig [] [blogProject]) = .ok () ∧
    apply (projectConfig [] [blogProject]) (blogRouter (projectConfig [] [blogProject]))
        (.link "/srv/sites/blog" "blog") (some (.ofStr "/srv/sites/blog".toList)) defaultPhp =
      .ok (projectConfig [blogSite .linked] [blogProject], ⟨"linked blog"⟩) ∧
    apply (projectConfig [blogSite .linked] [blogProject])
        (blogRouter (projectConfig [blogSite .linked] [blogProject])) (.unlink "blog") none
        defaultPhp =
      .ok (projectConfig [blogSite .linked] [],
        ⟨"unlinked project blog (freed port 20000)"⟩) := by
  decide +kernel

end Orcker.Daemon
