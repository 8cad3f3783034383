import Orcker.Daemon.Relink

/-!
# Runs of group requests

Groups are an ordered list of names and a map from sites to names. Names are compared without
regard to case, and stored as they were entered: in the list, and again with every member.
-/

namespace Orcker.Daemon

open Base Orcker.Core Orcker.Schema List Option

inductive GroupRequest where
  | createGroup (name : Str)
  | deleteGroup (name : Str)
  | renameGroup (old new : Str)
  | setGroupOrder (order : List Str)
  | setSiteGroup (site : Str) (group : Option Str)

def GroupRequest.toRequest : GroupRequest → Request
  | .createGroup name => .createGroup name
  | .deleteGroup name => .deleteGroup name
  | .renameGroup old new => .renameGroup old new
  | .setGroupOrder order => .setGroupOrder order
  | .setSiteGroup site group => .setSiteGroup site group

section Run

variable (router : SiteRouter) (canonical : Option Path) (defaultPhp : PhpVersion)

/-- A failing request leaves the configuration as it is. -/
def stepGroups (c : Config) (req : GroupRequest) : Config :=
  match apply c router req.toRequest canonical defaultPhp with
  | .ok (c', _) => c'
  | .error _ => c

/-- Requests that fail change nothing. -/
def runGroups (c : Config) (reqs : List GroupRequest) : Config :=
  reqs.foldl (stepGroups router canonical defaultPhp) c

end Run

theorem sameGroup_iff {g h : Str} : sameGroup g h = true ↔ lower g = lower h := decide_eq_true_iff

/-- Not empty, and not the reserved one. -/
structure IsGroupName (name : Str) : Prop where
  ne_nil : name ≠ []
  unreserved : lower name ≠ lower reservedGroupName

theorem checkGroupName_eq_ok {raw name : Str} (h : checkGroupName raw = .ok name) :
    name = trim raw ∧ IsGroupName name := by
  unfold checkGroupName at h
  simp only at h
  split at h
  · cases h
  rename_i hne
  split at h
  · cases h
  rename_i hreserved
  obtain rfl := Except.ok.inj h
  exact ⟨rfl, by simpa using hne, by simpa [sameGroup] using hreserved⟩

/-- Everything a group request that succeeds can do to the groups. -/
inductive GroupStep (g : GroupsSection) : GroupsSection → Prop
  | create {name : Str} (hname : IsGroupName name) (hfree : ∀ h ∈ g.order, lower h ≠ lower name) :
    GroupStep g { g with order := g.order ++ [name] }
  | delete (name : Str) :
    GroupStep g ⟨g.order.filter fun h => !sameGroup h name,
      g.members.filter fun _ h => !sameGroup h name⟩
  | reorder {order : List Str} (hperm : order.Perm g.order) : GroupStep g { g with order }
  | assign (site : Str) {name : Str} (hname : name ∈ g.order) :
    GroupStep g { g with members := g.members.insert site name }
  | ungroup (site : Str) : GroupStep g { g with members := g.members.erase site }
  | rename {old name cur : Str} {idx : Nat} (hname : IsGroupName name)
    (hcur : g.order[idx]? = some cur) (hold : lower cur = lower old)
    (hfree : ∀ i h, i ≠ idx → g.order[i]? = some h → lower h ≠ lower name) :
    GroupStep g ⟨g.order.set idx name,
      g.members.map fun _ h => if sameGroup h old then name else h⟩

section Requests

variable {c c' : Config} {a : Applied}

theorem perm_of_sortNames {l l' : List Str} (h : sortNames l = sortNames l') : l.Perm l' := by
  have hsort := (mergeSort_perm l' fun a b => (compare a b).isLE).symm
  rw [← sortNames, ← h] at hsort
  exact (hsort.trans (mergeSort_perm l _)).symm

theorem createGroup_steps {raw : Str} (h : applyCreateGroup c raw = .ok (c', a)) :
    GroupStep c.groups c'.groups := by
  rw [applyCreateGroup, bind_eq_ok_iff] at h
  obtain ⟨name, hname, h⟩ := h
  split at h
  · cases h
  rename_i hfree
  cases h
  refine .create (checkGroupName_eq_ok hname).2 fun g hg heq => hfree ?_
  exact any_eq_true.2 ⟨g, hg, decide_eq_true heq⟩

theorem setGroupOrder_eq {order : List Str} (h : applySetGroupOrder c order = .ok (c', a)) :
    order.Perm c.groups.order ∧ c' = { c with groups := { c.groups with order } } := by
  unfold applySetGroupOrder at h
  split at h
  · cases h
  rename_i hsort
  cases h
  exact ⟨perm_of_sortNames (not_not.1 hsort), rfl⟩

theorem setSiteGroup_steps {site : Str} {group : Option Str}
    (h : applySetSiteGroup c site group = .ok (c', a)) : GroupStep c.groups c'.groups := by
  unfold applySetSiteGroup at h
  simp only at h
  split at h
  · cases h
    exact .ungroup _
  · split at h
    · cases h
    rename_i canonical hfind
    cases h
    exact .assign _ (mem_of_find?_eq_some hfind)

theorem renameGroup_eq {old raw : Str} (h : applyRenameGroup c old raw = .ok (c', a)) :
    ∃ idx cur, IsGroupName (trim raw) ∧ c.groups.order[idx]? = some cur ∧
      lower cur = lower old ∧
      (∀ i g, i ≠ idx → c.groups.order[i]? = some g → lower g ≠ lower (trim raw)) ∧
      c'.groups = ⟨c.groups.order.set idx (trim raw),
        c.groups.members.map fun _ g => if sameGroup g old then trim raw else g⟩ := by
  rw [applyRenameGroup, bind_eq_ok_iff] at h
  obtain ⟨name, hname, h⟩ := h
  obtain ⟨rfl, hok⟩ := checkGroupName_eq_ok hname
  split at h
  · cases h
  rename_i idx hidx
  split at h
  · cases h
  rename_i hfree
  cases h
  obtain ⟨hlt, hsame, -⟩ := findIdx?_eq_some_iff_getElem.1 hidx
  refine ⟨idx, c.groups.order[idx], hok, getElem?_eq_getElem hlt, of_decide_eq_true hsame,
    fun i g hi hg heq => hfree ?_, rfl⟩
  exact any_eq_true.2
    ⟨g, mem_eraseIdx_iff_getElem?.2 ⟨i, hi, hg⟩, decide_eq_true heq⟩

theorem groupStep_of_apply {router : SiteRouter} {canonical : Option Path}
    {defaultPhp : PhpVersion} {req : GroupRequest}
    (h : apply c router req.toRequest canonical defaultPhp = .ok (c', a)) :
    GroupStep c.groups c'.groups := by
  cases req with
  | createGroup name => exact createGroup_steps h
  | deleteGroup name =>
    cases h
    exact .delete name
  | renameGroup old new =>
    obtain ⟨idx, cur, hname, hcur, hold, hfree, hgroups⟩ := renameGroup_eq h
    rw [hgroups]
    exact .rename hname hcur hold hfree
  | setGroupOrder order =>
    obtain ⟨hperm, rfl⟩ := setGroupOrder_eq h
    exact .reorder hperm
  | setSiteGroup site group => exact setSiteGroup_steps h

end Requests

/-- Names are proper and tell the groups apart, and members name groups letter by letter. -/
structure GroupsOk (g : GroupsSection) : Prop where
  names : ∀ h ∈ g.order, IsGroupName h
  distinct : (g.order.map lower).Nodup
  members : ∀ site h : Str, g.members[site]? = some h → h ∈ g.order

theorem groupsOk_empty : GroupsOk ⟨[], ∅⟩ where
  names := by simp
  distinct := by simp
  members site h hmem := by
    rw [Std.ExtTreeMap.getElem?_empty] at hmem
    cases hmem

section Invariant

variable {g g' : GroupsSection}

theorem GroupsOk.index_unique (hok : GroupsOk g) {i j : Nat} {a b : Str}
    (ha : g.order[i]? = some a) (hb : g.order[j]? = some b) (h : lower a = lower b) : i = j := by
  have hi : (g.order.map lower)[i]? = some (lower a) := by rw [getElem?_map, ha]; rfl
  have hj : (g.order.map lower)[j]? = some (lower a) := by rw [getElem?_map, hb, h]; rfl
  have hlt : i < (g.order.map lower).length := (List.getElem?_eq_some_iff.1 hi).1
  exact (getElem?_inj hlt hok.distinct).1 (hi.trans hj.symm)

theorem nodup_set {l : List Str} (h : l.Nodup) {idx : Nat} {a : Str}
    (hfree : ∀ i, i ≠ idx → l[i]? ≠ some a) : (l.set idx a).Nodup := by
  rw [nodup_iff_getElem?_ne_getElem?] at h ⊢
  intro i j hij hj
  rw [length_set] at hj
  have hsome : l[j]? ≠ none := by simpa using hj
  rw [getElem?_set, getElem?_set]
  by_cases hi : idx = i
  · rw [if_pos hi, if_pos (by omega), if_neg (by omega)]
    exact fun heq => hfree j (by omega) heq.symm
  · rw [if_neg hi]
    by_cases hj' : idx = j
    · rw [if_pos hj', if_pos (by omega)]
      exact hfree i (Ne.symm hi)
    · rw [if_neg hj']
      exact h i j hij hj

theorem GroupsOk.rename (hok : GroupsOk g) {old name cur : Str} {idx : Nat}
    (hname : IsGroupName name) (hcur : g.order[idx]? = some cur) (hold : lower cur = lower old)
    (hfree : ∀ i h, i ≠ idx → g.order[i]? = some h → lower h ≠ lower name) :
    GroupsOk ⟨g.order.set idx name,
      g.members.map fun _ h => if sameGroup h old then name else h⟩ where
  names h hh := by
    rcases mem_or_eq_of_mem_set hh with hh | rfl
    · exact hok.names h hh
    · exact hname
  distinct := by
    show ((g.order.set idx name).map lower).Nodup
    rw [map_set]
    refine nodup_set hok.distinct fun i hi heq => ?_
    rw [getElem?_map, map_eq_some_iff] at heq
    obtain ⟨h, hh, heq⟩ := heq
    exact hfree i h hi hh heq
  members site h hmem := by
    rw [Std.ExtTreeMap.getElem?_map, map_eq_some_iff] at hmem
    obtain ⟨h, hh, rfl⟩ := hmem
    have hidx : idx < g.order.length := (List.getElem?_eq_some_iff.1 hcur).1
    by_cases hsame : lower h = lower old
    · rw [if_pos (sameGroup_iff.2 hsame)]
      exact mem_set hidx _
    · rw [if_neg (mt sameGroup_iff.1 hsame)]
      obtain ⟨i, hi⟩ := mem_iff_getElem?.1 (hok.members site h hh)
      refine mem_iff_getElem?.2 ⟨i, ?_⟩
      rw [getElem?_set, if_neg]
      · exact hi
      · rintro rfl
        rw [hcur, some.injEq] at hi
        exact hsame (hi ▸ hold)

theorem GroupsOk.step (hok : GroupsOk g) (h : GroupStep g g') : GroupsOk g' := by
  cases h with
  | create hname hfree =>
    refine ⟨fun h hh => ?_, ?_, fun site h hh => mem_append_left _ (hok.members site h hh)⟩
    · rcases mem_append.1 hh with hh | hh
      · exact hok.names h hh
      · rw [mem_singleton.1 hh]
        exact hname
    · show ((g.order ++ [_]).map lower).Nodup
      rw [map_append, map_singleton, nodup_append_comm, singleton_append,
        nodup_cons]
      refine ⟨fun hmem => ?_, hok.distinct⟩
      obtain ⟨h, hh, heq⟩ := mem_map.1 hmem
      exact hfree h hh heq
  | delete name =>
    refine ⟨fun h hh => hok.names h (mem_filter.1 hh).1,
      hok.distinct.sublist (filter_sublist.map lower), fun site h hh => ?_⟩
    rw [Std.ExtTreeMap.getElem?_filter', filter_eq_some_iff] at hh
    exact mem_filter.2 ⟨hok.members site h hh.1, hh.2⟩
  | reorder hperm =>
    exact ⟨fun h hh => hok.names h (hperm.mem_iff.1 hh),
      ((hperm.map lower).nodup_iff).2 hok.distinct,
      fun site h hh => hperm.mem_iff.2 (hok.members site h hh)⟩
  | assign site hname =>
    refine ⟨hok.names, hok.distinct, fun site' h hh => ?_⟩
    rw [OrdMap.getElem?_insert] at hh
    split at hh
    · exact some.inj hh ▸ hname
    · exact hok.members site' h hh
  | ungroup site =>
    refine ⟨hok.names, hok.distinct, fun site' h hh => ?_⟩
    rw [OrdMap.getElem?_erase] at hh
    split at hh
    · cases hh
    · exact hok.members site' h hh
  | rename hname hcur hold hfree => exact hok.rename hname hcur hold hfree

theorem GroupsOk.run {router : SiteRouter} {canonical : Option Path} {defaultPhp : PhpVersion}
    {c : Config} (hok : GroupsOk c.groups) (reqs : List GroupRequest) :
    GroupsOk (runGroups router canonical defaultPhp c reqs).groups := by
  induction reqs generalizing c with
  | nil => exact hok
  | cons req reqs ih =>
    refine ih ?_
    rw [stepGroups]
    split
    · rename_i happly
      exact hok.step (groupStep_of_apply happly)
    · exact hok

end Invariant

theorem checkDistinct_of_nodup {α : Type} {before after : α → Except ConfigError Unit}
    {key : α → Str} {duplicate : ValidateErrorReason} {seen : StrSet} {l : List α}
    (hbefore : ∀ a ∈ l, before a = .ok ()) (hafter : ∀ a ∈ l, after a = .ok ())
    (hnodup : (l.map key).Nodup) (hseen : ∀ a ∈ l, key a ∉ seen) :
    checkDistinct before key duplicate after seen l = .ok () := by
  induction l generalizing seen with
  | nil => rfl
  | cons a l ih =>
    rw [forall_mem_cons] at hbefore hafter hseen
    rw [map_cons, nodup_cons] at hnodup
    rw [checkDistinct, hbefore.1, ok_bind, if_neg hseen.1, hafter.1]
    refine ih hbefore.2 hafter.2 hnodup.2 fun b hb hmem => ?_
    rw [Std.ExtTreeSet.mem_insert, Std.compare_eq_iff_eq] at hmem
    rcases hmem with heq | hmem
    · exact hnodup.1 (heq ▸ mem_map_of_mem hb)
    · exact hseen.2 b hb hmem

theorem GroupsOk.validateGroups {c : Config} (hok : GroupsOk c.groups) :
    validateGroups c = .ok () := by
  rw [Schema.validateGroups, check_bind_eq_ok_iff]
  refine ⟨checkDistinct_of_nodup (fun name hname => ?_) (fun _ _ => rfl) hok.distinct
    fun _ _ => by simp, ?_⟩
  · obtain ⟨hne, hres⟩ := hok.names name hname
    simp [refuseIf, hne, hres]
  · rw [forM_eq_ok_iff]
    intro group hgroup
    obtain ⟨site, hsite⟩ := OrdMap.mem_values.1 hgroup
    have hmem : lower group ∈ StrSet.collect (c.groups.order.map lower) :=
      StrSet.mem_collect.2 (mem_map_of_mem (hok.members site group hsite))
    simp [refuseIf, hmem]

theorem GroupsOk.getElem?_iff (hok : GroupsOk g) {i j : Nat} {h : Str}
    (hj : g.order[j]? = some h) : g.order[i]? = some h ↔ i = j :=
  ⟨fun hi => hok.index_unique hi hj rfl, fun hi => hi ▸ hj⟩

/-- The site is in the `i`-th group. -/
def AtPlace (g : GroupsSection) (site : Str) (i : Nat) : Prop :=
  ∃ name : Str, g.members[site]? = some name ∧ g.order[i]? = some name

/-- One group has a new name, where it stood, and every site is in the group it was in. -/
structure KeepsPlaces (g g' : GroupsSection) (old new : Str) : Prop where
  order : ∃ idx cur, g.order[idx]? = some cur ∧ lower cur = lower old ∧
    g'.order = g.order.set idx new
  sites : ∀ site i, AtPlace g site i ↔ AtPlace g' site i

theorem GroupsOk.keepsPlaces {g g' : GroupsSection} (hok : GroupsOk g) (hok' : GroupsOk g')
    {old name cur : Str} {idx : Nat} (hcur : g.order[idx]? = some cur) (hold : lower cur = lower old)
    (hg' : g' = ⟨g.order.set idx name,
      g.members.map fun _ h => if sameGroup h old then name else h⟩) :
    KeepsPlaces g g' old name := by
  subst hg'
  refine ⟨⟨idx, cur, hcur, hold, rfl⟩, fun site i => ?_⟩
  have hidx : idx < g.order.length := (List.getElem?_eq_some_iff.1 hcur).1
  have hset : (g.order.set idx name)[idx]? = some name := by
    rw [getElem?_set, if_pos rfl, if_pos hidx]
  unfold AtPlace
  simp only [Std.ExtTreeMap.getElem?_map]
  cases hmem : g.members[site]? with
  | none => simp
  | some h =>
    simp only [map_some, some.injEq, exists_eq_left']
    obtain ⟨j, hj⟩ := mem_iff_getElem?.1 (hok.members site h hmem)
    by_cases hsame : lower h = lower old
    · -- The site's group is the renamed one, at `idx` before and after.
      rw [if_pos (sameGroup_iff.2 hsame)]
      obtain rfl := hok.index_unique hj hcur (hsame.trans hold.symm)
      exact (hok.getElem?_iff hj).trans (hok'.getElem?_iff hset).symm
    · -- Any other group keeps its name and its position.
      rw [if_neg (mt sameGroup_iff.1 hsame)]
      have hne : j ≠ idx := by
        rintro rfl
        rw [hcur, some.injEq] at hj
        exact hsame (hj ▸ hold)
      have hj' : (g.order.set idx name)[j]? = some h := by
        rw [getElem?_set, if_neg (Ne.symm hne)]
        exact hj
      exact (hok.getElem?_iff hj).trans (hok'.getElem?_iff hj').symm

/-- For every run of group requests from a configuration without groups: the names are proper and
distinct, members name groups letter by letter, and validation accepts the groups; from there, a
rename keeps positions and members, and a new order has the same names. -/
theorem groups_stay_well_formed (router : SiteRouter) (canonical : Option Path)
    (defaultPhp : PhpVersion) (c : Config) (hnone : c.groups = ⟨[], ∅⟩)
    (reqs : List GroupRequest) :
    let run := runGroups router canonical defaultPhp c reqs
    GroupsOk run.groups ∧ validateGroups run = .ok () ∧
      (∀ old new c' a, apply run router (.renameGroup old new) canonical defaultPhp = .ok (c', a) →
        KeepsPlaces run.groups c'.groups old (trim new)) ∧
      ∀ order c' a, apply run router (.setGroupOrder order) canonical defaultPhp = .ok (c', a) →
        c'.groups.order.Perm run.groups.order ∧ c'.groups.members = run.groups.members := by
  intro run
  have hok : GroupsOk run.groups := GroupsOk.run (hnone ▸ groupsOk_empty) reqs
  refine ⟨hok, hok.validateGroups, fun old new c' a happly => ?_, fun order c' a happly => ?_⟩
  · obtain ⟨idx, cur, hname, hcur, hold, hfree, hgroups⟩ := renameGroup_eq happly
    exact hok.keepsPlaces (hgroups ▸ hok.rename hname hcur hold hfree) hcur hold hgroups
  · obtain ⟨hperm, rfl⟩ := setGroupOrder_eq happly
    exact ⟨hperm, rfl⟩

/-- A member of a group whose name then changes its case. -/
theorem groups_stay_well_formed_recased :
    (runGroups (SiteRouter.new (.withTld default)) none defaultPhp Config.default
      [.createGroup " blog ", .setSiteGroup "API" (some "BLOG"),
        .renameGroup "blog" "Blog"]).groups.order = ["Blog".toList] ∧
    GroupsOk (runGroups (SiteRouter.new (.withTld default)) none defaultPhp Config.default
      [.createGroup " blog ", .setSiteGroup "API" (some "BLOG"),
        .renameGroup "blog" "Blog"]).groups := by
  refine ⟨by decide +kernel, ?_⟩
  exact (groups_stay_well_formed _ none defaultPhp Config.default rfl _).1

end Orcker.Daemon
