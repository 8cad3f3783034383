import Orcker.Daemon.AddDomain

/-!
# What un-parking forgets

The entries of a parked site are stored under its document root, which is a child of a parked root.
`Unpark` drops every entry whose key has the root as a textual ancestor.
-/

namespace Base

theorem append_cancel_of_sep {α : Type} {c : α} {s s' t t' : List α} (ht : c ∉ t) (ht' : c ∉ t')
    (hs : s = [] ∨ s.getLast? = some c) (hs' : s' = [] ∨ s'.getLast? = some c)
    (h : s ++ t = s' ++ t') : s = s' ∧ t = t' := by
  -- What one part has more than the other ends in the separator.
  have hmore : ∀ {s a : List α}, (s ++ a = [] ∨ (s ++ a).getLast? = some c) → c ∉ a → a = [] := by
    intro s a hend ha
    by_contra hne
    rcases hend with hend | hend
    · exact hne (List.append_eq_nil_iff.1 hend).2
    · rw [List.getLast?_append_of_ne_nil _ hne] at hend
      exact ha (List.mem_of_getLast? hend)
  rcases List.append_eq_append_iff.1 h with ⟨a, rfl, rfl⟩ | ⟨a, rfl, rfl⟩
  · rw [hmore hs' fun hc => ht (List.mem_append_left _ hc)]
    simp
  · rw [hmore hs fun hc => ht' (List.mem_append_left _ hc)]
    simp

end Base

namespace Orcker.Daemon

open Base Orcker.Core Orcker.Schema List

/-- It can be the name of a directory. -/
structure IsDirName (name : Str) : Prop where
  nonempty : name ≠ []
  noSlash : '/' ∉ name
  notDot : name ≠ ['.'] ∧ name ≠ ['.', '.']

/-- `d` is the key a scan gives to an entry of `root`. -/
def IsChild (root d : Str) : Prop :=
  ∃ name, IsDirName name ∧ d = ((Path.ofStr root).join (.ofStr name)).toStringLossy

/-- The text in front of the names below a root. -/
def stem (root : Str) : Str :=
  if root = [] ∨ root.getLast? = some '/' then root else root ++ ['/']

theorem stem_end (root : Str) : stem root = [] ∨ (stem root).getLast? = some '/' := by
  unfold stem
  split
  · rename_i h
    exact h
  · exact .inr (by simp)

variable {root d : Str}

theorem isChild_iff : IsChild root d ↔ ∃ name, IsDirName name ∧ d = stem root ++ name := by
  refine exists_congr fun name => and_congr_right fun hname => ?_
  rw [Path.toStringLossy_join hname.noSlash, stem]
  by_cases hroot : root = []
  · simp [hroot]
  · by_cases hend : root.getLast? = some '/'
    · simp [hroot, hend]
    · simp [hroot, hend]

/-- Two roots of one child are two spellings of one text. -/
theorem stem_eq_of_isChild {root' : Str} (h : IsChild root d) (h' : IsChild root' d) :
    stem root = stem root' := by
  obtain ⟨name, hname, rfl⟩ := isChild_iff.1 h
  obtain ⟨name', hname', heq⟩ := isChild_iff.1 h'
  exact (append_cancel_of_sep hname.noSlash hname'.noSlash (stem_end root) (stem_end root') heq).1

theorem isChild_of_stem_eq {root' : Str} (h : IsChild root d) (heq : stem root = stem root') :
    IsChild root' d := by
  obtain ⟨name, hname, rfl⟩ := isChild_iff.1 h
  exact isChild_iff.2 ⟨name, hname, by rw [heq]⟩

theorem not_isChild_self (root : Str) : ¬IsChild root root := by
  intro h
  obtain ⟨name, hname, heq⟩ := isChild_iff.1 h
  have hlen := congrArg length heq
  have hpos := length_pos_iff.2 hname.nonempty
  have hstem : root.length ≤ (stem root).length := by
    unfold stem
    split <;> simp
  rw [length_append] at hlen
  omega

theorem stem_of_isChild_sep {rest : Str} (h : IsChild root (root ++ '/' :: rest)) :
    stem root = root ++ ['/'] := by
  unfold stem
  split
  · rename_i hend
    obtain ⟨name, hname, heq⟩ := isChild_iff.1 h
    rw [stem, if_pos hend] at heq
    have hrest := append_cancel_left heq
    exact absurd (hrest ▸ mem_cons_self) hname.noSlash
  · rfl

variable {p : Str}

theorem eq_or_eq_of_stem (h : stem root = p ++ ['/']) : root = p ∨ root = p ++ ['/'] := by
  unfold stem at h
  split at h
  · exact .inr h
  · exact .inl (append_cancel_right h)

theorem stem_append_slash (p : Str) : stem (p ++ ['/']) = p ++ ['/'] := by
  rw [stem, if_pos (.inr (by simp))]

theorem isUnderRoot_iff : isUnderRoot d p = true ↔ d = p ∨ ∃ rest, d = p ++ '/' :: rest := by
  rw [isUnderRoot, Bool.or_eq_true, beq_iff_eq]
  refine or_congr_right ?_
  constructor
  · intro h
    cases hdrop : d.dropPrefix? p with
    | none =>
      rw [hdrop] at h
      cases h
    | some rest =>
      rw [hdrop, Option.any_some, beq_iff_eq] at h
      obtain ⟨tail, rfl⟩ := head?_eq_some_iff.1 h
      exact ⟨tail, dropPrefix?_eq_some.1 hdrop⟩
  · rintro ⟨rest, rfl⟩
    rw [dropPrefix?_eq_some.2 rfl]
    rfl

/-- A stored key about which the text containment is right: it is not the root,
what lies behind the root and a separator is a child of it and of no second
spelling of it, and a child of the root lies there, or has another parked root. -/
structure Settled (paths : StrSet) (p d : Str) : Prop where
  notRoot : d ≠ p
  below : ∀ rest, d = p ++ '/' :: rest → IsChild p d ∧ p ++ ['/'] ∉ paths
  child : IsChild p d → (∃ rest, d = p ++ '/' :: rest) ∨ ∃ q ∈ paths, q ≠ p ∧ IsChild q d

variable {paths : StrSet}

theorem settled_iff :
    Settled paths p d ↔
      (isUnderRoot d p = true ↔ IsChild p d ∧ ∀ q ∈ paths, q ≠ p → ¬IsChild q d) := by
  rw [isUnderRoot_iff]
  constructor
  · intro h
    constructor
    · rintro (heq | ⟨rest, rfl⟩)
      · exact absurd heq h.notRoot
      · obtain ⟨hchild, hspelling⟩ := h.below rest rfl
        refine ⟨hchild, fun q hq hne hq' => ?_⟩
        have hstem := (stem_eq_of_isChild hq' hchild).trans (stem_of_isChild_sep hchild)
        rcases eq_or_eq_of_stem hstem with heq | heq
        · exact hne heq
        · exact hspelling (heq ▸ hq)
    · rintro ⟨hchild, honly⟩
      rcases h.child hchild with hrest | ⟨q, hq, hne, hq'⟩
      · exact .inr hrest
      · exact absurd hq' (honly q hq hne)
  · intro h
    have hnot : d ≠ p := by
      rintro rfl
      exact not_isChild_self d (h.1 (.inl rfl)).1
    refine ⟨hnot, ?_, fun hchild => ?_⟩
    · rintro rest rfl
      obtain ⟨hchild, honly⟩ := h.1 (.inr ⟨rest, rfl⟩)
      refine ⟨hchild, fun hspelling => honly _ hspelling (by simp) ?_⟩
      refine isChild_of_stem_eq hchild ?_
      rw [stem_of_isChild_sep hchild, stem_append_slash]
    · by_cases hother : ∃ q ∈ paths, q ≠ p ∧ IsChild q d
      · exact .inr hother
      · refine .inl ((h.2 ⟨hchild, fun q hq hne hq' => hother ⟨q, hq, hne, hq'⟩⟩).resolve_left hnot)

/-- Going from the roots `paths` to `paths'`, the entries of the children that
have no root any more are gone, and every other entry stays. -/
structure Forgets {β : Type} (paths paths' : StrSet) (m m' : StrMap β) : Prop where
  gone : ∀ d, (∃ q ∈ paths, IsChild q d) → (∀ q ∈ paths', ¬IsChild q d) → m'[d]? = none
  kept : ∀ d, (∃ q ∈ paths', IsChild q d) → m'[d]? = m[d]?
  others : ∀ d, (∀ q ∈ paths, ¬IsChild q d) → m'[d]? = m[d]?

/-- The three maps forget what goes away, the root is no longer parked, and
nothing else changes. -/
structure UnparksExactly (cfg cfg' : Config) (p : Str) : Prop where
  domains : Forgets cfg.parked.paths cfg'.parked.paths cfg.domains.parked cfg'.domains.parked
  proxyRules :
    Forgets cfg.parked.paths cfg'.parked.paths cfg.proxyRules.parked cfg'.proxyRules.parked
  routeRules :
    Forgets cfg.parked.paths cfg'.parked.paths cfg.routeRules.parked cfg'.routeRules.parked
  rest : cfg' = { cfg with
    parked := ⟨cfg.parked.paths.erase p⟩
    domains := { cfg.domains with parked := cfg'.domains.parked }
    proxyRules := { cfg.proxyRules with parked := cfg'.proxyRules.parked }
    routeRules := { cfg.routeRules with parked := cfg'.routeRules.parked } }

theorem getElem?_retainOutside {β : Type} (p : Str) (m : StrMap β) (d : Str) :
    (retainOutside p m)[d]? = if isUnderRoot d p then none else m[d]? := by
  rw [retainOutside, Std.ExtTreeMap.getElem?_filter']
  cases hm : m[d]? with
  | none => simp
  | some v =>
    rw [Option.filter_some]
    cases isUnderRoot d p <;> rfl

theorem mem_erase_paths {q : Str} : q ∈ paths.erase p ↔ q ≠ p ∧ q ∈ paths := by
  rw [Std.ExtTreeSet.mem_erase, ne_eq, Std.compare_eq_iff_eq, ne_eq, eq_comm]

theorem forgets_iff {β : Type} (hp : p ∈ paths) (m : StrMap β) :
    Forgets paths (paths.erase p) m (retainOutside p m) ↔
      ∀ d, m[d]? ≠ none → Settled paths p d := by
  have hany : ∀ d, (∃ q ∈ paths, IsChild q d) ↔
      IsChild p d ∨ ∃ q ∈ paths, q ≠ p ∧ IsChild q d := by
    intro d
    constructor
    · rintro ⟨q, hq, hchild⟩
      by_cases hqp : q = p
      · exact .inl (hqp ▸ hchild)
      · exact .inr ⟨q, hq, hqp, hchild⟩
    · rintro (hchild | ⟨q, hq, -, hchild⟩)
      · exact ⟨p, hp, hchild⟩
      · exact ⟨q, hq, hchild⟩
  have hother : ∀ d, (∃ q ∈ paths.erase p, IsChild q d) ↔ ∃ q ∈ paths, q ≠ p ∧ IsChild q d := by
    intro d
    simp only [mem_erase_paths, and_assoc, and_left_comm]
  -- An absent entry stays absent, and a stored one is dropped if its key lies under the root.
  have hpoint : ∀ d, (m[d]? ≠ none → Settled paths p d) ↔
      ((∃ q ∈ paths, IsChild q d) → (∀ q ∈ paths.erase p, ¬IsChild q d) →
        (retainOutside p m)[d]? = none) ∧
      ((∃ q ∈ paths.erase p, IsChild q d) → (retainOutside p m)[d]? = m[d]?) ∧
      ((∀ q ∈ paths, ¬IsChild q d) → (retainOutside p m)[d]? = m[d]?) := by
    intro d
    have hnone : ∀ s : StrSet, (∀ q ∈ s, ¬IsChild q d) ↔ ¬∃ q ∈ s, IsChild q d := by simp
    have honly : (∀ q ∈ paths, q ≠ p → ¬IsChild q d) ↔ ¬∃ q ∈ paths, q ≠ p ∧ IsChild q d := by simp
    rw [settled_iff, honly, hnone, hnone, hother, hany, getElem?_retainOutside, ite_eq_left_iff,
      ite_eq_right_iff, eq_comm (a := none)]
    generalize (∃ q ∈ paths, q ≠ p ∧ IsChild q d) = other
    by_cases hm : m[d]? = none
    · simp [hm]
    · simp only [hm]
      tauto
  exact ⟨fun h d => (hpoint d).2 ⟨h.gone d, h.kept d, h.others d⟩, fun h =>
    ⟨fun d => ((hpoint d).1 (h d)).1, fun d => ((hpoint d).1 (h d)).2.1,
      fun d => ((hpoint d).1 (h d)).2.2⟩⟩

/-- Something is stored under the key. -/
def Stored (cfg : Config) (d : Str) : Prop :=
  cfg.domains.parked[d]? ≠ none ∨ cfg.proxyRules.parked[d]? ≠ none ∨
    cfg.routeRules.parked[d]? ≠ none

/-- For every configuration and parked root: `Unpark` forgets exactly the sites
that go away if and only if every stored key is settled. -/
theorem unpark_forgets_iff {cfg c' : Config} {router : SiteRouter} {p : Str}
    {canonical : Option Path} {php : PhpVersion} {applied : Applied}
    (hp : p ∈ cfg.parked.paths)
    (happly : apply cfg router (.unpark p) canonical php = .ok (c', applied)) :
    UnparksExactly cfg c' p ↔ ∀ d, Stored cfg d → Settled cfg.parked.paths p d := by
  obtain rfl : (applyUnpark cfg p).1 = c' := congrArg Prod.fst (Except.ok.inj happly)
  have hdomains := forgets_iff hp cfg.domains.parked
  have hproxy := forgets_iff hp cfg.proxyRules.parked
  have hroute := forgets_iff hp cfg.routeRules.parked
  constructor
  · intro h d hd
    rcases hd with hd | hd | hd
    · exact hdomains.1 h.domains d hd
    · exact hproxy.1 h.proxyRules d hd
    · exact hroute.1 h.routeRules d hd
  · intro h
    exact ⟨hdomains.2 fun d hd => h d (.inl hd), hproxy.2 fun d hd => h d (.inr (.inl hd)),
      hroute.2 fun d hd => h d (.inr (.inr hd)), rfl⟩

theorem isChild_blog : IsChild "/srv/sites" "/srv/sites/blog" :=
  ⟨"blog", ⟨by decide, by decide, by decide, by decide⟩, by decide +kernel⟩

theorem unpark_forgets_blog :
    UnparksExactly (blogConfig apiDomain none)
      (applyUnpark (blogConfig apiDomain none) "/srv/sites".toList).1 "/srv/sites".toList := by
  have happly : apply (blogConfig apiDomain none) (build (blogConfig apiDomain none) []).router
      (.unpark "/srv/sites") none defaultPhp =
        .ok (applyUnpark (blogConfig apiDomain none) "/srv/sites".toList) := rfl
  refine (unpark_forgets_iff (by decide +kernel) happly).2 ?_
  rintro d (hd | hd | hd)
  · have hkey : d = "/srv/sites/blog".toList := by
      by_contra hne
      refine hd ?_
      rw [blogConfig, OrdMap.getElem?_put, if_neg hne]
      exact Std.ExtTreeMap.getElem?_empty
    subst hkey
    refine ⟨by decide, fun rest _ => ⟨isChild_blog, by decide +kernel⟩, fun _ => .inl ?_⟩
    exact ⟨"blog".toList, by decide⟩
  · exact absurd Std.ExtTreeMap.getElem?_empty hd
  · exact absurd Std.ExtTreeMap.getElem?_empty hd

def nestedConfig : Config :=
  { blogConfig apiDomain none with parked := ⟨StrSet.collect ["/srv", "/srv/sites"]⟩ }

/-- Un-parking the outer root drops what the inner root's site has stored. -/
theorem unpark_forgets_nested :
    "/srv".toList ∈ nestedConfig.parked.paths ∧
      ∃ c' applied, apply nestedConfig (build nestedConfig [blogSite .parked]).router
          (.unpark "/srv") none defaultPhp = .ok (c', applied) ∧
        "/srv/sites".toList ∈ c'.parked.paths ∧
        IsChild "/srv/sites".toList "/srv/sites/blog".toList ∧
        nestedConfig.domains.parked["/srv/sites/blog".toList]? = some ⟨[apiDomain], [], none⟩ ∧
        c'.domains.parked["/srv/sites/blog".toList]? = none := by
  refine ⟨by decide +kernel, _, _, rfl, by decide +kernel, isChild_blog, ?_, ?_⟩
  · decide +kernel
  · decide +kernel

end Orcker.Daemon
