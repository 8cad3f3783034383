import Orcker.Base.Longest
import Orcker.Core.Proxy

/-!
# Matching a request path against a site's rules

Proxy rules and route rules match a path by the same test, and of the rules that match the one with
the longest prefix decides. A prefix that covers a path is a prefix of it as a text, so two covering
prefixes of the same length are the same.
-/

namespace Orcker.Core

open Base

/-- Whether a rule's prefix matches a path; `/` is a catch-all. -/
def matchesPath (pathPrefix path : Str) : Bool :=
  if pathPrefix = ['/'] then path.head? == some '/'
  else path == pathPrefix || (path.dropPrefix? pathPrefix).any fun rest => rest.head? == some '/'

def ProxyRule.matchesPath (r : ProxyRule) (path : Str) : Bool := Core.matchesPath r.pathPrefix path

def RouteRule.matchesPath (r : RouteRule) (path : Str) : Bool := Core.matchesPath r.pathPrefix path

/-- The prefix is `/`, the path, or what stands before a `/` of it. -/
def Covers (pathPrefix path : Str) : Prop :=
  pathPrefix = ['/'] ∨ path = pathPrefix ∨ ∃ rest, path = pathPrefix ++ '/' :: rest

theorem matchesPath_iff {pathPrefix path : Str} (hpath : path.head? = some '/') :
    matchesPath pathPrefix path = true ↔ Covers pathPrefix path := by
  unfold matchesPath Covers
  by_cases hroot : pathPrefix = ['/']
  · simp [hroot, hpath]
  rw [if_neg hroot, Bool.or_eq_true, beq_iff_eq, or_iff_right hroot]
  refine or_congr_right ?_
  rw [Option.any_eq_true]
  constructor
  · rintro ⟨rest, hrest, hslash⟩
    obtain ⟨tail, rfl⟩ := List.head?_eq_some_iff.1 (beq_iff_eq.1 hslash)
    exact ⟨tail, dropPrefix?_eq_some.1 hrest⟩
  · rintro ⟨tail, rfl⟩
    exact ⟨'/' :: tail, dropPrefix?_eq_some.2 rfl, rfl⟩

theorem Covers.isPrefix {pathPrefix path : Str} (h : Covers pathPrefix path)
    (hpath : path.head? = some '/') : pathPrefix <+: path := by
  rcases h with rfl | rfl | ⟨rest, rfl⟩
  · obtain ⟨tail, rfl⟩ := List.head?_eq_some_iff.1 hpath
    exact ⟨tail, rfl⟩
  · exact List.prefix_rfl
  · exact List.prefix_append _ _

/-- Of the rules whose prefix matches, the one with the longest. -/
def longestMatch {ρ : Type} (prefixOf : ρ → Str) (rules : List ρ) (path : Str) : Option ρ :=
  lastMax (fun r => byteLen (prefixOf r)) (rules.filter fun r => matchesPath (prefixOf r) path)

/-- The proxy rule that decides for a path. -/
def matchRule (rules : List ProxyRule) (path : Str) : Option ProxyRule :=
  longestMatch ProxyRule.pathPrefix rules path

/-- The route rule that decides for a path. -/
def matchRoute (rules : List RouteRule) (path : Str) : Option RouteRule :=
  longestMatch RouteRule.pathPrefix rules path

/-- The rule covers the path, and every other rule that does has a shorter prefix. -/
structure IsLongest {ρ : Type} (prefixOf : ρ → Str) (rules : List ρ) (path : Str) (r : ρ) :
    Prop where
  mem : r ∈ rules
  covers : Covers (prefixOf r) path
  longest : ∀ r' ∈ rules, Covers (prefixOf r') path → r' ≠ r →
    byteLen (prefixOf r') < byteLen (prefixOf r)

/-- What a matcher finds among rules with unique prefixes. -/
structure FindsLongest {ρ : Type} (prefixOf : ρ → Str) (find : List ρ → Str → Option ρ)
    (rules : List ρ) (path : Str) : Prop where
  some_iff : ∀ r, find rules path = some r ↔ IsLongest prefixOf rules path r
  none_iff : find rules path = none ↔ ∀ r ∈ rules, ¬Covers (prefixOf r) path
  perm : ∀ rules', rules.Perm rules' → find rules' path = find rules path

section Longest

variable {ρ : Type} {prefixOf : ρ → Str} {rules : List ρ} {path : Str}

theorem mem_matching (hpath : path.head? = some '/') {r : ρ} :
    r ∈ rules.filter (fun r => matchesPath (prefixOf r) path) ↔
      r ∈ rules ∧ Covers (prefixOf r) path := by
  rw [List.mem_filter, matchesPath_iff hpath]

/-- No ties: matching rules with prefixes of one length have one prefix, so are one rule. -/
theorem matching_injective (hpath : path.head? = some '/') (hnodup : (rules.map prefixOf).Nodup) :
    ∀ r ∈ rules.filter (fun r => matchesPath (prefixOf r) path),
      ∀ r' ∈ rules.filter (fun r => matchesPath (prefixOf r) path),
        byteLen (prefixOf r) = byteLen (prefixOf r') → r = r' := by
  intro r hr r' hr' hlen
  obtain ⟨hmem, hcovers⟩ := (mem_matching hpath).1 hr
  obtain ⟨hmem', hcovers'⟩ := (mem_matching hpath).1 hr'
  refine List.inj_on_of_nodup_map hnodup hmem hmem' ?_
  exact eq_of_isPrefix_of_byteLen (hcovers.isPrefix hpath) (hcovers'.isPrefix hpath) hlen

theorem longestMatch_finds (hpath : path.head? = some '/') (hnodup : (rules.map prefixOf).Nodup) :
    FindsLongest prefixOf (longestMatch prefixOf) rules path where
  some_iff r := by
    rw [longestMatch, lastMax_eq_some_iff (matching_injective hpath hnodup), mem_matching hpath]
    constructor
    · rintro ⟨⟨hmem, hcovers⟩, hall⟩
      exact ⟨hmem, hcovers, fun r' hr' hc' => hall r' ((mem_matching hpath).2 ⟨hr', hc'⟩)⟩
    · rintro ⟨hmem, hcovers, hall⟩
      refine ⟨⟨hmem, hcovers⟩, fun r' hr' => ?_⟩
      obtain ⟨hmem', hcovers'⟩ := (mem_matching hpath).1 hr'
      exact hall r' hmem' hcovers'
  none_iff := by
    rw [longestMatch, lastMax_eq_none_iff, List.filter_eq_nil_iff]
    exact forall₂_congr fun r _ => by rw [matchesPath_iff hpath]
  perm rules' hperm :=
    lastMax_perm (matching_injective hpath hnodup) (hperm.filter _)

end Longest

/-- For every request path and every list of proxy rules, or of route rules, with unique prefixes:
the matcher finds the rule with the longest prefix that covers the path, finds none exactly if no
prefix does, and does not look at the order of the list. -/
theorem longest_prefix_decides (path : Str) (hpath : path.head? = some '/') :
    (∀ rules : List ProxyRule, (rules.map ProxyRule.pathPrefix).Nodup →
      FindsLongest ProxyRule.pathPrefix matchRule rules path) ∧
    ∀ rules : List RouteRule, (rules.map RouteRule.pathPrefix).Nodup →
      FindsLongest RouteRule.pathPrefix matchRoute rules path :=
  ⟨fun _ hnodup => longestMatch_finds hpath hnodup, fun _ hnodup => longestMatch_finds hpath hnodup⟩

/-- A route rule from fields that pass its checks. -/
def routeRule (pathPrefix target : Str)
    (h : checkPathPrefix () () () () pathPrefix = .ok () ∧
      normalizePrefix pathPrefix = pathPrefix ∧ target ≠ [] ∧ isRouteTarget target) : RouteRule :=
  ⟨pathPrefix, target, checkPathPrefix_eq_ok_iff.1 h.1, h.2.1, h.2.2.1, h.2.2.2⟩

def rootRoute : RouteRule := routeRule "/" "index.php" (by decide +kernel)

def apiRoute : RouteRule := routeRule "/api" "api/index.php" (by decide +kernel)

theorem longest_prefix_decides_api :
    IsLongest RouteRule.pathPrefix [rootRoute, apiRoute] "/api/users" apiRoute ∧
      matchRoute [apiRoute, rootRoute] "/api/users" =
        matchRoute [rootRoute, apiRoute] "/api/users" := by
  have hnodup : ([rootRoute, apiRoute].map RouteRule.pathPrefix).Nodup := by decide +kernel
  have hfinds := (longest_prefix_decides "/api/users" rfl).2 _ hnodup
  exact ⟨(hfinds.some_iff _).1 (by decide +kernel), hfinds.perm _ (List.Perm.swap _ _ _)⟩

end Orcker.Core
