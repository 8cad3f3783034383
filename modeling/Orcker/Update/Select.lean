import Orcker.Base.Longest

/-!
# What a channel updates to
-/

namespace Orcker.Update

open Base

/-- Versions are the semver library's: a linear order, since its comparison looks at every part of a
version, with the texts it reads and writes and the test for a pre-release part. -/
structure Semver (V : Type) where
  parse : Str → Option V
  display : V → Str
  hasPre : V → Bool

inductive Channel where
  | stable
  | edge
  deriving DecidableEq

structure Asset where
  name : Str
  url : Str
  size : Nat
  deriving DecidableEq

structure ReleaseMeta (V : Type) where
  version : V
  tag : Str
  prerelease : Bool
  assets : List Asset
  notes : Option Str
  deriving DecidableEq

/-- The latest versions, and the one to update to. -/
structure UpdateDecision (V : Type) where
  current : V
  latestStable : Option V
  latestEdge : Option V
  channel : Channel
  target : Option V
  available : Bool
  aheadOfStable : Bool

variable {V : Type}

/-- Without a leading `v` or `V`. -/
def parseTag (sv : Semver V) (tag : Str) : Option V :=
  sv.parse (((tag.dropPrefix? ['v']).or (tag.dropPrefix? ['V'])).getD tag)

def ReleaseMeta.isPrerelease (sv : Semver V) (r : ReleaseMeta V) : Bool :=
  r.prerelease || sv.hasPre r.version

def stableVersions (sv : Semver V) (releases : List (ReleaseMeta V)) : List V :=
  (releases.filter (!·.isPrerelease sv)).map (·.version)

/-- A version, and whether its release is a pre-release: what the decision looks at. -/
def Offers (sv : Semver V) (releases : List (ReleaseMeta V)) (v : V) (pre : Bool) : Prop :=
  ∃ m ∈ releases, m.version = v ∧ m.isPrerelease sv = pre

variable {sv : Semver V} {releases : List (ReleaseMeta V)}

theorem mem_stableVersions {v : V} :
    v ∈ stableVersions sv releases ↔ Offers sv releases v false := by
  simp only [stableVersions, List.mem_map, List.mem_filter, Offers, Bool.not_eq_true']
  exact exists_congr fun m => by tauto

theorem mem_versions (sv : Semver V) {v : V} :
    v ∈ releases.map (·.version) ↔ ∃ pre, Offers sv releases v pre := by
  simp only [List.mem_map, Offers]
  constructor
  · rintro ⟨m, hm, rfl⟩
    exact ⟨_, m, hm, rfl, rfl⟩
  · rintro ⟨pre, m, hm, rfl, -⟩
    exact ⟨m, hm, rfl⟩

variable [LinearOrder V]

/-- One turn of the loop over the releases: the latest stable and the latest of all. -/
def selectStep (sv : Semver V) (latest : Option V × Option V) (r : ReleaseMeta V) :
    Option V × Option V :=
  (if !r.isPrerelease sv && latest.1.all (· < r.version) then some r.version else latest.1,
    if latest.2.all (· < r.version) then some r.version else latest.2)

/-- What a channel updates to. -/
def selectTarget (sv : Semver V) (releases : List (ReleaseMeta V)) (channel : Channel)
    (current : V) : UpdateDecision V :=
  let latest := releases.foldl (selectStep sv) (none, none)
  let candidate := match channel with
    | .stable => latest.1
    | .edge => latest.2
  let target := candidate.filter (current < ·)
  { current
    latestStable := latest.1
    latestEdge := latest.2
    channel
    target
    available := target.isSome
    aheadOfStable := sv.hasPre current && latest.1.all (· < current) }

theorem foldl_selectStep (sv : Semver V) (releases : List (ReleaseMeta V))
    (latest : Option V × Option V) : releases.foldl (selectStep sv) latest =
      ((stableVersions sv releases).foldl (better id) latest.1,
        (releases.map (·.version)).foldl (better id) latest.2) := by
  induction releases generalizing latest with
  | nil => rfl
  | cons r releases ih =>
    rw [List.foldl_cons, ih]
    cases hpre : r.isPrerelease sv <;> simp [selectStep, stableVersions, better, hpre]

/-- An update leads to the greatest version the channel offers, pre-releases left out on the stable
one, and never back. The order of the releases makes no difference. -/
theorem selectTarget_target_iff {channel : Channel} {current v : V} :
    (selectTarget sv releases channel current).target = some v ↔ current < v ∧
      IsGreatest {u | ∃ pre, Offers sv releases u pre ∧ (channel = .stable → pre = false)} v := by
  have hstable := runningMax_id_eq_some_iff (l := stableVersions sv releases) (m := v)
  have hall := runningMax_id_eq_some_iff (l := releases.map (·.version)) (m := v)
  simp only [mem_stableVersions, mem_versions sv, runningMax] at hstable hall
  cases channel <;>
    simp [selectTarget, foldl_selectStep, Option.filter_eq_some_iff, hstable, hall, and_comm]

end Orcker.Update
