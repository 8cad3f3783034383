import Orcker.Base.Json
import Orcker.Base.Timed
import Orcker.Core.Detect

/-!
# The cache of web roots
-/

namespace Orcker.Daemon.WebRootCache

open Base Base.Timed Orcker.Core List Change

def place (path : Str) : Place := path.splitOn '/'

def composerJson : Place := ["composer.json"]

/-- Where detection looks for the web directory's script. -/
def indexOf (dir : Str) : Place := place dir ++ ["index.php".toList]

/-- The keys of one section of `composer.json`. -/
def sectionKeys (json : Json) (name : Str) : List Str :=
  match json.get name with
  | some (.object fields) => fields.map fun field => lower field.1
  | _ => []

/-- The packages `composer.json` requires. -/
def gatherComposerRequires (fromSlice : Bytes → Option Json) (t : Tree) : StrSet :=
  match (t.read composerJson).bind fromSlice with
  | none => ∅
  | some json =>
    .collect (sectionKeys json "require" ++ sectionKeys json "require-dev")

/-- `fromSlice` is the JSON library's reader. -/
def gatherProjectSignals (fromSlice : Bytes → Option Json) (t : Tree) : ProjectSignals where
  composerRequires := gatherComposerRequires fromSlice t
  markers := .collect (rootMarkers.filter fun marker => t.exists_ (place marker))
  webDirsWithIndex := .collect (webDirCandidates.filter fun dir => t.isFile (indexOf dir))

/-- The later of the two modification times. -/
def freshnessStamp (t : Tree) : Option Nat :=
  match t.modified [], t.modified composerJson with
  | some a, some b => some (max a b)
  | some a, none => some a
  | none, some b => some b
  | none, none => none

/-- By project, the stamp and what was detected. -/
abbrev DetectCache := StrMap (Nat × Detection)

/-- Detect the web root of the project `root`, whose files are `t`. -/
def DetectCache.detect (fromSlice : Bytes → Option Json) (cache : DetectCache) (root : Str)
    (t : Tree) : Detection × DetectCache :=
  match freshnessStamp t with
  | none => (Core.detect (gatherProjectSignals fromSlice t), cache)
  | some stamp =>
    let fresh := Core.detect (gatherProjectSignals fromSlice t)
    match cache[root]? with
    | some (cachedStamp, det) =>
      if cachedStamp = stamp then (det, cache) else (fresh, cache.insert root (stamp, fresh))
    | none => (fresh, cache.insert root (stamp, fresh))

/-- The project changes, or its web root is asked for. -/
inductive Event where
  | change (c : Change)
  | detect

structure Session where
  tree : Tree
  cache : DetectCache

variable (fromSlice : Bytes → Option Json) (root : Str)

def Session.ask (s : Session) : Detection × DetectCache :=
  s.cache.detect fromSlice root s.tree

def Session.step (s : Session) : Event → Session
  | .change c => { s with tree := c.apply s.tree }
  | .detect => { s with cache := (s.ask fromSlice root).2 }

/-- A run of events. -/
def Session.after (s : Session) (events : List Event) : Session :=
  events.foldl (fun s e => s.step fromSlice root e) s

variable {fromSlice root}

/-- What detection looks at. -/
def watched : List Place :=
  composerJson :: (rootMarkers.map place ++ webDirCandidates.map indexOf)

/-- The change can alter what detection finds. -/
def Touches (c : Change) : Prop := (∃ p ∈ watched, c.displaces p) ∨ c.writes composerJson

/-- The change gives the project directory or `composer.json` a time later than the stamp. -/
def Raises (t : Tree) (c : Change) : Prop :=
  ∃ p ∈ [[], composerJson], ∃ time, c.gives p = some time ∧ ∀ s ∈ freshnessStamp t, s < time

/-- Every change that detection could notice raises the stamp. -/
def Shown : Tree → List Event → Prop
  | _, [] => True
  | t, .change c :: events => (Touches c → Raises t c) ∧ Shown (c.apply t) events
  | t, .detect :: events => Shown t events

variable {t : Tree} {c : Change}

theorem place_mem_watched {marker : Str} (h : marker ∈ rootMarkers) : place marker ∈ watched :=
  mem_cons_of_mem _ (mem_append_left _ (mem_map_of_mem h))

theorem indexOf_mem_watched {dir : Str} (h : dir ∈ webDirCandidates) : indexOf dir ∈ watched :=
  mem_cons_of_mem _ (mem_append_right _ (mem_map_of_mem h))

theorem gather_of_not_touches (h : ¬Touches c) :
    gatherProjectSignals fromSlice (c.apply t) = gatherProjectSignals fromSlice t := by
  have hstays : ∀ p ∈ watched, ¬c.displaces p := fun p hp hd => h (.inl ⟨p, hp, hd⟩)
  have hread : (c.apply t).read composerJson = t.read composerJson :=
    read_apply (hstays _ mem_cons_self) fun hw => h (.inr hw)
  have hmarkers : (rootMarkers.filter fun marker => (c.apply t).exists_ (place marker)) =
      rootMarkers.filter fun marker => t.exists_ (place marker) :=
    filter_congr fun marker hm => exists_apply (hstays _ (place_mem_watched hm))
  have hdirs : (webDirCandidates.filter fun dir => (c.apply t).isFile (indexOf dir)) =
      webDirCandidates.filter fun dir => t.isFile (indexOf dir) :=
    filter_congr fun dir hd => isFile_apply (hstays _ (indexOf_mem_watched hd))
  unfold gatherProjectSignals gatherComposerRequires
  rw [hmarkers, hdirs, hread]

theorem stamp_eq_none_iff : freshnessStamp t = none ↔ t.node [] = none := by
  have hcomposer (h : t.node [] = none) : t.node composerJson = none :=
    t.node_eq_none_of_isPrefix h nil_prefix
  unfold freshnessStamp Tree.modified
  cases hroot : t.node [] with
  | none => simp [hcomposer hroot]
  | some n => cases t.node composerJson <;> simp

theorem stamp_eq_some_iff {s : Nat} : freshnessStamp t = some s ↔
    (∀ p ∈ [[], composerJson], ∀ m ∈ t.modified p, m ≤ s) ∧
      ∃ p ∈ [[], composerJson], t.modified p = some s := by
  unfold freshnessStamp
  simp only [mem_cons, not_mem_nil, or_false, forall_eq_or_imp, forall_eq,
    exists_eq_or_imp, exists_eq_left]
  cases t.modified [] with
  | none =>
    cases t.modified composerJson with
    | none => simp
    | some b => simpa using fun h => h.le
  | some a =>
    cases t.modified composerJson with
    | none => simpa using fun h => h.le
    | some b =>
      simp only [Option.some.injEq, Option.mem_def, forall_eq']
      omega

theorem stamp_of_le {s m : Nat} {p : Place} (hp : p ∈ [[], composerJson]) (hm : t.modified p = some m)
    (hle : s ≤ m) : ∃ s', freshnessStamp t = some s' ∧ s ≤ s' := by
  cases hstamp : freshnessStamp t with
  | none =>
    have hroot := stamp_eq_none_iff.1 hstamp
    rw [Tree.modified, t.node_eq_none_of_isPrefix hroot nil_prefix] at hm
    cases hm
  | some s' => exact ⟨s', rfl, hle.trans ((stamp_eq_some_iff.1 hstamp).1 p hp m hm)⟩

theorem stamp_apply_of_not_touches {s : Nat} (h : ¬Touches c) (hs : freshnessStamp t = some s) :
    ∃ s', freshnessStamp (c.apply t) = some s' ∧ s ≤ s' := by
  obtain ⟨-, p, hp, hm⟩ := stamp_eq_some_iff.1 hs
  have hstays : ¬c.displaces p := by
    simp only [mem_cons, not_mem_nil, or_false] at hp
    rcases hp with rfl | rfl
    · exact c.not_displaces_root
    · exact fun hd => h (.inl ⟨_, mem_cons_self, hd⟩)
  obtain ⟨m, hm, hle⟩ := modified_apply hstays hm
  exact stamp_of_le hp hm hle

theorem stamp_apply_of_raises {s : Nat} (hc : c.possible t = true) (h : Raises t c)
    (hs : freshnessStamp t = some s) : ∃ s', freshnessStamp (c.apply t) = some s' ∧ s < s' := by
  obtain ⟨p, hp, time, hgives, hlater⟩ := h
  exact stamp_of_le hp (modified_of_gives hc hgives) (hlater s hs)

theorem stamp_apply (fromSlice : Bytes → Option Json) {s : Nat}
    (hshown : Touches c → Raises t c) (hs : freshnessStamp t = some s) :
    ∃ s', freshnessStamp (c.apply t) = some s' ∧
      (s < s' ∨ s ≤ s' ∧
        gatherProjectSignals fromSlice (c.apply t) = gatherProjectSignals fromSlice t) := by
  by_cases hc : c.possible t = true
  · by_cases htouches : Touches c
    · obtain ⟨s', hs', hlt⟩ := stamp_apply_of_raises hc (hshown htouches) hs
      exact ⟨s', hs', .inl hlt⟩
    · obtain ⟨s', hs', hle⟩ := stamp_apply_of_not_touches htouches hs
      exact ⟨s', hs', .inr ⟨hle, gather_of_not_touches htouches⟩⟩
  · rw [apply_of_impossible hc]
    exact ⟨s, hs, .inr ⟨le_rfl, rfl⟩⟩

/-- The kept stamp has not been passed, or the kept result is what detection gives now. -/
def Current (fromSlice : Bytes → Option Json) (root : Str) (s : Session) : Prop :=
  ∀ stamp det now, s.cache[root]? = some (stamp, det) → freshnessStamp s.tree = some now →
    stamp < now ∨ stamp = now ∧ det = Core.detect (gatherProjectSignals fromSlice s.tree)

theorem Current.change {s : Session} (h : Current fromSlice root s)
    (hshown : Touches c → Raises s.tree c) : Current fromSlice root ⟨c.apply s.tree, s.cache⟩ := by
  intro stamp det now hcached hnow
  cases hold : freshnessStamp s.tree with
  | none =>
    have himpossible := impossible_of_no_root (stamp_eq_none_iff.1 hold) c
    rw [apply_of_impossible himpossible, hold] at hnow
    cases hnow
  | some old =>
    obtain ⟨new, hnew, hstep⟩ := stamp_apply fromSlice hshown hold
    obtain rfl : new = now := Option.some.inj (hnew.symm.trans hnow)
    rcases h stamp det old hcached hold with hlt | ⟨rfl, rfl⟩
    · left
      omega
    · rcases hstep with hlt | ⟨hle, hsame⟩
      · exact .inl hlt
      · rw [hsame]
        rcases hle.lt_or_eq with hlt | rfl
        · exact .inl hlt
        · exact .inr ⟨rfl, rfl⟩

theorem Current.ask {s : Session} (h : Current fromSlice root s) :
    (s.ask fromSlice root).1 = Core.detect (gatherProjectSignals fromSlice s.tree) ∧
      Current fromSlice root (s.step fromSlice root .detect) := by
  have hkept (now : Nat) (hnow : freshnessStamp s.tree = some now) :
      Current fromSlice root ⟨s.tree, s.cache.insert root
        (now, Core.detect (gatherProjectSignals fromSlice s.tree))⟩ := by
    intro stamp det now' hcached hnow'
    obtain rfl : now = now' := Option.some.inj (hnow.symm.trans hnow')
    rw [OrdMap.getElem?_insert, if_pos rfl] at hcached
    cases hcached
    exact .inr ⟨rfl, rfl⟩
  unfold Session.step Session.ask DetectCache.detect
  cases hnow : freshnessStamp s.tree with
  | none => exact ⟨rfl, h⟩
  | some now =>
    cases hcached : s.cache[root]? with
    | none => exact ⟨rfl, hkept now hnow⟩
    | some entry =>
      obtain ⟨stamp, det⟩ := entry
      dsimp only
      by_cases heq : stamp = now
      · rw [if_pos heq]
        refine ⟨?_, h⟩
        rcases h stamp det now hcached hnow with hlt | ⟨-, hdet⟩
        · exact absurd heq hlt.ne
        · exact hdet
      · rw [if_neg heq]
        exact ⟨rfl, hkept now hnow⟩

theorem Current.after {s : Session} {events : List Event} (h : Current fromSlice root s)
    (hshown : Shown s.tree events) : Current fromSlice root (s.after fromSlice root events) := by
  induction events generalizing s with
  | nil => exact h
  | cons e events ih =>
    cases e with
    | change c => exact ih (h.change hshown.1) hshown.2
    | detect => exact ih h.ask.2 hshown

/-- From an empty cache, whatever changes and calls there were: if every change that detection
could notice raised the stamp, the next call answers what detection finds in the tree as it is. -/
theorem cached_detection_fresh (fromSlice : Bytes → Option Json) (root : Str) (t : Tree)
    (events : List Event) (hshown : Shown t events) :
    let s := (Session.mk t ∅).after fromSlice root events
    (s.ask fromSlice root).1 = Core.detect (gatherProjectSignals fromSlice s.tree) := by
  have hstart : Current fromSlice root ⟨t, ∅⟩ := by
    intro stamp det now hcached
    rw [Std.ExtTreeMap.getElem?_empty] at hcached
    cases hcached
  exact (hstart.after hshown).ask.1

def sampleRoot : Str := "/srv/app"

/-- A plain script appears in an empty project that was looked at before. -/
def indexAdded : List Event :=
  [.detect, .change (.create [] "index.php" (.file [] 2) 2)]

theorem cached_detection_fresh_index :
    let s := (Session.mk (.bare 1) ∅).after (fun _ => none) sampleRoot indexAdded
    (s.ask (fun _ => none) sampleRoot).1 = .root ∧
      (s.ask (fun _ => none) sampleRoot).1 =
        Core.detect (gatherProjectSignals (fun _ => none) s.tree) := by
  refine ⟨by decide +kernel, cached_detection_fresh _ _ _ _ ⟨fun _ => ?_, trivial⟩⟩
  exact ⟨[], by decide, 2, by decide, by decide +kernel⟩

/-- A project has an empty `public`, is looked at, and gets its script there. -/
def publicFilled : List Event :=
  [.change (.create [] "public" (.dir 2) 2), .detect,
    .change (.create ["public"] "index.php" (.file [] 3) 3)]

/-- Neither the project directory nor `composer.json` changed, so the old answer is given. -/
theorem cached_detection_stale :
    let s := (Session.mk (.bare 1) ∅).after (fun _ => none) sampleRoot publicFilled
    (s.ask (fun _ => none) sampleRoot).1 = .unresolved ∧
      Core.detect (gatherProjectSignals (fun _ => none) s.tree) = .sub "public" := by
  decide +kernel

end Orcker.Daemon.WebRootCache
