import Orcker.Daemon.Commit

/-!
# The watched directories

The watcher task keeps a record of the directories it watches. The operating system ends a watch
when its directory is deleted, but the record stays: a directory that is back is taken for watched.
-/

namespace Orcker.Daemon.Watcher

open Base Orcker.Schema List

/-- A path as `PathBuf` compares it. -/
abbrev Dir := List Component

/-- The configuration with what a rebuild reads on disk, the directories there are and those under
watch, and the task's record. -/
structure State where
  world : ScanWorld
  cfg : Config
  dirs : List Dir
  watches : List Dir
  tracked : List Dir
  /-- History only: the directories deleted while on record, and wanted at every wake-up since. -/
  ended : List Dir

namespace State

/-- The directories to be watched, if they can be found. -/
def recompute (s : State) : Option (List Dir) :=
  match Commit.buildRouting s.world s.cfg with
  | .error _ => none
  | .ok (_, watchRoots) =>
    some ((watchRoots ++ s.cfg.parked.paths.toList.map Path.ofStr).map Path.components).dedup

/-- `unwatch` fails on a directory that is not watched, and changes nothing then. -/
def dropStale (s : State) (path : Dir) : State :=
  { s with
    watches := s.watches.filter (· ≠ path), tracked := s.tracked.filter (· ≠ path) }

/-- `watch` fails on a directory that is not there. -/
def add (s : State) (path : Dir) : State :=
  if path ∈ s.dirs then { s with watches := path :: s.watches, tracked := path :: s.tracked } else s

/-- Brings the watches and the record in line with the wanted directories. -/
def reconcile (s : State) (desired : List Dir) : State :=
  let s := (s.tracked.filter (· ∉ desired)).foldl dropStale s
  (desired.filter (· ∉ s.tracked)).foldl add s

end State

inductive Event where
  | change (world : ScanWorld) (cfg : Config)
  | create (dir : Dir)
  | delete (dir : Dir)
  | wake

def step (s : State) : Event → State
  | .change world cfg => { s with world, cfg }
  | .create dir => { s with dirs := dir :: s.dirs }
  | .delete dir =>
    { s with
      dirs := s.dirs.filter (· ≠ dir), watches := s.watches.filter (· ≠ dir)
      ended := if dir ∈ s.tracked then dir :: s.ended else s.ended }
  | .wake =>
    match s.recompute with
    | some desired => { s.reconcile desired with ended := s.ended.filter (· ∈ desired) }
    | none => s

/-- The task begins with an empty record. -/
def run (world : ScanWorld) (cfg : Config) (dirs : List Dir) (events : List Event) : State :=
  events.foldl step ⟨world, cfg, dirs, [], [], []⟩

theorem foldl_dropStale (l : List Dir) (s : State) :
    l.foldl State.dropStale s =
      { s with watches := s.watches.filter (· ∉ l), tracked := s.tracked.filter (· ∉ l) } := by
  induction l generalizing s with
  | nil => simp
  | cons q l ih =>
    rw [foldl_cons, ih]
    simp [State.dropStale, filter_filter, Bool.and_comm]

theorem foldl_add (l : List Dir) (s : State) :
    l.foldl State.add s = { s with
      watches := (l.filter (· ∈ s.dirs)).reverse ++ s.watches
      tracked := (l.filter (· ∈ s.dirs)).reverse ++ s.tracked } := by
  induction l generalizing s with
  | nil => rfl
  | cons q l ih =>
    rw [foldl_cons, ih]
    by_cases hq : q ∈ s.dirs
    · simp [State.add, hq]
    · simp [State.add, hq]

theorem mem_reconcile (s : State) (desired : List Dir) (p : Dir) :
    (p ∈ (s.reconcile desired).watches ↔
      p ∈ s.watches ∧ (p ∈ s.tracked → p ∈ desired) ∨ p ∈ desired ∧ p ∉ s.tracked ∧ p ∈ s.dirs) ∧
    (p ∈ (s.reconcile desired).tracked ↔ p ∈ desired ∧ (p ∈ s.tracked ∨ p ∈ s.dirs)) := by
  simp only [State.reconcile, foldl_dropStale, foldl_add, mem_append, mem_reverse, mem_filter,
    decide_eq_true_eq]
  grind

theorem dirs_reconcile (s : State) (desired : List Dir) :
    (s.reconcile desired).dirs = s.dirs := by
  simp only [State.reconcile, foldl_dropStale, foldl_add]

/-- The record holds the watched directories and those whose watch has ended. -/
structure State.Ok (s : State) : Prop where
  tracked : ∀ p, p ∈ s.tracked ↔ p ∈ s.watches ∨ p ∈ s.ended
  live : ∀ p ∈ s.watches, p ∈ s.dirs ∧ p ∉ s.ended

theorem mem_watches_reconcile {s : State} (hok : s.Ok) (desired : List Dir) (p : Dir) :
    p ∈ (s.reconcile desired).watches ↔ p ∈ desired ∧ p ∈ s.dirs ∧ p ∉ s.ended := by
  have htracked := hok.tracked p
  have hlive := hok.live p
  rw [(mem_reconcile s desired p).1]
  grind

theorem step_ok {s : State} (hok : s.Ok) (e : Event) : (step s e).Ok := by
  obtain ⟨htracked, hlive⟩ := hok
  cases e with
  | change => exact ⟨htracked, hlive⟩
  | create dir => exact ⟨htracked, fun p hp => (hlive p hp).imp_left (mem_cons_of_mem dir)⟩
  | delete dir => constructor <;> grind [step]
  | wake =>
    unfold step
    cases s.recompute with
    | none => exact ⟨htracked, hlive⟩
    | some desired =>
      have hwatches := mem_watches_reconcile ⟨htracked, hlive⟩ desired
      refine ⟨fun p => ?_, fun p hp => ?_⟩
      · have := htracked p
        have := hlive p
        simp only [hwatches, (mem_reconcile s desired p).2, mem_filter, decide_eq_true_eq]
        grind
      · obtain ⟨-, hdir, hnot⟩ := (hwatches p).1 hp
        exact ⟨dirs_reconcile s desired ▸ hdir, fun h => hnot (mem_filter.1 h).1⟩

variable (world : ScanWorld) (cfg : Config) (dirs : List Dir)

theorem run_ok (events : List Event) : (run world cfg dirs events).Ok :=
  foldlRecOn events step ⟨by simp, by simp⟩ fun _ hok e _ => step_ok hok e

/-- After any history, the next wake-up leaves exactly the wanted directories that exist under
watch if and only if none of these was deleted since it went on record. -/
theorem watched_as_wanted_iff (events : List Event) :
    let s := run world cfg dirs events
    (∀ desired, s.recompute = some desired →
        ∀ p, p ∈ (step s .wake).watches ↔ p ∈ desired ∧ p ∈ (step s .wake).dirs) ↔
      ∀ desired, s.recompute = some desired → ∀ p ∈ desired, p ∈ s.dirs → p ∉ s.ended := by
  intro s
  have hwatches := mem_watches_reconcile (run_ok world cfg dirs events)
  refine forall₂_congr fun desired hdesired => ?_
  simp only [step, hdesired, dirs_reconcile, s, hwatches]
  grind

/-- A parked folder that is watched, deleted, and there again at the next wake-up. -/
theorem recreated_not_watched :
    let srv : Dir := [.rootDir, .normal (utf8 "srv".toList)]
    let cfg : Config := { Config.default with parked := ⟨.ofList ["/srv".toList]⟩ }
    let before := run ⟨fun _ => .ok [], fun _ => ⟨"", true⟩⟩ cfg [srv] [.wake]
    let s := [.delete srv, .wake, .create srv, .wake].foldl step before
    before.watches = [srv] ∧ s.recompute = some [srv] ∧ s.dirs = [srv] ∧ s.watches = [] := by
  decide +kernel

end Orcker.Daemon.Watcher
