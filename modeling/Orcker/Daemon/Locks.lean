import Orcker.Base.Locks
import Mathlib.Data.Set.Insert

/-!
# The daemon's locks

The config mutex and the router's read-write lock, as the handlers that take both use them. The
watcher's documentation gives their order, config before router. `ListProjects` reads the router
first and asks for the config with that guard still alive.
-/

namespace Orcker.Daemon

open Base.Locks

inductive Lock where
  | config
  | router
  deriving DecidableEq

/-- How a mutation ends: refused before it locks anything, refused under the lock (by `apply`, the
validation, the router build or the save), or committed. -/
inductive MutationEnd where
  | unlocked
  | refused
  | committed
  deriving DecidableEq

inductive LinkEnd where
  | unlocked
  | refused
  | alreadyLinked
  | linked
  deriving DecidableEq

/-- The handlers that take both locks, by how they end. -/
inductive Handler where
  | listProjects
  | mutation (outcome : MutationEnd)
  | linkProject (outcome : LinkEnd)
  | rebuild (ok : Bool)
  deriving DecidableEq

/-- `commit_config`, once the new config is saved. -/
def swapRouter : List (Op Lock) := [.acquire .router .write, .release .router]

/-- A guard that lives for one statement. -/
def peekRouter : List (Op Lock) := [.acquire .router .read, .release .router]

def lockConfig : Op Lock := .acquire .config .write

/-- A handler is the list of its acquisitions and releases. -/
def Handler.ops : Handler → List (Op Lock)
  | .listProjects =>
    [.acquire .router .read, lockConfig, .release .router, .release .config]
  | .mutation .unlocked => []
  | .mutation .refused => lockConfig :: (peekRouter ++ [.release .config])
  | .mutation .committed => lockConfig :: (peekRouter ++ swapRouter ++ [.release .config])
  | .linkProject .unlocked => []
  | .linkProject .refused => [lockConfig, .release .config]
  | .linkProject .alreadyLinked => lockConfig :: (peekRouter ++ [.release .config])
  -- the domain for the reply is looked up after the config is released
  | .linkProject .linked => lockConfig :: (swapRouter ++ [.release .config] ++ peekRouter)
  | .rebuild false => [lockConfig, .release .config]
  | .rebuild true => lockConfig :: (swapRouter ++ [.release .config])

/-- The handler gets as far as replacing the live router. -/
def Handler.writesRouter (h : Handler) : Bool := decide (.acquire .router .write ∈ h.ops)

/-- Nothing is locked, and each task has its handler to run. -/
def starting (handlers : Nat → Handler) : Base.Tasks (Lock → LockState) (Proc Lock) where
  shared _ := .free
  task i := .ready (handlers i).ops

/-- The order the watcher documents. -/
def lockRank : Lock → Nat
  | .config => 0
  | .router => 1

theorem Handler.ordered {h : Handler} (hlist : h ≠ .listProjects) :
    Ordered (fun _ => True) lockRank (fun _ => False) h.ops := by
  cases h with
  | listProjects => exact absurd rfl hlist
  | mutation outcome | linkProject outcome =>
    cases outcome <;> simp [ops, Ordered, lockConfig, peekRouter, swapRouter, lockRank]
  | rebuild ok => cases ok <;> simp [ops, Ordered, lockConfig, swapRouter, lockRank]

/-- Without a writer of the router, only the config is ever waited for. -/
theorem Handler.ordered_of_reader {h : Handler} (hread : h.writesRouter = false) :
    Ordered (· = Lock.config) lockRank (fun _ => False) h.ops := by
  cases h with
  | listProjects => simp [ops, Ordered, lockConfig]
  | mutation outcome =>
    cases outcome with
    | unlocked => trivial
    | refused => simp [ops, Ordered, lockConfig, peekRouter]
    | committed => exact absurd hread (by decide)
  | linkProject outcome =>
    cases outcome with
    | unlocked => trivial
    | refused => simp [ops, Ordered, lockConfig]
    | alreadyLinked => simp [ops, Ordered, lockConfig, peekRouter]
    | linked => exact absurd hread (by decide)
  | rebuild ok =>
    cases ok with
    | false => simp [ops, Ordered, lockConfig]
    | true => exact absurd hread (by decide)

/-- No set of handlers deadlocks, in any interleaving, unless one of them lists the projects and
another one replaces the router. -/
theorem handlers_not_deadlocked (handlers : Nat → Handler)
    (h : (∀ i, handlers i ≠ .listProjects) ∨ ∀ i, (handlers i).writesRouter = false)
    {turns : List (Nat × Unit)} {w : Base.Tasks (Lock → LockState) (Proc Lock)}
    (hrun : (starting handlers).run move turns = some w) (tasks : Set Nat) :
    ¬Deadlocked w.shared tasks := by
  have hbound : ∀ l, lockRank l ≤ 1 := by
    intro l
    cases l <;> simp [lockRank]
  rcases h with hlist | hread
  · exact not_deadlocked hbound (fun _ => rfl)
      (fun i => ⟨_, rfl, Handler.ordered (hlist i)⟩) hrun tasks
  · exact not_deadlocked hbound (fun _ => rfl)
      (fun i => ⟨_, rfl, Handler.ordered_of_reader (hread i)⟩) hrun tasks

theorem handlers_not_deadlocked_mutations :
    ∃ w, (starting fun _ => .mutation .committed).run move [(0, ()), (1, ())] = some w ∧
      (w.shared .config).queue = [(1, .write)] ∧ ¬Deadlocked w.shared {0, 1} := by
  refine ⟨_, rfl, rfl, ?_⟩
  have hrun : (starting fun _ => .mutation .committed).run move [(0, ()), (1, ())] = some _ := rfl
  exact handlers_not_deadlocked (fun _ => .mutation .committed) (.inl fun _ => by decide) hrun _

/-- A list request that holds the router and a mutation that holds the config. -/
def listAndMutate : Nat → Handler
  | 0 => .listProjects
  | _ => .mutation .committed

/-- The mutation has read the router and now waits to write it; the list request waits for the
config. -/
theorem listProjects_deadlocks :
    ∃ w, (starting listAndMutate).run move
        ([1, 1, 1, 1, 1, 0, 0, 1, 0].map fun i => (i, ())) = some w ∧
      Deadlocked w.shared {0, 1} := by
  refine ⟨_, rfl, ⟨0, by simp⟩, ?_⟩
  rintro i (rfl | rfl)
  · exact ⟨.config, [], .write, [], rfl, 1, by simp, by decide, .inl ⟨.write, by decide⟩⟩
  · exact ⟨.router, [], .write, [], rfl, 0, by simp, by decide, .inl ⟨.read, by decide⟩⟩

end Orcker.Daemon
