import Mathlib.Data.List.Infix
import Mathlib.Data.List.Basic

/-!
# Child processes and the handles that hold them

A program starts processes for owners and keeps a handle on each; a handle that
is dropped kills its process. A history lists what happened, oldest first, and the
moments of a run are its initial parts. Every process has a number of its own.
-/

namespace Base

open List

/-- What happens to the processes of a program. -/
inductive Happening (κ σ : Type) where
  | spawned (owner : κ) (child : Nat)
  /-- The process ended by itself, whether or not anyone looked. -/
  | exited (child : Nat)
  /-- Waiting on the handle reported the end of the process. -/
  | seenExited (child : Nat)
  | signalled (child : Nat) (signal : σ)
  | dropped (child : Nat)
  deriving DecidableEq

variable {κ σ : Type}

namespace Happening

def after (alive : List (κ × Nat)) : Happening κ σ → List (κ × Nat)
  | spawned owner child => (owner, child) :: alive
  | exited child => alive.filter (·.2 ≠ child)
  | dropped child => alive.filter (·.2 ≠ child)
  | seenExited _ => alive
  | signalled _ _ => alive

def isSpawn : Happening κ σ → Bool
  | spawned _ _ => true
  | _ => false

def isSpawnOf [DecidableEq κ] (owner : κ) : Happening κ σ → Bool
  | spawned o _ => o = owner
  | _ => false

theorem mem_of_mem_after {alive : List (κ × Nat)} {h : Happening κ σ} {p : κ × Nat}
    (hquiet : h.isSpawn = false) (hp : p ∈ after alive h) : p ∈ alive := by
  cases h with
  | spawned owner child => simp [isSpawn] at hquiet
  | exited | dropped => exact mem_of_mem_filter hp
  | seenExited | signalled => exact hp

end Happening

/-- The processes alive after a history, each with its owner. -/
def live (history : List (Happening κ σ)) : List (κ × Nat) := history.foldl Happening.after []

/-- How many processes were started for the owner. -/
def spawns [DecidableEq κ] (owner : κ) (history : List (Happening κ σ)) : Nat :=
  history.countP (·.isSpawnOf owner)

@[simp] theorem live_nil : live ([] : List (Happening κ σ)) = [] := rfl

theorem live_concat (history : List (Happening κ σ)) (h : Happening κ σ) :
    live (history ++ [h]) = Happening.after (live history) h := by
  simp [live]

theorem spawns_append [DecidableEq κ] (owner : κ) (h t : List (Happening κ σ)) :
    spawns owner (h ++ t) = spawns owner h + spawns owner t := by
  simp [spawns]

/-- Nothing is started in this stretch. -/
def Quiet (t : List (Happening κ σ)) : Prop := ∀ h ∈ t, h.isSpawn = false

variable {t : List (Happening κ σ)}

theorem Quiet.spawns [DecidableEq κ] (ht : Quiet t) (owner : κ) : Base.spawns owner t = 0 := by
  refine countP_eq_zero.2 fun h hh => ?_
  have := ht h hh
  cases h <;> simp_all [Happening.isSpawn, Happening.isSpawnOf]

theorem Quiet.mem_live (ht : Quiet t) (history : List (Happening κ σ)) {p : κ × Nat}
    (hp : p ∈ live (history ++ t)) : p ∈ live history := by
  induction t using reverseRecOn with
  | nil => simpa using hp
  | append_singleton t h ih =>
    rw [← append_assoc, live_concat] at hp
    refine ih (fun x hx => ht x (mem_append_left _ hx)) ?_
    exact Happening.mem_of_mem_after (ht h (by simp)) hp

theorem notMem_live_of_dropped (ht : Quiet t) {child : Nat} (hchild : .dropped child ∈ t)
    (history : List (Happening κ σ)) (owner : κ) : (owner, child) ∉ live (history ++ t) := by
  obtain ⟨s, u, rfl⟩ := append_of_mem hchild
  intro hlive
  have hsplit : history ++ (s ++ .dropped child :: u) = (history ++ s ++ [.dropped child]) ++ u := by
    simp
  rw [hsplit] at hlive
  have hu : Quiet u := fun h hh => ht h (by simp [hh])
  have := hu.mem_live _ hlive
  rw [live_concat] at this
  simp [Happening.after] at this

def Single (history : List (Happening κ σ)) : Prop :=
  ∀ owner c c', (owner, c) ∈ live history → (owner, c') ∈ live history → c = c'

/-- At no moment has an owner two processes. -/
def AlwaysSingle (history : List (Happening κ σ)) : Prop :=
  ∀ before, before <+: history → Single before

theorem AlwaysSingle.nil : AlwaysSingle ([] : List (Happening κ σ)) := by
  intro before hbefore
  rw [prefix_nil.1 hbefore]
  simp [Single]

variable {history : List (Happening κ σ)}

theorem AlwaysSingle.concat {h : Happening κ σ} (hs : AlwaysSingle history)
    (hnow : Single (history ++ [h])) : AlwaysSingle (history ++ [h]) := by
  intro before hbefore
  rcases prefix_concat_iff.1 hbefore with rfl | hbefore
  · exact hnow
  · exact hs before hbefore

theorem AlwaysSingle.quiet (hs : AlwaysSingle history) (ht : Quiet t) :
    AlwaysSingle (history ++ t) := by
  induction t using reverseRecOn with
  | nil => simpa using hs
  | append_singleton t h ih =>
    have hbefore := ih fun x hx => ht x (mem_append_left _ hx)
    rw [← append_assoc]
    refine hbefore.concat fun owner c c' hc hc' => ?_
    rw [live_concat] at hc hc'
    have hquiet := ht h (by simp)
    exact hbefore _ (prefix_refl _) owner c c' (Happening.mem_of_mem_after hquiet hc)
      (Happening.mem_of_mem_after hquiet hc')

variable {owner : κ}

theorem AlwaysSingle.spawned (hs : AlwaysSingle history) (hnone : ∀ c, (owner, c) ∉ live history)
    (child : Nat) : AlwaysSingle (history ++ [.spawned owner child]) := by
  refine hs.concat fun o c c' hc hc' => ?_
  rw [live_concat] at hc hc'
  simp only [Happening.after, mem_cons, Prod.mk.injEq] at hc hc'
  rcases hc with ⟨rfl, rfl⟩ | hc <;> rcases hc' with ⟨ho, rfl⟩ | hc'
  · rfl
  · exact absurd hc' (hnone c')
  · exact absurd (ho ▸ hc) (hnone c)
  · exact hs _ (prefix_refl _) o c c' hc hc'

/-- `held` is the one handle of each owner: every living process is held, and no owner ever had
two living ones. -/
structure Supervised (held : κ → Option Nat) (history : List (Happening κ σ)) : Prop where
  accounted : ∀ owner c, (owner, c) ∈ live history → held owner = some c
  single : AlwaysSingle history

namespace Supervised

variable {held held' : κ → Option Nat} {history : List (Happening κ σ)}

theorem quiet (hs : Supervised held history) (ht : Quiet t)
    (hkeep : ∀ owner, held' owner = held owner ∨
      ∀ c, held owner = some c → .dropped c ∈ t) : Supervised held' (history ++ t) := by
  refine ⟨fun owner c hc => ?_, hs.single.quiet ht⟩
  have hheld := hs.accounted owner c (ht.mem_live history hc)
  rcases hkeep owner with hsame | hdropped
  · rw [hsame]
    exact hheld
  · exact absurd hc (notMem_live_of_dropped ht (hdropped c hheld) history owner)

theorem notMem_live (hs : Supervised held history) (hnone : held owner = none) (c : Nat) :
    (owner, c) ∉ live history := by
  intro hc
  simp [hs.accounted owner c hc] at hnone

theorem spawned (hs : Supervised held history) {child : Nat} (hnone : held owner = none)
    (hnew : held' owner = some child) (hothers : ∀ o, o ≠ owner → held' o = held o) :
    Supervised held' (history ++ [.spawned owner child]) := by
  have hdead := hs.notMem_live hnone
  refine ⟨fun o c hc => ?_, hs.single.spawned hdead child⟩
  rw [live_concat] at hc
  rcases mem_cons.1 hc with heq | hc
  · obtain ⟨rfl, rfl⟩ := Prod.mk.injEq .. ▸ heq
    exact hnew
  · have hne : o ≠ owner := fun h => hdead c (h ▸ hc)
    rw [hothers o hne]
    exact hs.accounted o c hc

end Supervised

end Base
