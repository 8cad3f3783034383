import Mathlib.Data.Set.Basic
import Mathlib.Tactic.Common
import Mathlib.Data.List.Nodup
import Mathlib.Logic.Function.Basic

/-!
# Fair locks

Locks that any number of readers or one writer hold, handed on in the order they were asked for: a
request waits whenever somebody is already waiting, so that a waiting writer holds up the readers
behind it. A mutex is a lock nobody asks to read.
-/

/-! ## Tasks over a shared state

Any number of tasks, each with a state of its own, take turns in any order. What a schedule has
beside whose turn it is stands for everything the task learns from outside. -/

namespace Base

/-- A shared state, and each task's own. -/
structure Tasks (σ τ : Type) where
  shared : σ
  task : Nat → τ

namespace Tasks

variable {σ τ ι : Type}

/-- Task `i` moves; a move that is not possible yet gives nothing. -/
def step (move : Nat → ι → σ → τ → Option (σ × τ)) (w : Tasks σ τ) (turn : Nat × ι) :
    Option (Tasks σ τ) :=
  (move turn.1 turn.2 w.shared (w.task turn.1)).map fun r =>
    ⟨r.1, Function.update w.task turn.1 r.2⟩

/-- A schedule; nothing if one of its moves is not possible. -/
def run (move : Nat → ι → σ → τ → Option (σ × τ)) :
    Tasks σ τ → List (Nat × ι) → Option (Tasks σ τ)
  | w, [] => some w
  | w, turn :: turns => (w.step move turn).bind fun w' => run move w' turns

variable {move : Nat → ι → σ → τ → Option (σ × τ)} {w w' : Tasks σ τ}

theorem step_eq_some_iff {turn : Nat × ι} : w.step move turn = some w' ↔
    ∃ s t, move turn.1 turn.2 w.shared (w.task turn.1) = some (s, t) ∧
      w' = ⟨s, Function.update w.task turn.1 t⟩ := by
  rw [step, Option.map_eq_some_iff]
  constructor
  · rintro ⟨⟨s, t⟩, hmove, rfl⟩
    exact ⟨s, t, hmove, rfl⟩
  · rintro ⟨s, t, hmove, rfl⟩
    exact ⟨(s, t), hmove, rfl⟩

variable {turns : List (Nat × ι)}

theorem run_invariant {P : Tasks σ τ → Prop}
    (hstep : ∀ w w' turn, P w → w.step move turn = some w' → P w') (h : P w)
    (hrun : w.run move turns = some w') : P w' := by
  induction turns generalizing w with
  | nil =>
    cases hrun
    exact h
  | cons turn turns ih =>
    obtain ⟨next, hnext, hrest⟩ := Option.bind_eq_some_iff.1 hrun
    exact ih (hstep w next turn h hnext) hrest

/-- An invariant of the shared state, and one for each task beside it. -/
def Local (I : σ → Prop) (J : σ → Nat → τ → Prop) (w : Tasks σ τ) : Prop :=
  I w.shared ∧ ∀ i, J w.shared i (w.task i)

/-- What a move of task `i` has to keep: the shared invariant, its own, and everybody else's. -/
abbrev Keeps (I : σ → Prop) (J : σ → Nat → τ → Prop) (s s' : σ) (i : Nat) (t' : τ) : Prop :=
  I s' ∧ J s' i t' ∧ ∀ j u, j ≠ i → J s j u → J s' j u

/-- A task that claims to hold a mutex does not, while another one has it or may take it. -/
theorem eq_false_of_held {holder : Option Nat} {claims : Bool} {i j : Nat}
    (h : claims = true → holder = some j) (hj : j ≠ i) (hheld : holder = none ∨ holder = some i) :
    claims = false := by
  rw [Bool.eq_false_iff]
  intro hclaims
  rcases hheld with hheld | hheld
  · cases hheld.symm.trans (h hclaims)
  · exact hj (Option.some.inj (hheld.symm.trans (h hclaims))).symm

variable {I : σ → Prop} {J : σ → Nat → τ → Prop}

theorem step_local (hmove : ∀ i input s t s' t', move i input s t = some (s', t') → I s → J s i t →
      Keeps I J s s' i t') (turn : Nat × ι) (h : w.Local I J)
    (hstep : w.step move turn = some w') : w'.Local I J := by
  obtain ⟨s, t, hturn, rfl⟩ := step_eq_some_iff.1 hstep
  obtain ⟨hI, hJ, hothers⟩ := hmove _ _ _ _ _ _ hturn h.1 (h.2 turn.1)
  refine ⟨hI, fun j => ?_⟩
  show J s j (Function.update w.task turn.1 t j)
  by_cases hj : j = turn.1
  · subst hj
    rw [Function.update_self]
    exact hJ
  · rw [Function.update_of_ne hj]
    exact hothers j _ hj (h.2 j)

/-- What every move keeps, every run keeps. -/
theorem run_local (hmove : ∀ i input s t s' t', move i input s t = some (s', t') → I s → J s i t →
      Keeps I J s s' i t') (h : w.Local I J)
    (hrun : w.run move turns = some w') : w'.Local I J :=
  run_invariant (fun _ _ turn hw hstep => step_local hmove turn hw hstep) h hrun

end Tasks

end Base

namespace Base.Locks

inductive Mode where
  | read
  | write
  deriving DecidableEq

inductive Op (L : Type) where
  | acquire (l : L) (m : Mode)
  | release (l : L)
  deriving DecidableEq

/-- Who has the lock, and who waits for it, the first in front. -/
structure LockState where
  holders : List (Nat × Mode)
  queue : List (Nat × Mode)
  deriving DecidableEq

def LockState.free : LockState := ⟨[], []⟩

/-- May the lock be held that way beside its holders? -/
def Mode.fits (holders : List (Nat × Mode)) : Mode → Bool
  | .read => holders.all (·.2 = .read)
  | .write => holders.isEmpty

/-- Hand the lock on, from the front of the queue, as far as it goes. -/
def grant : List (Nat × Mode) → List (Nat × Mode) → LockState
  | holders, [] => ⟨holders, []⟩
  | holders, next :: queue =>
    if next.2.fits holders then grant (next :: holders) queue else ⟨holders, next :: queue⟩

namespace LockState

/-- Take the lock if nobody waits and it can be shared, or queue up. -/
def request (k : LockState) (i : Nat) (m : Mode) : LockState :=
  if k.queue = [] ∧ m.fits k.holders = true then { k with holders := (i, m) :: k.holders }
  else { k with queue := k.queue ++ [(i, m)] }

/-- Give the lock up, and hand it on. -/
def release (k : LockState) (i : Nat) : LockState :=
  grant (k.holders.filter (·.1 ≠ i)) k.queue

def Holds (k : LockState) (i : Nat) : Prop := ∃ m, (i, m) ∈ k.holders

def Queued (k : LockState) (i : Nat) : Prop := ∃ m, (i, m) ∈ k.queue

instance (k : LockState) (i : Nat) : Decidable (k.Holds i) :=
  decidable_of_iff (i ∈ k.holders.map Prod.fst) (by simp [Holds])

end LockState

/-- A task between two operations, or waiting until it is given a lock it asked for. -/
inductive Proc (L : Type) where
  | ready (ops : List (Op L))
  | waiting (l : L) (rest : List (Op L))

variable {L : Type} [DecidableEq L]

/-- Tasks run through lists of acquisitions and releases, for `Base.Tasks`. -/
def move (i : Nat) (_ : Unit) (s : L → LockState) : Proc L → Option ((L → LockState) × Proc L)
  | .ready [] => none
  | .ready (.acquire l m :: rest) =>
    some (Function.update s l ((s l).request i m), .waiting l rest)
  | .ready (.release l :: rest) => some (Function.update s l ((s l).release i), .ready rest)
  | .waiting l rest => if (s l).Holds i then some (s, .ready rest) else none

/-- Each task of the set waits for a lock that another task of the set holds, or stands behind it
in the lock's queue. -/
def Deadlocked (s : L → LockState) (tasks : Set Nat) : Prop :=
  tasks.Nonempty ∧ ∀ i ∈ tasks, ∃ l before m after, (s l).queue = before ++ (i, m) :: after ∧
    ∃ j ∈ tasks, j ≠ i ∧ ((s l).Holds j ∨ ∃ n, (j, n) ∈ before)

/-! ## Asking for a lock and handing it on -/

theorem grant_spec (holders queue : List (Nat × Mode)) :
    ∃ given left, queue = given ++ left ∧ (grant holders queue).queue = left ∧
      (grant holders queue).holders = given.reverse ++ holders := by
  induction queue generalizing holders with
  | nil => exact ⟨[], [], rfl, rfl, rfl⟩
  | cons next queue ih =>
    rw [grant]
    split_ifs with hfits
    · obtain ⟨given, left, hqueue, hleft, hholders⟩ := ih (next :: holders)
      refine ⟨next :: given, left, by rw [hqueue, List.cons_append], hleft, ?_⟩
      rw [hholders, List.reverse_cons, List.append_assoc, List.singleton_append]
    · exact ⟨[], next :: queue, rfl, rfl, rfl⟩

namespace LockState

variable {k : LockState} {i j : Nat}

theorem request_cases (k : LockState) (i : Nat) (m : Mode) :
    (k.queue = [] ∧ k.request i m = ⟨(i, m) :: k.holders, []⟩) ∨
      (¬(k.queue = [] ∧ m.fits k.holders = true) ∧
        k.request i m = ⟨k.holders, k.queue ++ [(i, m)]⟩) := by
  unfold request
  split_ifs with h
  · exact .inl ⟨h.1, by rw [h.1]⟩
  · exact .inr ⟨h, rfl⟩

theorem request_other (m : Mode) (hj : j ≠ i) :
    ((k.request i m).Holds j ↔ k.Holds j) ∧ ((k.request i m).Queued j ↔ k.Queued j) := by
  rcases request_cases k i m with ⟨hqueue, h⟩ | ⟨-, h⟩ <;> rw [h]
  · simp [Holds, Queued, hqueue, hj]
  · simp [Holds, Queued, hj]

theorem release_spec (k : LockState) (i : Nat) : ∃ given left, k.queue = given ++ left ∧
    (k.release i).queue = left ∧
    (∀ j m, (j, m) ∈ (k.release i).holders ↔ (j, m) ∈ given ∨ ((j, m) ∈ k.holders ∧ j ≠ i)) := by
  obtain ⟨given, left, hqueue, hleft, hholders⟩ :=
    grant_spec (k.holders.filter (·.1 ≠ i)) k.queue
  refine ⟨given, left, hqueue, hleft, fun j m => ?_⟩
  rw [release, hholders]
  simp

theorem release_other (hj : j ≠ i) :
    (k.Holds j → (k.release i).Holds j) ∧ ((k.release i).Queued j → k.Queued j) ∧
      ((k.release i).Holds j → k.Holds j ∨ k.Queued j) ∧
      (k.Queued j → (k.release i).Holds j ∨ (k.release i).Queued j) := by
  obtain ⟨given, left, hqueue, hleft, hholders⟩ := release_spec k i
  simp only [Holds, Queued, hleft, hholders]
  rw [hqueue]
  refine ⟨?_, ?_, ?_, ?_⟩
  · rintro ⟨m, hm⟩
    exact ⟨m, .inr ⟨hm, hj⟩⟩
  · rintro ⟨m, hm⟩
    exact ⟨m, List.mem_append_right _ hm⟩
  · rintro ⟨m, hm | ⟨hm, -⟩⟩
    · exact .inr ⟨m, List.mem_append_left _ hm⟩
    · exact .inl ⟨m, hm⟩
  · rintro ⟨m, hm⟩
    rcases List.mem_append.1 hm with hm | hm
    · exact .inl ⟨m, .inl hm⟩
    · exact .inr ⟨m, hm⟩

theorem release_self (h : ¬k.Queued i) : ¬(k.release i).Holds i ∧ ¬(k.release i).Queued i := by
  obtain ⟨given, left, hqueue, hleft, hholders⟩ := release_spec k i
  refine ⟨?_, ?_⟩
  · rintro ⟨m, hm⟩
    rcases (hholders i m).1 hm with hm | ⟨-, hne⟩
    · exact h ⟨m, hqueue ▸ List.mem_append_left _ hm⟩
    · exact hne rfl
  · rintro ⟨m, hm⟩
    exact h ⟨m, hqueue ▸ List.mem_append_right _ (hleft ▸ hm)⟩

theorem release_not_queued (hnodup : (k.queue.map Prod.fst).Nodup) (hj : ¬k.Holds j)
    (h : (k.release i).Holds j) : ¬(k.release i).Queued j := by
  obtain ⟨given, left, hqueue, hleft, hholders⟩ := release_spec k i
  rintro ⟨n, hn⟩
  obtain ⟨m, hm⟩ := h
  rcases (hholders j m).1 hm with hm | ⟨hm, -⟩
  · rw [hqueue, List.map_append, List.nodup_append] at hnodup
    exact hnodup.2.2 j (List.mem_map.2 ⟨_, hm, rfl⟩) j (List.mem_map.2 ⟨_, hleft ▸ hn, rfl⟩) rfl
  · exact hj ⟨m, hm⟩

end LockState

/-! ## Locks taken in order -/

variable {s : L → LockState} {t : Proc L} {l : L} {m : Mode} {w : Tasks (L → LockState) (Proc L)}
  {bound : Nat}

section Order

variable (contended : L → Prop) (rank : L → Nat)

/-- What is left to do respects the order, from a point where those locks are held: a lock is taken
once, its writers are known to be contending for it, and it lies above the contended locks that
are held. -/
def Ordered : (L → Prop) → List (Op L) → Prop
  | _, [] => True
  | held, .acquire l m :: rest =>
    ¬held l ∧ (contended l ∨ m = .read) ∧
      (contended l → ∀ k, held k → contended k → rank k < rank l) ∧
      Ordered (fun k => k = l ∨ held k) rest
  | held, .release l :: rest => Ordered (fun k => held k ∧ k ≠ l) rest

omit [DecidableEq L] in
theorem Ordered.congr {held held' : L → Prop} {ops : List (Op L)}
    (h : Ordered contended rank held ops) (heq : ∀ l, held l ↔ held' l) :
    Ordered contended rank held' ops := by
  have : held = held' := funext fun l => propext (heq l)
  exact this ▸ h

/-- Nobody waits twice for a lock, and nobody for one that is only read. -/
structure SharedOk (s : L → LockState) : Prop where
  nodup : ∀ l, ((s l).queue.map Prod.fst).Nodup
  onlyRead : ∀ l, ¬contended l → (s l).queue = [] ∧ ∀ x ∈ (s l).holders, x.2 = .read

/-- In front of an operation, a task waits for nothing. Behind a request it waits for that lock
alone, which lies above those it holds, until it has the lock. -/
def ProcOk (s : L → LockState) (i : Nat) : Proc L → Prop
  | .ready ops => (∀ k, ¬(s k).Queued i) ∧ Ordered contended rank (fun k => (s k).Holds i) ops
  | .waiting l rest =>
    ((s l).Queued i ∧ ¬(s l).Holds i ∧ (∀ k, (s k).Queued i → k = l) ∧
      (∀ k, (s k).Holds i → contended k → rank k < rank l) ∧
      Ordered contended rank (fun k => k = l ∨ (s k).Holds i) rest) ∨
    ((s l).Holds i ∧ (∀ k, ¬(s k).Queued i) ∧
      Ordered contended rank (fun k => (s k).Holds i) rest)

variable {contended : L → Prop} {rank : L → Nat}

omit [DecidableEq L] in
theorem ProcOk.congr {s' : L → LockState} {i : Nat} (h : ProcOk contended rank s i t)
    (hholds : ∀ k, (s' k).Holds i ↔ (s k).Holds i) (hqueued : ∀ k, (s' k).Queued i ↔ (s k).Queued i) :
    ProcOk contended rank s' i t := by
  cases t with
  | ready | waiting => simpa only [ProcOk, hholds, hqueued] using h

theorem forall_update_iff {k : LockState} {P : LockState → Prop} (h : P k ↔ P (s l)) (x : L) :
    P (Function.update s l k x) ↔ P (s x) := by
  by_cases hx : x = l
  · rw [hx, Function.update_self]
    exact h
  · rw [Function.update_of_ne hx]

theorem ProcOk.request_other {i j : Nat} (h : ProcOk contended rank s j t) (hj : j ≠ i) :
    ProcOk contended rank (Function.update s l ((s l).request i m)) j t :=
  h.congr (forall_update_iff (P := (·.Holds j)) (LockState.request_other m hj).1)
    (forall_update_iff (P := (·.Queued j)) (LockState.request_other m hj).2)

theorem ProcOk.release_other {i j : Nat} (h : ProcOk contended rank s j t) (hj : j ≠ i)
    (hnodup : ((s l).queue.map Prod.fst).Nodup) :
    ProcOk contended rank (Function.update s l ((s l).release i)) j t := by
  obtain ⟨hkeep, hback, hgiven, hstill⟩ := LockState.release_other (k := s l) hj
  by_cases hwaits : (s l).Queued j ∧ ((s l).release i).Holds j
  · -- the lock is handed to the task, which waited for it alone
    cases t with
    | ready ops => exact absurd hwaits.1 (h.1 l)
    | waiting l' rest =>
      rcases h with ⟨-, hnot, honly, -, hrest⟩ | ⟨-, hnone, -⟩
      · obtain rfl := honly l hwaits.1
        have hholds : ∀ k, (Function.update s l ((s l).release i) k).Holds j ↔
            k = l ∨ (s k).Holds j := by
          intro k
          by_cases hk : k = l
          · subst hk
            simp [hwaits.2]
          · simp [hk]
        refine .inr ⟨by simp [hwaits.2], fun k => ?_, hrest.congr _ _ fun k => (hholds k).symm⟩
        by_cases hk : k = l
        · subst hk
          rw [Function.update_self]
          exact LockState.release_not_queued hnodup hnot hwaits.2
        · rw [Function.update_of_ne hk]
          exact fun hq => hk (honly k hq)
      · exact absurd hwaits.1 (hnone l)
  · -- nothing changes for the task
    have hiff : ((s l).release i).Holds j ↔ (s l).Holds j :=
      ⟨fun hh => (hgiven hh).resolve_right fun hq => hwaits ⟨hq, hh⟩, hkeep⟩
    have hqiff : ((s l).release i).Queued j ↔ (s l).Queued j :=
      ⟨hback, fun hq => (hstill hq).resolve_left fun hh => hwaits ⟨hq, hh⟩⟩
    exact h.congr (forall_update_iff (P := (·.Holds j)) hiff)
      (forall_update_iff (P := (·.Queued j)) hqiff)

theorem SharedOk.update {new : LockState} (h : SharedOk contended s)
    (hnodup : (new.queue.map Prod.fst).Nodup)
    (honly : ¬contended l → new.queue = [] ∧ ∀ x ∈ new.holders, x.2 = .read) :
    SharedOk contended (Function.update s l new) := by
  refine ⟨fun k => ?_, fun k hk => ?_⟩ <;> by_cases hkl : k = l
  · subst hkl
    rwa [Function.update_self]
  · rw [Function.update_of_ne hkl]
    exact h.nodup k
  · subst hkl
    rw [Function.update_self]
    exact honly hk
  · rw [Function.update_of_ne hkl]
    exact h.onlyRead k hk

theorem SharedOk.request {i : Nat} (h : SharedOk contended s) (hfree : ¬(s l).Queued i)
    (hm : contended l ∨ m = .read) :
    SharedOk contended (Function.update s l ((s l).request i m)) := by
  refine h.update ?_ fun hk => ?_
  · rcases LockState.request_cases (s l) i m with ⟨-, hr⟩ | ⟨-, hr⟩
    · rw [hr]
      exact List.nodup_nil
    · rw [hr, List.map_append, List.nodup_append]
      refine ⟨h.nodup l, by simp, ?_⟩
      rintro a ha b hb rfl
      obtain ⟨⟨_, n⟩, hmem, rfl⟩ := List.mem_map.1 ha
      obtain rfl := List.mem_singleton.1 hb
      exact hfree ⟨n, hmem⟩
  · obtain ⟨hqueue, hreads⟩ := h.onlyRead l hk
    obtain rfl := hm.resolve_left hk
    have hfits : Mode.fits (s l).holders .read = true := by
      rw [Mode.fits, List.all_eq_true]
      exact fun x hx => decide_eq_true (hreads x hx)
    rw [LockState.request, if_pos ⟨hqueue, hfits⟩]
    refine ⟨hqueue, fun x hx => ?_⟩
    rcases List.mem_cons.1 hx with rfl | hx
    · rfl
    · exact hreads x hx

theorem SharedOk.release {i : Nat} (h : SharedOk contended s) :
    SharedOk contended (Function.update s l ((s l).release i)) := by
  obtain ⟨given, left, hqueue, hleft, hholders⟩ := LockState.release_spec (s l) i
  refine h.update ?_ fun hk => ?_
  · have := h.nodup l
    rw [hqueue, List.map_append] at this
    rw [hleft]
    exact (List.nodup_append.1 this).2.1
  · obtain ⟨hempty, hreads⟩ := h.onlyRead l hk
    rw [hempty, eq_comm, List.append_eq_nil_iff] at hqueue
    rw [hleft]
    refine ⟨hqueue.2, fun x hx => ?_⟩
    rcases (hholders x.1 x.2).1 hx with hx | ⟨hx, -⟩
    · rw [hqueue.1] at hx
      cases hx
    · exact hreads x hx

theorem ProcOk.request_self {i : Nat} {rest : List (Op L)} (hs : SharedOk contended s)
    (h : ProcOk contended rank s i (.ready (.acquire l m :: rest))) :
    ProcOk contended rank (Function.update s l ((s l).request i m)) i (.waiting l rest) := by
  obtain ⟨hnone, hnot, hmode, habove, hrest⟩ := h
  rcases LockState.request_cases (s l) i m with ⟨-, hr⟩ | ⟨hfull, hr⟩
  · refine .inr ⟨?_, fun k => ?_, hrest.congr _ _ fun k => ?_⟩
    · rw [Function.update_self, hr]
      exact ⟨m, List.mem_cons_self ..⟩
    · by_cases hk : k = l
      · subst hk
        rw [Function.update_self, hr]
        rintro ⟨n, ⟨⟩⟩
      · rw [Function.update_of_ne hk]
        exact hnone k
    · by_cases hk : k = l
      · subst hk
        simp [hr, LockState.Holds]
      · simp [hk]
  · -- the lock is contended, since one that is only read is given at once
    have hcontended : contended l := by
      by_contra hl
      obtain ⟨hqueue, hreads⟩ := hs.onlyRead l hl
      obtain rfl := hmode.resolve_left hl
      refine hfull ⟨hqueue, ?_⟩
      rw [Mode.fits, List.all_eq_true]
      exact fun x hx => decide_eq_true (hreads x hx)
    have hholds : ∀ k, (Function.update s l ((s l).request i m) k).Holds i ↔ (s k).Holds i :=
      forall_update_iff (P := (·.Holds i)) (by rw [hr]; rfl)
    refine .inl ⟨?_, ?_, fun k hk => ?_, fun k hk => ?_, hrest.congr _ _ fun k => ?_⟩
    · rw [Function.update_self, hr]
      exact ⟨m, List.mem_append_right _ (List.mem_singleton.2 rfl)⟩
    · rw [hholds]
      exact hnot
    · by_contra hkl
      rw [Function.update_of_ne hkl] at hk
      exact hnone k hk
    · exact habove hcontended k ((hholds k).1 hk)
    · rw [hholds]

theorem move_ok (i : Nat) (input : Unit) (s : L → LockState) (t : Proc L) (s' : L → LockState)
    (t' : Proc L) (hmove : move i input s t = some (s', t')) (hs : SharedOk contended s)
    (ht : ProcOk contended rank s i t) :
    Tasks.Keeps (SharedOk contended) (ProcOk contended rank) s s' i t' := by
  cases t with
  | ready ops =>
    cases ops with
    | nil => cases hmove
    | cons op rest =>
      cases op with
      | acquire l m =>
        cases hmove
        exact ⟨hs.request (ht.1 l) ht.2.2.1, ht.request_self hs, fun j u hj hu => hu.request_other hj⟩
      | release l =>
        cases hmove
        have hrest : Ordered contended rank (fun k => (s k).Holds i ∧ k ≠ l) rest := ht.2
        refine ⟨hs.release, ⟨fun k => ?_, hrest.congr _ _ fun k => ?_⟩,
          fun j u hj hu => hu.release_other hj (hs.nodup l)⟩
        · by_cases hk : k = l
          · subst hk
            rw [Function.update_self]
            exact (LockState.release_self (ht.1 k)).2
          · rw [Function.update_of_ne hk]
            exact ht.1 k
        · by_cases hk : k = l
          · subst hk
            simp [LockState.release_self (ht.1 k)]
          · simp [hk]
  | waiting l rest =>
    simp only [move] at hmove
    split_ifs at hmove with hheld
    cases hmove
    refine ⟨hs, ?_, fun _ _ _ h => h⟩
    rcases ht with ⟨-, hnot, -⟩ | ⟨-, hnone, hrest⟩
    · exact absurd hheld hnot
    · exact ⟨hnone, hrest⟩

/-! ## No deadlock -/

omit [DecidableEq L] in
theorem ProcOk.of_queued {i : Nat} (h : ProcOk contended rank s i t) (hq : (s l).Queued i) :
    (∀ k, (s k).Queued i → k = l) ∧ ∀ k, (s k).Holds i → contended k → rank k < rank l := by
  cases t with
  | ready ops => exact absurd hq (h.1 l)
  | waiting l' rest =>
    rcases h with ⟨-, -, honly, habove, -⟩ | ⟨-, hnone, -⟩
    · obtain rfl := honly l hq
      exact ⟨honly, habove⟩
    · exact absurd hq (hnone l)

theorem append_cons_inj {α β : Type} {p q r u : List (α × β)} {a : α} {b c : β}
    (h : p ++ (a, b) :: q = r ++ (a, c) :: u)
    (hnodup : ((p ++ (a, b) :: q).map Prod.fst).Nodup) : p = r := by
  have hkeys := congrArg (List.map Prod.fst) h
  rw [List.map_append, List.map_append, List.map_cons, List.map_cons] at hkeys
  rw [List.map_append, List.map_cons, List.nodup_middle, List.nodup_cons, List.mem_append,
    not_or] at hnodup
  have hfront := ((List.append_cons_inj_of_notMem hnodup.1.1 hnodup.1.2).1 hkeys).1
  exact (List.append_inj h (by simpa using congrArg List.length hfront)).1

omit [DecidableEq L] in
/-- A task of a deadlocked set has one above it: further up in the ranks, or further ahead in the
same queue. There is no end to that. -/
theorem not_deadlocked_of_local (hbound : ∀ l, rank l ≤ bound)
    (h : w.Local (SharedOk contended) (ProcOk contended rank)) (tasks : Set Nat) :
    ¬Deadlocked w.shared tasks := by
  rintro ⟨⟨i, hi⟩, hdead⟩
  suffices hnone : ∀ up n i l before m after, i ∈ tasks → bound - rank l = up → before.length = n →
      (w.shared l).queue = before ++ (i, m) :: after → False by
    obtain ⟨l, before, m, after, hqueue, -⟩ := hdead i hi
    exact hnone _ _ i l before m after hi rfl rfl hqueue
  intro up
  induction up using Nat.strong_induction_on with
  | _ up ihup =>
    intro n
    induction n using Nat.strong_induction_on with
    | _ n ihn =>
      intro i l before m after hi hup hn hqueue
      have hqueued : (w.shared l).Queued i := ⟨m, by simp [hqueue]⟩
      obtain ⟨l', before', m', after', hqueue', j, hj, -, hblocks⟩ := hdead i hi
      obtain rfl := ((h.2 i).of_queued hqueued).1 l' ⟨m', by simp [hqueue']⟩
      have hnodup := h.1.nodup l'
      rw [hqueue] at hnodup
      obtain rfl := append_cons_inj (hqueue.symm.trans hqueue') hnodup
      have hcontended : contended l' := by
        by_contra hl
        rw [(h.1.onlyRead l' hl).1] at hqueue
        exact absurd hqueue (by simp)
      rcases hblocks with hholds | ⟨k, hahead⟩
      · -- the holder waits for a lock of a higher rank
        obtain ⟨l₂, before₂, m₂, after₂, hqueue₂, -⟩ := hdead j hj
        have hqueued₂ : (w.shared l₂).Queued j := ⟨m₂, by simp [hqueue₂]⟩
        have hlt := ((h.2 j).of_queued hqueued₂).2 l' hholds hcontended
        have hle := hbound l₂
        exact ihup (bound - rank l₂) (by omega) _ j l₂ before₂ m₂ after₂ hj rfl rfl hqueue₂
      · -- the one ahead waits for the same lock
        obtain ⟨first, second, rfl⟩ := List.append_of_mem hahead
        rw [List.append_assoc, List.cons_append] at hqueue
        refine ihn first.length ?_ j l' first k _ hj hup rfl hqueue
        rw [← hn, List.length_append, List.length_cons]
        omega

/-- When every task takes its locks in the order of a rank, no set of tasks is deadlocked. Locks
that no task ever writes are never waited for and need no rank. -/
theorem not_deadlocked {w' : Tasks (L → LockState) (Proc L)} {turns : List (Nat × Unit)}
    (hbound : ∀ l, rank l ≤ bound) (hfree : ∀ l, w.shared l = .free)
    (htasks : ∀ i, ∃ ops, w.task i = .ready ops ∧ Ordered contended rank (fun _ => False) ops)
    (hrun : w.run move turns = some w') (tasks : Set Nat) : ¬Deadlocked w'.shared tasks := by
  have hstart : w.Local (SharedOk contended) (ProcOk contended rank) := by
    refine ⟨⟨fun l => ?_, fun l _ => ?_⟩, fun i => ?_⟩
    · rw [hfree]
      exact List.nodup_nil
    · rw [hfree]
      exact ⟨rfl, fun x hx => nomatch hx⟩
    · obtain ⟨ops, hops, hordered⟩ := htasks i
      rw [hops]
      refine ⟨fun l => ?_, hordered.congr _ _ fun l => ?_⟩
      · rw [hfree]
        rintro ⟨m, ⟨⟩⟩
      · rw [hfree]
        simp [LockState.Holds, LockState.free]
  exact not_deadlocked_of_local hbound (Tasks.run_local move_ok hstart hrun) tasks

end Order

end Base.Locks
