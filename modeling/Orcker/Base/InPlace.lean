import Orcker.Base.Disk

/-!
# Files written in place

Programs that overwrite files where they are and set their permissions. A write opens the file,
which empties it or creates it with the permissions the umask leaves, and then appends the bytes.
The process may stop before any operation, and a write also after any number of bytes; an operation
that fails leaves the same. `Along` is the rule of inference for what holds at every instant and
at the end.
-/

namespace Base.InPlace

open List

/-- Permission bits: the owner's, the group's and the others'. -/
abbrev Mode := BitVec 9

structure File where
  data : Bytes
  mode : Mode
  deriving DecidableEq

/-- The files by path. -/
abbrev Files := StrMap File

/-- The file holds `data`. Its permissions stay, if it is there. -/
def fill (umask : Mode) (t : Files) (path : Str) (data : Bytes) : Files :=
  t.insert path ⟨data, (t[path]?.map File.mode).getD (0o666 &&& ~~~umask)⟩

theorem getElem?_fill (umask : Mode) (t : Files) (path : Str) (data : Bytes) (other : Str) :
    (fill umask t path data)[other]? =
      if other = path then some ⟨data, (t[path]?.map File.mode).getD (0o666 &&& ~~~umask)⟩
      else t[other]? := OrdMap.getElem?_insert _ _ _ _

inductive Op where
  | isThere (path : Str)
  | read (path : Str)
  | createDirAll (path : Str)
  | write (path : Str) (data : Bytes)
  | chmod (path : Str) (mode : Mode)
  deriving DecidableEq

/-- How an operation goes. `part` says what a write has done by then: nothing, or the file was
opened and so many bytes are in it. -/
inductive Fate where
  | done
  | fails (part : Option Nat) (e : IoError)
  | stops (part : Option Nat)
  deriving DecidableEq

/-- How many bytes of a write have come to the file, once it was opened. -/
def Fate.written (data : Bytes) : Fate → Option Nat
  | done => some data.length
  | fails part _ | stops part => part

variable {t : Files} {path : Str} {data : Bytes} {fate : Fate}

namespace Op

abbrev Answer : Op → Type
  | isThere _ => Bool
  | read _ => Except IoError Bytes
  | _ => Except IoError Unit

/-- The files at each instant after the operation began, the last as it leaves them. -/
def passed (umask : Mode) (t : Files) : Op → Fate → List Files
  | write path data, fate =>
    match fate.written data with
    | none => []
    | some n => (List.range (n + 1)).map fun i => fill umask t path (data.take i)
  | chmod path mode, .done =>
    match t[path]? with
    | some f => [t.insert path { f with mode := mode }]
    | none => []
  | _, _ => []

/-- What an operation leaves, however it ends. -/
def left (umask : Mode) (t : Files) (op : Op) (fate : Fate) : Files :=
  (op.passed umask t fate).getLastD t

/-- What the program is told; nothing if it stops. To look whether a file is there cannot fail. -/
def answer (t : Files) : (op : Op) → Fate → Option op.Answer
  | _, .stops _ => none
  | isThere path, _ => some (decide (path ∈ t))
  | read _, .fails _ e => some (.error e)
  | read path, .done =>
    match t[path]? with
    | some f => some (.ok f.data)
    | none => some (.error .notFound)
  | createDirAll _, .fails _ e => some (.error e)
  | createDirAll _, .done => some (.ok ())
  | write _ _, .fails _ e => some (.error e)
  | write _ _, .done => some (.ok ())
  | chmod _ _, .fails _ e => some (.error e)
  | chmod path _, .done => if path ∈ t then some (.ok ()) else some (.error .notFound)

theorem left_write {umask : Mode} :
    (write path data).left umask t fate =
      (fate.written data).elim t fun n => fill umask t path (data.take n) := by
  cases h : fate.written data with
  | none => simp [left, passed, h]
  | some n => simp [left, passed, h, range_succ]

theorem mem_passed_write {umask : Mode} {u : Files} (hu : u ∈ (write path data).passed umask t fate)
    : ∃ i n, fate.written data = some n ∧ i ≤ n ∧ u = fill umask t path (data.take i) := by
  cases h : fate.written data with
  | none => simp [passed, h] at hu
  | some n =>
    simp only [passed, h, mem_map, mem_range] at hu
    obtain ⟨i, hi, rfl⟩ := hu
    exact ⟨i, n, rfl, by omega, rfl⟩

end Op

/-- A program that continues by the answers it gets. -/
inductive Prog (α : Type) where
  | done (a : α)
  | call (op : Op) (next : op.Answer → Prog α)

/-- A run: the files at each instant after it began, the operations with their fates, and what it
returned unless it was stopped. -/
structure Run (α : Type) where
  passed : List Files
  calls : List (Op × Fate)
  result : Option α

/-- What a run leaves of the files it found. -/
def Run.left {α : Type} (r : Run α) (t : Files) : Files := r.passed.getLastD t

namespace Prog

variable {α β : Type}

protected def bind : Prog α → (α → Prog β) → Prog β
  | done a, f => f a
  | call op next, f => call op fun answer => (next answer).bind f

instance : Monad Prog where
  pure := done
  bind := Prog.bind

def isThere (path : Str) : Prog Bool := call (.isThere path) done

def read (path : Str) : Prog (Except IoError Bytes) := call (.read path) done

def createDirAll (path : Str) : Prog (Except IoError Unit) := call (.createDirAll path) done

def write (path : Str) (data : Bytes) : Prog (Except IoError Unit) := call (.write path data) done

def chmod (path : Str) (mode : Mode) : Prog (Except IoError Unit) := call (.chmod path mode) done

/-- Run a program. Operations beyond the list of fates succeed. -/
def run (umask : Mode) : Prog α → List Fate → Files → Run α
  | done a, _, _ => ⟨[], [], some a⟩
  | call op next, fates, t =>
    let fate := fates.headD .done
    match op.answer t fate with
    | none => ⟨op.passed umask t fate, [(op, fate)], none⟩
    | some a =>
      let rest := (next a).run umask fates.tail (op.left umask t fate)
      ⟨op.passed umask t fate ++ rest.passed, (op, fate) :: rest.calls, rest.result⟩

variable {umask : Mode} {ok : Op → Fate → Prop} {G : Files → Prop}

/-- In a run from `t` whose operations go as `ok` allows: `G` holds at every instant, and `Q` of
the result, or of none, and what is left. -/
def Along (umask : Mode) (ok : Op → Fate → Prop) (G : Files → Prop)
    (Q : Option α → Files → Prop) : Prog α → Files → Prop
  | done a, t => Q (some a) t
  | call op next, t => ∀ fate, ok op fate → (∀ u ∈ op.passed umask t fate, G u) ∧
    match op.answer t fate with
    | none => Q none (op.left umask t fate)
    | some a => Along umask ok G Q (next a) (op.left umask t fate)

theorem getLastD_append (a b : List Files) (t : Files) :
    (a ++ b).getLastD t = b.getLastD (a.getLastD t) := by
  cases b with
  | nil => simp
  | cons x xs => simp [getLastD_eq_getLast?, getLast?_append]

variable {p : Prog α}

/-- The rule is sound. -/
theorem Along.run {Q : Option α → Files → Prop} {fates : List Fate} (h : Along umask ok G Q p t)
    (hok : ∀ c ∈ (p.run umask fates t).calls, ok c.1 c.2) :
    (∀ u ∈ (p.run umask fates t).passed, G u) ∧
      Q (p.run umask fates t).result ((p.run umask fates t).left t) := by
  induction p generalizing fates t with
  | done a => exact ⟨nofun, h⟩
  | call op next ih =>
    cases hanswer : op.answer t (fates.headD .done) with
    | none =>
      simp only [Prog.run, hanswer] at hok ⊢
      obtain ⟨hG, hQ⟩ := h _ (hok _ mem_cons_self)
      rw [hanswer] at hQ
      exact ⟨hG, hQ⟩
    | some a =>
      simp only [Prog.run, hanswer] at hok ⊢
      obtain ⟨hG, hQ⟩ := h _ (hok _ mem_cons_self)
      rw [hanswer] at hQ
      obtain ⟨hG', hQ'⟩ := ih a hQ fun c hc => hok c (mem_cons_of_mem _ hc)
      refine ⟨fun u hu => ?_, ?_⟩
      · rcases mem_append.1 hu with hu | hu
        · exact hG u hu
        · exact hG' u hu
      · rw [Run.left, getLastD_append]
        exact hQ'

theorem Along.mono {Q Q' : Option α → Files → Prop} (h : Along umask ok G Q p t)
    (hQ : ∀ r u, Q r u → Q' r u) : Along umask ok G Q' p t := by
  induction p generalizing t with
  | done a => exact hQ _ _ h
  | call op next ih =>
    intro fate hfate
    obtain ⟨hG, hrest⟩ := h fate hfate
    refine ⟨hG, ?_⟩
    cases hanswer : op.answer t fate with
    | none =>
      rw [hanswer] at hrest
      exact hQ _ _ hrest
    | some a =>
      rw [hanswer] at hrest
      exact ih a hrest

theorem Along.bind {Q : Option β → Files → Prop} {f : α → Prog β} (h : Along umask ok G
      (fun r u => r.elim (Q none u) fun a => Along umask ok G Q (f a) u) p t) :
    Along umask ok G Q (p >>= f) t := by
  induction p generalizing t with
  | done a => exact h
  | call op next ih =>
    intro fate hfate
    obtain ⟨hG, hrest⟩ := h fate hfate
    refine ⟨hG, ?_⟩
    cases hanswer : op.answer t fate with
    | none =>
      rw [hanswer] at hrest
      exact hrest
    | some a =>
      rw [hanswer] at hrest
      exact ih a hrest

theorem left_of_passed {r : Run α} (h : ∀ u ∈ r.passed, G u) (ht : G t) : G (r.left t) := by
  rw [Run.left, getLastD_eq_getLast?]
  cases hlast : r.passed.getLast? with
  | none => exact ht
  | some u => exact h u (mem_of_getLast? hlast)

theorem along_isThere {Q : Option Bool → Files → Prop}
    (hstop : ∀ fate, ok (.isThere path) fate → fate ≠ .done → Q none t)
    (hdone : Q (some (decide (path ∈ t))) t) : Along umask ok G Q (isThere path) t := by
  intro fate hfate
  cases fate with
  | stops part => exact ⟨nofun, hstop _ hfate nofun⟩
  | fails | done => exact ⟨nofun, hdone⟩

/-- What is to be shown where an operation stops the program or fails, with the files as in `t`. -/
def Bad {γ : Type} (ok : Op → Fate → Prop) (Q : Option (Except IoError γ) → Files → Prop) (op : Op)
    (t : Files) : Prop :=
  ∀ fate, ok op fate → fate ≠ .done → Q none t ∧ ∀ e, Q (some (.error e)) t

theorem along_read {Q : Option (Except IoError Bytes) → Files → Prop} {f : File}
    (hfile : t[path]? = some f) (hbad : Bad ok Q (.read path) t) (hdone : Q (some (.ok f.data)) t) :
    Along umask ok G Q (read path) t := by
  intro fate hfate
  cases fate with
  | stops part => exact ⟨nofun, (hbad _ hfate nofun).1⟩
  | fails part e => exact ⟨nofun, (hbad _ hfate nofun).2 e⟩
  | done =>
    refine ⟨nofun, ?_⟩
    simp only [Op.answer, hfile]
    exact hdone

variable {Q : Option (Except IoError Unit) → Files → Prop}

theorem along_createDirAll (hbad : Bad ok Q (.createDirAll path) t) (hdone : Q (some (.ok ())) t) :
    Along umask ok G Q (createDirAll path) t := by
  intro fate hfate
  cases fate with
  | stops part => exact ⟨nofun, (hbad _ hfate nofun).1⟩
  | fails part e => exact ⟨nofun, (hbad _ hfate nofun).2 e⟩
  | done => exact ⟨nofun, hdone⟩

theorem along_chmod {mode : Mode} {f : File} (hfile : t[path]? = some f)
    (hG : G (t.insert path { f with mode := mode })) (hbad : Bad ok Q (.chmod path mode) t)
    (hdone : Q (some (.ok ())) (t.insert path { f with mode := mode })) :
    Along umask ok G Q (chmod path mode) t := by
  have hmem : path ∈ t := (OrdMap.mem_iff_exists _ _).2 ⟨f, hfile⟩
  intro fate hfate
  cases fate with
  | stops part => exact ⟨nofun, (hbad _ hfate nofun).1⟩
  | fails part e => exact ⟨nofun, (hbad _ hfate nofun).2 e⟩
  | done =>
    simp only [Op.passed, Op.left, Op.answer, hfile, hmem, if_true, mem_singleton, forall_eq]
    exact ⟨hG, hdone⟩

theorem along_write (hG : ∀ i, G (fill umask t path (data.take i)))
    (hbad : Bad ok Q (.write path data) t)
    (hpart : ∀ fate n, ok (.write path data) fate → fate ≠ .done → fate.written data = some n →
      Q none (fill umask t path (data.take n)) ∧
      ∀ e, Q (some (.error e)) (fill umask t path (data.take n)))
    (hdone : Q (some (.ok ())) (fill umask t path data)) :
    Along umask ok G Q (write path data) t := by
  intro fate hfate
  refine ⟨fun u hu => ?_, ?_⟩
  · obtain ⟨i, n, -, -, rfl⟩ := Op.mem_passed_write hu
    exact hG i
  · cases fate with
    | done =>
      simp only [Op.left_write, Fate.written, Option.elim, take_length]
      exact hdone
    | fails part e =>
      simp only [Op.left_write, Fate.written]
      cases part with
      | none => exact (hbad _ hfate nofun).2 e
      | some n => exact (hpart _ n hfate nofun rfl).2 e
    | stops part =>
      simp only [Op.left_write, Fate.written]
      cases part with
      | none => exact (hbad _ hfate nofun).1
      | some n => exact (hpart _ n hfate nofun rfl).1

end Prog

end Base.InPlace
