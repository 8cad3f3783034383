import Orcker.Base.Disk

/-!
# Programs of file operations and commands

A `Program` reads, replaces and removes files, looks at them and runs commands, and
chooses the next operation by the answers so far. Any operation may fail, and a file
is replaced in one step. An execution passes through one world for each operation
(`instants`): a program which is stopped on the way leaves one of them. `Always` is
the rule of inference for what holds at every instant, whatever fails.
-/

namespace Base

open Std.ExtTreeMap

inductive CommandReason where
  | notFound
  | spawn (source : Str)
  | signal
  | nonZero (code : Int)
  deriving DecidableEq

/-- How an operation fails: with this error of a file operation, or of a command. Absence of a
file is not a failure but an answer. -/
structure Fault where
  io : Str
  command : CommandReason
  deriving DecidableEq

/-- What has been done with success. -/
inductive Deed where
  | wrote (path : Str) (data : Bytes)
  | removed (path : Str)
  | ran (program : Str) (args : List Str)
  deriving DecidableEq

/-- The files by their paths, and the deeds, oldest first. -/
structure World where
  files : StrMap Bytes
  deeds : List Deed

variable {path : Str}

namespace World

def read (w : World) (f : Option Fault) (path : Str) : Except IoError Bytes :=
  match f, w.files[path]? with
  | some f, _ => .error (.other f.io)
  | none, some data => .ok data
  | none, none => .error .notFound

def write (w : World) (f : Option Fault) (path : Str) (data : Bytes) :
    Except IoError Unit × World :=
  match f with
  | some f => (.error (.other f.io), w)
  | none => (.ok (), ⟨w.files.insert path data, w.deeds ++ [.wrote path data]⟩)

def remove (w : World) (f : Option Fault) (path : Str) : Except IoError Unit × World :=
  match f with
  | some f => (.error (.other f.io), w)
  | none =>
    if path ∈ w.files then (.ok (), ⟨w.files.erase path, w.deeds ++ [.removed path]⟩)
    else (.error .notFound, w)

/-- The entries of a directory, by name. -/
def names (w : World) (dir : Str) : List Str :=
  w.files.keys.filterMap fun path =>
    (path.dropPrefix? (dir ++ "/")).filter fun name => !name.contains '/'

def list (w : World) (f : Option Fault) (dir : Str) : Except IoError (List Str) :=
  match f with
  | some f => .error (.other f.io)
  | none => .ok (w.names dir)

def run (w : World) (f : Option Fault) (program : Str) (args : List Str) :
    Except CommandReason Unit × World :=
  match f with
  | some f => (.error f.command, w)
  | none => (.ok (), { w with deeds := w.deeds ++ [.ran program args] })

theorem getElem?_remove (w : World) (path other : Str) :
    (w.remove none path).2.files[other]? = if path = other then none else w.files[other]? := by
  by_cases hfile : path ∈ w.files
  · simp [remove, hfile, getElem?_erase]
  · simp only [remove, hfile, if_false]
    split
    · next h => exact getElem?_eq_none (h ▸ hfile)
    · rfl

theorem mem_of_mem_remove {w : World} {other : Str} (h : other ∈ (w.remove none path).2.files) :
    other ∈ w.files := by
  rw [mem_iff_isSome_getElem?, getElem?_remove] at h
  split at h
  · cases h
  · exact mem_iff_isSome_getElem?.2 h

theorem mem_names {w : World} {dir name : Str} :
    name ∈ w.names dir ↔ '/' ∉ name ∧ dir ++ "/" ++ name ∈ w.files := by
  simp only [names, List.mem_filterMap, Option.filter_eq_some_iff, dropPrefix?_eq_some]
  constructor
  · rintro ⟨path, hpath, rfl, hslash⟩
    exact ⟨by simpa using hslash, mem_keys.1 hpath⟩
  · rintro ⟨hslash, hfile⟩
    exact ⟨_, mem_keys.2 hfile, rfl, by simpa using hslash⟩

end World

/-- It chooses the next operation by the answers so far. -/
inductive Program (α : Type) where
  | done (a : α)
  | read (path : Str) (next : Except IoError Bytes → Program α)
  | write (path : Str) (data : Bytes) (next : Except IoError Unit → Program α)
  | remove (path : Str) (next : Except IoError Unit → Program α)
  | list (dir : Str) (next : Except IoError (List Str) → Program α)
  /-- Does the thing at this path pass a check, of its owner, its kind or its mode? -/
  | check (path : Str) (next : Bool → Program α)
  /-- An operation that leaves the files as they are: to create a directory, to fill a temporary
  file beside the one it will replace. -/
  | prepare (path : Str) (next : Except IoError Unit → Program α)
  | run (program : Str) (args : List Str) (next : Except CommandReason Unit → Program α)

/-- An execution: the worlds before each operation, the world it leaves, and its result. -/
structure Execution (α : Type) where
  before : List World
  last : World
  result : α

/-- The worlds an execution passes through; a program that is stopped leaves one of them. -/
def Execution.instants {α : Type} (e : Execution α) : List World := e.before ++ [e.last]

/-- `I` holds at every instant, and `Q` of the result and the world that is left. -/
def Execution.Obeys {α : Type} (e : Execution α) (I : World → Prop) (Q : α → World → Prop) : Prop :=
  (∀ w ∈ e.instants, I w) ∧ Q e.result e.last

namespace Program

variable {α β : Type}

protected def bind : Program α → (α → Program β) → Program β
  | done a, f => f a
  | read path next, f => read path fun r => (next r).bind f
  | write path data next, f => write path data fun r => (next r).bind f
  | remove path next, f => remove path fun r => (next r).bind f
  | list dir next, f => list dir fun r => (next r).bind f
  | check path next, f => check path fun r => (next r).bind f
  | prepare path next, f => prepare path fun r => (next r).bind f
  | run program args next, f => run program args fun r => (next r).bind f

instance : Monad Program where
  pure := done
  bind := Program.bind

/-- The fault of the first operation, when there is one, and those of the others. -/
def fault (faults : List (Option Fault)) : Option Fault := faults.head?.join

/-- Execute a program. `faults` says of each operation whether it fails; those beyond its end do
not. -/
def exec : Program α → List (Option Fault) → World → Execution α
  | done a, _, w => ⟨[], w, a⟩
  | read path next, fs, w => step w ((next (w.read (fault fs) path)).exec fs.tail w)
  | write path data next, fs, w =>
    let r := w.write (fault fs) path data
    step w ((next r.1).exec fs.tail r.2)
  | remove path next, fs, w =>
    let r := w.remove (fault fs) path
    step w ((next r.1).exec fs.tail r.2)
  | list dir next, fs, w => step w ((next (w.list (fault fs) dir)).exec fs.tail w)
  | check _ next, fs, w => step w ((next (fault fs).isNone).exec fs.tail w)
  | prepare _ next, fs, w =>
    let r := match fault fs with
      | some f => .error (.other f.io)
      | none => .ok ()
    step w ((next r).exec fs.tail w)
  | run program args next, fs, w =>
    let r := w.run (fault fs) program args
    step w ((next r.1).exec fs.tail r.2)
where
  /-- One more operation in front. -/
  step (w : World) (e : Execution α) : Execution α := { e with before := w :: e.before }

/-- The faults that are left when an execution is over. -/
def left (faults : List (Option Fault)) (e : Execution α) : List (Option Fault) :=
  faults.drop e.before.length

theorem exec_bind (p : Program α) (f : α → Program β) (faults : List (Option Fault)) (w : World) :
    (p >>= f).exec faults w =
      let e := p.exec faults w
      let e' := (f e.result).exec (left faults e) e.last
      ⟨e.before ++ e'.before, e'.last, e'.result⟩ := by
  have hstep : ∀ (w : World) (e : Execution α) (fs : List (Option Fault)),
      left fs (exec.step w e) = left fs.tail e := by
    intro w e fs
    simp [exec.step, left]
  induction p generalizing faults w with
  | done a => rfl
  | read _ _ ih | write _ _ _ ih | remove _ _ ih | list _ _ ih | check _ _ ih | prepare _ _ ih
  | run _ _ _ ih =>
    simp only [exec, hstep]
    exact congrArg (exec.step w) (ih _ _ _)

def readFile (path : Str) : Program (Except IoError Bytes) := .read path .done

def writeFile (path : Str) (data : Bytes) : Program (Except IoError Unit) := .write path data .done

def removeFile (path : Str) : Program (Except IoError Unit) := .remove path .done

def readDir (dir : Str) : Program (Except IoError (List Str)) := .list dir .done

def passes (path : Str) : Program Bool := .check path .done

def prepareAt (path : Str) : Program (Except IoError Unit) := .prepare path .done

def command (program : Str) (args : List Str) : Program (Except CommandReason Unit) :=
  .run program args .done

@[simp] theorem exec_pure (a : α) (faults : List (Option Fault)) (w : World) :
    (pure a : Program α).exec faults w = ⟨[], w, a⟩ := rfl

@[simp] theorem exec_readFile (path : Str) (faults : List (Option Fault)) (w : World) :
    (readFile path).exec faults w = ⟨[w], w, w.read (fault faults) path⟩ := rfl

@[simp] theorem exec_writeFile (path : Str) (data : Bytes) (faults : List (Option Fault))
    (w : World) : (writeFile path data).exec faults w =
      ⟨[w], (w.write (fault faults) path data).2, (w.write (fault faults) path data).1⟩ := rfl

@[simp] theorem exec_command (program : Str) (args : List Str) (faults : List (Option Fault))
    (w : World) : (command program args).exec faults w =
      ⟨[w], (w.run (fault faults) program args).2, (w.run (fault faults) program args).1⟩ := rfl

/-- The answer of an operation that leaves the files as they are. -/
def prepared (f : Option Fault) : Except IoError Unit :=
  f.elim (.ok ()) fun f => .error (.other f.io)

@[simp] theorem exec_prepareAt (path : Str) (faults : List (Option Fault)) (w : World) :
    (prepareAt path).exec faults w = ⟨[w], w, prepared (fault faults)⟩ := by
  cases h : fault faults <;> simp [prepareAt, exec, exec.step, prepared, h]

/-- From the world `w`, whatever fails: `I` holds at every instant, and `Q` of the result and the
world that is left. -/
def Always (I : World → Prop) (Q : α → World → Prop) : Program α → World → Prop
  | done a, w => I w ∧ Q a w
  | read path next, w => I w ∧ ∀ f, Always I Q (next (w.read f path)) w
  | write path data next, w =>
    I w ∧ ∀ f, Always I Q (next (w.write f path data).1) (w.write f path data).2
  | remove path next, w => I w ∧ ∀ f, Always I Q (next (w.remove f path).1) (w.remove f path).2
  | list dir next, w => I w ∧ ∀ f, Always I Q (next (w.list f dir)) w
  | check _ next, w => I w ∧ ∀ answer, Always I Q (next answer) w
  | prepare _ next, w => I w ∧ ∀ answer, Always I Q (next answer) w
  | run program args next, w =>
    I w ∧ ∀ f, Always I Q (next (w.run f program args).1) (w.run f program args).2

variable {I : World → Prop} {Q : α → World → Prop} {R : β → World → Prop} {w : World}

theorem obeys_step {e : Execution α} (hI : I w) (he : e.Obeys I Q) : (exec.step w e).Obeys I Q := by
  refine ⟨fun w' hw' => ?_, he.2⟩
  rcases List.mem_cons.1 hw' with rfl | hw'
  · exact hI
  · exact he.1 w' hw'

variable {p : Program α}

/-- The rule is sound. -/
theorem Always.exec (h : Always I Q p w) (faults : List (Option Fault)) :
    (p.exec faults w).Obeys I Q := by
  induction p generalizing faults w with
  | done a =>
    refine ⟨fun w' hw' => ?_, h.2⟩
    rw [List.mem_singleton.1 hw']
    exact h.1
  | read _ _ ih | write _ _ _ ih | remove _ _ ih | list _ _ ih | check _ _ ih | prepare _ _ ih
  | run _ _ _ ih => exact obeys_step h.1 (ih _ (h.2 _) _)

theorem Always.bind {f : α → Program β} (h : Always I (fun a w => Always I R (f a) w) p w) :
    Always I R (p >>= f) w := by
  induction p generalizing w with
  | done a => exact h.2
  | read _ _ ih | write _ _ _ ih | remove _ _ ih | list _ _ ih | run _ _ _ ih =>
    exact ⟨h.1, fun fault => ih _ (h.2 fault)⟩
  | check _ _ ih | prepare _ _ ih => exact ⟨h.1, fun answer => ih _ (h.2 answer)⟩

theorem Always.mono {Q' : α → World → Prop} (h : Always I Q p w) (hQ : ∀ a w, I w → Q a w → Q' a w) :
    Always I Q' p w := by
  induction p generalizing w with
  | done a => exact ⟨h.1, hQ a w h.1 h.2⟩
  | read _ _ ih | write _ _ _ ih | remove _ _ ih | list _ _ ih | run _ _ _ ih =>
    exact ⟨h.1, fun fault => ih _ (h.2 fault)⟩
  | check _ _ ih | prepare _ _ ih => exact ⟨h.1, fun answer => ih _ (h.2 answer)⟩

theorem always_pure {a : α} (hI : I w) (hQ : Q a w) : Always I Q (pure a) w := ⟨hI, hQ⟩

theorem always_readFile {Q : Except IoError Bytes → World → Prop} (hI : I w)
    (hok : ∀ data, w.files[path]? = some data → Q (.ok data) w)
    (habsent : w.files[path]? = none → Q (.error .notFound) w)
    (hfails : ∀ e, Q (.error (.other e)) w) : Always I Q (readFile path) w := by
  refine ⟨hI, fun f => ⟨hI, ?_⟩⟩
  cases f with
  | some f => exact hfails f.io
  | none =>
    cases hfile : w.files[path]? with
    | some data =>
      simp only [World.read, hfile]
      exact hok data hfile
    | none =>
      simp only [World.read, hfile]
      exact habsent hfile

variable {Q : Except IoError Unit → World → Prop}

theorem always_writeFile {data : Bytes} (hI : I w)
    (hI' : I ⟨w.files.insert path data, w.deeds ++ [.wrote path data]⟩)
    (hok : Q (.ok ()) ⟨w.files.insert path data, w.deeds ++ [.wrote path data]⟩)
    (hfails : ∀ e, Q (.error (.other e)) w) : Always I Q (writeFile path data) w := by
  refine ⟨hI, fun f => ?_⟩
  cases f with
  | some f => exact ⟨hI, hfails f.io⟩
  | none => exact ⟨hI', hok⟩

theorem always_removeFile (hI : I w)
    (hI' : path ∈ w.files → I ⟨w.files.erase path, w.deeds ++ [.removed path]⟩)
    (hok : path ∈ w.files → Q (.ok ()) ⟨w.files.erase path, w.deeds ++ [.removed path]⟩)
    (habsent : path ∉ w.files → Q (.error .notFound) w) (hfails : ∀ e, Q (.error (.other e)) w) :
    Always I Q (removeFile path) w := by
  refine ⟨hI, fun f => ?_⟩
  cases f with
  | some f => exact ⟨hI, hfails f.io⟩
  | none =>
    by_cases hfile : path ∈ w.files
    · simp only [World.remove, if_pos hfile]
      exact ⟨hI' hfile, hok hfile⟩
    · simp only [World.remove, if_neg hfile]
      exact ⟨hI, habsent hfile⟩

theorem always_prepareAt (hI : I w) (hQ : ∀ r, Q r w) : Always I Q (prepareAt path) w :=
  ⟨hI, fun r => ⟨hI, hQ r⟩⟩

theorem always_command {program : Str} {args : List Str}
    {Q : Except CommandReason Unit → World → Prop} (hI : I w)
    (hI' : I { w with deeds := w.deeds ++ [.ran program args] })
    (hok : Q (.ok ()) { w with deeds := w.deeds ++ [.ran program args] })
    (hfails : ∀ e, Q (.error e) w) : Always I Q (command program args) w := by
  refine ⟨hI, fun f => ?_⟩
  cases f with
  | some f => exact ⟨hI, hfails f.command⟩
  | none => exact ⟨hI', hok⟩

/-- The result and the world left when nothing fails. -/
def clean (p : Program α) (w : World) : α × World := ((p.exec [] w).result, (p.exec [] w).last)

@[simp] theorem clean_pure (a : α) : clean (pure a) w = (a, w) := rfl

@[simp] theorem clean_bind (p : Program α) (f : α → Program β) :
    clean (p >>= f) w = clean (f (clean p w).1) (clean p w).2 := by
  induction p generalizing w with
  | done a => rfl
  | read _ _ ih | write _ _ _ ih | remove _ _ ih | list _ _ ih | check _ _ ih | prepare _ _ ih
  | run _ _ _ ih => exact ih _

@[simp] theorem clean_readFile (path : Str) :
    clean (readFile path) w = ((w.files[path]?).elim (.error .notFound) .ok, w) := by
  show (w.read none path, w) = _
  cases h : w.files[path]? <;> simp [World.read, h]

@[simp] theorem clean_writeFile (path : Str) (data : Bytes) :
    clean (writeFile path data) w
      = (.ok (), ⟨w.files.insert path data, w.deeds ++ [.wrote path data]⟩) := rfl

@[simp] theorem clean_removeFile (path : Str) :
    clean (removeFile path) w = w.remove none path := rfl

@[simp] theorem clean_readDir (dir : Str) : clean (readDir dir) w = (.ok (w.names dir), w) := rfl

@[simp] theorem clean_passes (path : Str) : clean (passes path) w = (true, w) := rfl

@[simp] theorem clean_prepareAt (path : Str) : clean (prepareAt path) w = (.ok (), w) := rfl

end Program

end Base
