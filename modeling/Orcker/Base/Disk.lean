import Orcker.Base.Map
import Orcker.Base.Utf8

/-!
# Scripts of file operations

What a program does to the files of one directory: a `Script` performs
operations one after another and chooses the next one by the answers so far. A
finished run performs its whole trace; a process that stops on the way has
performed a part of it from the start (`crash`), and each operation either
happened or did not.
-/

namespace Base

open OrdMap

/-- Why a file operation failed. -/
inductive IoError where
  | notFound
  | other (reason : Str)
  deriving DecidableEq

/-- The files of a directory, by name. -/
abbrev Dir := StrMap Bytes

inductive FileOp where
  | createDirAll
  | readDir
  | read (name : Str)
  | write (name : Str) (data : Bytes)
  | remove (name : Str)
  | rename (src dst : Str)
  deriving DecidableEq

variable {name : Str}

namespace FileOp

/-- What an operation answers when it succeeds. -/
abbrev Answer : FileOp → Type
  | readDir => List Str
  | read _ => Bytes
  | _ => Unit

def answer (d : Dir) : (op : FileOp) → Except IoError op.Answer
  | createDirAll => .ok ()
  | readDir => .ok d.keys
  | read name =>
    match d[name]? with
    | some data => .ok data
    | none => .error .notFound
  | write _ _ => .ok ()
  | remove name => if name ∈ d then .ok () else .error .notFound
  | rename src _ => if src ∈ d then .ok () else .error .notFound

/-- What it does to the directory. -/
def effect (d : Dir) : FileOp → Dir
  | createDirAll => d
  | readDir => d
  | read _ => d
  | write name data => d.insert name data
  | remove name => d.erase name
  | rename src dst =>
    match d[src]? with
    | some data => (d.erase src).insert dst data
    | none => d

/-- The files an operation can change. -/
def touches : FileOp → List Str
  | write name _ => [name]
  | remove name => [name]
  | rename src dst => [src, dst]
  | _ => []

theorem getElem?_effect_of_notMem {op : FileOp} (h : name ∉ op.touches) (d : Dir) :
    (op.effect d)[name]? = d[name]? := by
  cases op with
  | createDirAll | readDir | read => rfl
  | write n data =>
    have hne : name ≠ n := by simpa [touches] using h
    rw [effect, getElem?_insert, if_neg hne]
  | remove n =>
    have hne : name ≠ n := by simpa [touches] using h
    rw [effect, getElem?_erase, if_neg hne]
  | rename src dst =>
    have hne : name ≠ src ∧ name ≠ dst := by simpa [touches] using h
    simp only [effect]
    split
    · rw [getElem?_insert, if_neg hne.2, getElem?_erase, if_neg hne.1]
    · rfl

end FileOp

def play (ops : List FileOp) (d : Dir) : Dir := ops.foldl FileOp.effect d

@[simp] theorem play_nil (d : Dir) : play [] d = d := rfl

@[simp] theorem play_cons (op : FileOp) (ops : List FileOp) (d : Dir) :
    play (op :: ops) d = play ops (op.effect d) := rfl

theorem play_append (ops ops' : List FileOp) (d : Dir) :
    play (ops ++ ops') d = play ops' (play ops d) := List.foldl_append

theorem getElem?_play_of_notMem {ops : List FileOp} (h : ∀ op ∈ ops, name ∉ op.touches) (d : Dir) :
    (play ops d)[name]? = d[name]? := by
  induction ops generalizing d with
  | nil => rfl
  | cons op ops ih =>
    rw [play_cons, ih fun op' hop' => h op' (List.mem_cons_of_mem op hop'),
      FileOp.getElem?_effect_of_notMem (h op List.mem_cons_self)]

variable {d : Dir}

theorem getElem?_play_remove (names : List Str) (d : Dir) (name : Str) :
    (play (names.map .remove) d)[name]? = if name ∈ names then none else d[name]? := by
  induction names generalizing d with
  | nil => simp
  | cons n names ih =>
    rw [List.map_cons, play_cons, ih, FileOp.effect, getElem?_erase]
    by_cases hmem : name ∈ names
    · rw [if_pos hmem, if_pos (List.mem_cons_of_mem n hmem)]
    · by_cases hne : name = n
      · rw [if_neg hmem, if_pos hne, if_pos (hne ▸ List.mem_cons_self)]
      · rw [if_neg hmem, if_neg hne, if_neg (by simp [hmem, hne])]

/-- Writing beside a file and renaming over it replaces the file. -/
theorem getElem?_play_replace (tmp dst : Str) (data : Bytes) (d : Dir) (name : Str) :
    (play [.write tmp data, .rename tmp dst] d)[name]? =
      if name = dst then some data else if name = tmp then none else d[name]? := by
  have hwrote : (d.insert tmp data)[tmp]? = some data := by
    rw [getElem?_insert, if_pos rfl]
  simp only [play_cons, play_nil, FileOp.effect, hwrote]
  by_cases hdst : name = dst
  · rw [getElem?_insert, if_pos hdst, if_pos hdst]
  · by_cases htmp : name = tmp
    · rw [getElem?_insert, if_neg hdst, if_neg hdst, getElem?_erase, if_pos htmp,
        if_pos htmp]
    · rw [getElem?_insert, if_neg hdst, if_neg hdst, getElem?_erase, if_neg htmp,
        if_neg htmp, getElem?_insert, if_neg htmp]

/-- A program over the files of one directory. -/
inductive Script (α : Type) where
  | done (a : α)
  | step (op : FileOp) (next : Except IoError op.Answer → Script α)

namespace Script

variable {α β : Type}

def bind : Script α → (α → Script β) → Script β
  | done a, f => f a
  | step op next, f => step op fun answer => (next answer).bind f

instance : Monad Script where
  pure := done
  bind := bind

def createDirAll : Script (Except IoError Unit) := step .createDirAll done

def readDir : Script (Except IoError (List Str)) := step .readDir done

def read (name : Str) : Script (Except IoError Bytes) := step (.read name) done

def write (name : Str) (data : Bytes) : Script (Except IoError Unit) :=
  step (.write name data) done

def rename (src dst : Str) : Script (Except IoError Unit) := step (.rename src dst) done

/-- Performs the operations whatever they answer. -/
def each : List FileOp → Script Unit
  | [] => done ()
  | op :: ops => step op fun _ => each ops

def result : Script α → Dir → α
  | done a, _ => a
  | step op next, d => (next (op.answer d)).result (op.effect d)

/-- The operations that a run performs. -/
def trace : Script α → Dir → List FileOp
  | done _, _ => []
  | step op next, d => op :: (next (op.answer d)).trace (op.effect d)

/-- What a finished run leaves. -/
def final (x : Script α) (d : Dir) : Dir := play (x.trace d) d

/-- The directory left by a process that stops after `n` operations. -/
def crash (n : Nat) (x : Script α) (d : Dir) : Dir := play ((x.trace d).take n) d

@[simp] theorem result_pure (a : α) (d : Dir) : (pure a : Script α).result d = a := rfl

@[simp] theorem trace_pure (a : α) (d : Dir) : (pure a : Script α).trace d = [] := rfl

@[simp] theorem result_createDirAll (d : Dir) : createDirAll.result d = .ok () := rfl

@[simp] theorem trace_createDirAll (d : Dir) : createDirAll.trace d = [.createDirAll] := rfl

@[simp] theorem result_readDir (d : Dir) : readDir.result d = .ok d.keys := rfl

@[simp] theorem trace_readDir (d : Dir) : readDir.trace d = [.readDir] := rfl

@[simp] theorem result_write (name : Str) (data : Bytes) (d : Dir) :
    (write name data).result d = .ok () := rfl

@[simp] theorem trace_write (name : Str) (data : Bytes) (d : Dir) :
    (write name data).trace d = [.write name data] := rfl

theorem result_read_some {data : Bytes} (h : d[name]? = some data) :
    (read name).result d = .ok data := by
  show FileOp.answer d (.read name) = .ok data
  simp only [FileOp.answer, h]

theorem result_read_none (h : d[name]? = none) : (read name).result d = .error .notFound := by
  show FileOp.answer d (.read name) = .error .notFound
  simp only [FileOp.answer, h]

@[simp] theorem trace_read (name : Str) (d : Dir) : (read name).trace d = [.read name] := rfl

theorem result_rename {src dst : Str} (h : src ∈ d) : (rename src dst).result d = .ok () := if_pos h

@[simp] theorem trace_rename (src dst : Str) (d : Dir) :
    (rename src dst).trace d = [.rename src dst] := rfl

@[simp] theorem result_bind (x : Script α) (f : α → Script β) (d : Dir) :
    (x >>= f).result d = (f (x.result d)).result (x.final d) := by
  show (x.bind f).result d = _
  induction x generalizing d with
  | done a => rfl
  | step op next ih => exact ih _ _

@[simp] theorem trace_bind (x : Script α) (f : α → Script β) (d : Dir) :
    (x >>= f).trace d = x.trace d ++ (f (x.result d)).trace (x.final d) := by
  show (x.bind f).trace d = _
  induction x generalizing d with
  | done a => rfl
  | step op next ih => exact congrArg (op :: ·) (ih _ _)

@[simp] theorem final_pure (a : α) (d : Dir) : (pure a : Script α).final d = d := rfl

@[simp] theorem final_bind (x : Script α) (f : α → Script β) (d : Dir) :
    (x >>= f).final d = (f (x.result d)).final (x.final d) := by
  rw [final, trace_bind, play_append]
  rfl

@[simp] theorem final_createDirAll (d : Dir) : createDirAll.final d = d := rfl

@[simp] theorem final_readDir (d : Dir) : readDir.final d = d := rfl

@[simp] theorem final_read (name : Str) (d : Dir) : (read name).final d = d := rfl

@[simp] theorem trace_each (ops : List FileOp) (d : Dir) : (each ops).trace d = ops := by
  induction ops generalizing d with
  | nil => rfl
  | cons op ops ih => exact congrArg (op :: ·) (ih _)

theorem crash_of_length_le {n : Nat} {x : Script α} (h : (x.trace d).length ≤ n) :
    x.crash n d = x.final d := by
  rw [crash, List.take_of_length_le h, final]

end Script

/-! ## Operations that fail

A script run under a schedule of faults: each operation is performed, is refused, or breaks off. A
write that breaks off has emptied its file and put the front of the data there; every other
operation that fails has changed nothing. -/

section

/-- What becomes of an operation. -/
inductive Fate where
  | performed
  | refused (e : IoError)
  | broken (e : IoError) (written : Nat)
  deriving DecidableEq

namespace FileOp

/-- The answer and the directory left. -/
def attempt (fault : Fate) (op : FileOp) (d : Dir) : Except IoError op.Answer × Dir :=
  match fault with
  | .performed => (op.answer d, op.effect d)
  | .refused e => (.error e, d)
  | .broken e written =>
    (.error e,
      match op with
      | .write name data => d.insert name (data.take written)
      | _ => d)

theorem getElem?_attempt_of_notMem {op : FileOp} {name : Str} (h : name ∉ op.touches)
    (fault : Fate) (d : Dir) : (op.attempt fault d).2[name]? = d[name]? := by
  cases fault with
  | performed => exact getElem?_effect_of_notMem h d
  | refused e => rfl
  | broken e written =>
    cases op with
    | write n data =>
      have hne : name ≠ n := by simpa [touches] using h
      show (d.insert n (data.take written))[name]? = d[name]?
      rw [getElem?_insert, if_neg hne]
    | _ => rfl

end FileOp

namespace Script

variable {α β : Type}

/-- Runs a script whose operations are numbered from `n` on: what it returns, the number of the next
operation and the directory left. -/
def attempt (faults : Nat → Fate) : Script α → Nat → Dir → α × Nat × Dir
  | done a, n, d => (a, n, d)
  | step op next, n, d =>
    (next (op.attempt (faults n) d).1).attempt faults (n + 1) (op.attempt (faults n) d).2

section Attempt

variable (faults : Nat → Fate) (n : Nat) (d : Dir)

theorem attempt_pure (a : α) : (pure a : Script α).attempt faults n d = (a, n, d) := rfl

theorem attempt_bind (x : Script α) (f : α → Script β) :
    (x >>= f).attempt faults n d =
      (f (x.attempt faults n d).1).attempt faults (x.attempt faults n d).2.1
        (x.attempt faults n d).2.2 := by
  show (x.bind f).attempt faults n d = _
  induction x generalizing n d with
  | done a => rfl
  | step op next ih => exact ih _ _ _

theorem attempt_write (name : Str) (data : Bytes) :
    (write name data).attempt faults n d =
      (((FileOp.write name data).attempt (faults n) d).1, n + 1,
        ((FileOp.write name data).attempt (faults n) d).2) := rfl

theorem attempt_rename (src dst : Str) :
    (rename src dst).attempt faults n d =
      (((FileOp.rename src dst).attempt (faults n) d).1, n + 1,
        ((FileOp.rename src dst).attempt (faults n) d).2) := rfl

theorem attempt_each_number (ops : List FileOp) :
    ((each ops).attempt faults n d).2.1 = n + ops.length := by
  induction ops generalizing n d with
  | nil => rfl
  | cons op ops ih =>
    show ((each ops).attempt faults (n + 1) _).2.1 = n + (ops.length + 1)
    rw [ih]
    omega

end Attempt

theorem attempt_performed {faults : Nat → Fate} (h : ∀ n, faults n = .performed) (x : Script α)
    (n : Nat) (d : Dir) :
    (x.attempt faults n d).1 = x.result d ∧ (x.attempt faults n d).2.2 = x.final d := by
  induction x generalizing n d with
  | done a => exact ⟨rfl, rfl⟩
  | step op next ih =>
    have hop : op.attempt (faults n) d = (op.answer d, op.effect d) := by rw [h n]; rfl
    rw [attempt, hop]
    exact ih _ _ _

end Script

end

end Base
