import Orcker.Base.Program

/-!
# Programs that another process interferes with

Before each operation of a program another process may have replaced or removed files. A command
reads the files as it finds them, so that what it is handed belongs to the account of a run
(`Act`). `Withstands` is the rule of inference for what holds of every act, whatever fails and
whatever the other process does to the paths it can write, which may differ from turn to turn.
-/

namespace Base

open List

/-- One operation's turn: what the other process has put at which paths since the last one, in its
order, and how the operation fails if it does. -/
structure Turn where
  edits : List (Str × Option Bytes)
  fault : Option Fault

/-- The other process writes at turn `i` only to paths that `reach i` allows. -/
def Within (reach : Nat → Str → Prop) (turns : List Turn) : Prop :=
  ∀ i turn, turns[i]? = some turn → ∀ e ∈ turn.edits, reach i e.1

/-- A file that was replaced, or a command with the files it found. -/
inductive Act where
  | wrote (path : Str) (data : Bytes)
  | ran (program : Str) (args : List Str) (files : StrMap Bytes)

namespace World

def edit (w : World) (edits : List (Str × Option Bytes)) : World :=
  { w with files := edits.foldl (fun files e => files.put e.1 e.2) w.files }

/-- The files differ at paths in `P` at most. -/
def Beside (P : Str → Prop) (w w' : World) : Prop :=
  ∀ path, ¬P path → w'.files[path]? = w.files[path]?

theorem Beside.refl (P : Str → Prop) (w : World) : Beside P w w := fun _ _ => rfl

theorem Beside.edit {P : Str → Prop} (w : World) {edits : List (Str × Option Bytes)}
    (h : ∀ e ∈ edits, P e.1) : Beside P w (w.edit edits) := by
  intro path hpath
  show (edits.foldl _ w.files)[path]? = _
  generalize w.files = files
  induction edits generalizing files with
  | nil => rfl
  | cons e edits ih =>
    rw [foldl_cons, ih fun e he => h e (mem_cons_of_mem _ he), OrdMap.getElem?_put,
      if_neg]
    rintro rfl
    exact hpath (h e mem_cons_self)

end World

/-- The first turn; when there is none, nothing interferes and nothing fails. -/
def firstTurn (turns : List Turn) : Turn := turns.head?.getD ⟨[], none⟩

section Within

variable {reach : Nat → Str → Prop} {n : Nat} {turns : List Turn}

theorem Within.first (h : Within (fun i => reach (n + i)) turns) (w : World) :
    w.Beside (reach n) (w.edit (firstTurn turns).edits) := by
  cases turns with
  | nil => exact World.Beside.refl _ w
  | cons t turns => exact World.Beside.edit w (h 0 t rfl)

theorem Within.tail (h : Within (fun i => reach (n + i)) turns) :
    Within (fun i => reach (n + 1 + i)) turns.tail := by
  intro i t ht e he
  rw [getElem?_tail] at ht
  have hreach : reach (n + (i + 1)) e.1 := h (i + 1) t ht e he
  rwa [show n + (i + 1) = n + 1 + i by omega] at hreach

end Within

/-- The other process replaces one file at one turn. -/
def meddleAt (i : Nat) (path : Str) (data : Bytes) : List Turn :=
  List.replicate i ⟨[], none⟩ ++ [⟨[(path, some data)], none⟩]

variable {path : Str}

theorem within_meddleAt {reach : Nat → Str → Prop} {i : Nat} (data : Bytes) (h : reach i path) :
    Within reach (meddleAt i path data) := by
  intro j t ht e he
  rw [meddleAt, getElem?_append, length_replicate] at ht
  split at ht
  · next hj =>
    rw [getElem?_replicate, if_pos hj, Option.some.injEq] at ht
    subst ht
    cases he
  · next hj =>
    obtain ⟨hlt, rfl⟩ := List.getElem?_eq_some_iff.1 ht
    rw [length_singleton] at hlt
    obtain rfl : j = i := by omega
    simp only [Nat.sub_self, getElem_cons_zero, mem_singleton] at he
    exact he ▸ h

/-- What a contested run leaves, and the acts on its way. -/
structure Contest (α : Type) where
  acts : List Act
  last : World
  result : α

def Contest.after {α : Type} (act : Act) (c : Contest α) : Contest α :=
  { c with acts := act :: c.acts }

namespace Program

variable {α β : Type}

/-- Execute a program against another process. -/
def contend : Program α → List Turn → World → Contest α
  | done a, _, w => ⟨[], w, a⟩
  | read path next, turns, w =>
    let w := w.edit (firstTurn turns).edits
    (next (w.read (firstTurn turns).fault path)).contend turns.tail w
  | write path data next, turns, w =>
    let w := w.edit (firstTurn turns).edits
    let r := w.write (firstTurn turns).fault path data
    let rest := (next r.1).contend turns.tail r.2
    if (firstTurn turns).fault.isNone then rest.after (.wrote path data) else rest
  | remove path next, turns, w =>
    let w := w.edit (firstTurn turns).edits
    let r := w.remove (firstTurn turns).fault path
    (next r.1).contend turns.tail r.2
  | list dir next, turns, w =>
    let w := w.edit (firstTurn turns).edits
    (next (w.list (firstTurn turns).fault dir)).contend turns.tail w
  | check _ next, turns, w =>
    (next (firstTurn turns).fault.isNone).contend turns.tail (w.edit (firstTurn turns).edits)
  | prepare _ next, turns, w =>
    (next (prepared (firstTurn turns).fault)).contend turns.tail (w.edit (firstTurn turns).edits)
  | run program args next, turns, w =>
    let w := w.edit (firstTurn turns).edits
    let r := w.run (firstTurn turns).fault program args
    ((next r.1).contend turns.tail r.2).after (.ran program args w.files)

section Rule

variable (reach : Nat → Str → Prop) (G : Act → Prop)

/-- From turn `n` in the world `w`, whatever fails and whatever the other process writes within
its reach: `G` holds of every act, and `Q` of the result, the turn and the world at the end. -/
def Withstands (Q : α → Nat → World → Prop) : Program α → Nat → World → Prop
  | done a, n, w => Q a n w
  | read path next, n, w => ∀ w', w.Beside (reach n) w' → ∀ f,
    Withstands Q (next (w'.read f path)) (n + 1) w'
  | write path data next, n, w => ∀ w', w.Beside (reach n) w' → ∀ f,
    (f = none → G (.wrote path data)) ∧
      Withstands Q (next (w'.write f path data).1) (n + 1) (w'.write f path data).2
  | remove path next, n, w => ∀ w', w.Beside (reach n) w' → ∀ f,
    Withstands Q (next (w'.remove f path).1) (n + 1) (w'.remove f path).2
  | list dir next, n, w => ∀ w', w.Beside (reach n) w' → ∀ f,
    Withstands Q (next (w'.list f dir)) (n + 1) w'
  | check _ next, n, w => ∀ w', w.Beside (reach n) w' → ∀ answer,
    Withstands Q (next answer) (n + 1) w'
  | prepare _ next, n, w => ∀ w', w.Beside (reach n) w' → ∀ answer,
    Withstands Q (next answer) (n + 1) w'
  | run program args next, n, w => ∀ w', w.Beside (reach n) w' → ∀ f,
    G (.ran program args w'.files) ∧
      Withstands Q (next (w'.run f program args).1) (n + 1) (w'.run f program args).2

end Rule

variable {reach : Nat → Str → Prop} {G : Act → Prop} {n : Nat} {w : World}

variable {p : Program α}

/-- The rule is sound: what it derives holds of every run within reach. -/
theorem Withstands.contend {Q : α → Nat → World → Prop} (h : Withstands reach G Q p n w)
    {turns : List Turn} (hturns : Within (fun i => reach (n + i)) turns) :
    (∀ act ∈ (p.contend turns w).acts, G act) ∧
      ∃ m, Q (p.contend turns w).result m (p.contend turns w).last := by
  induction p generalizing n w turns with
  | done a => exact ⟨by simp [Program.contend], n, h⟩
  | read _ _ ih | remove _ _ ih | list _ _ ih | check _ _ ih | prepare _ _ ih =>
    exact ih _ (h _ (hturns.first w) _) hturns.tail
  | write path data next ih =>
    obtain ⟨hwrote, hrest⟩ := h _ (hturns.first w) (firstTurn turns).fault
    have hrun := ih _ hrest hturns.tail
    simp only [Program.contend]
    split
    · next hnone =>
      refine ⟨?_, hrun.2⟩
      exact forall_mem_cons.2 ⟨hwrote (Option.isNone_iff_eq_none.1 hnone), hrun.1⟩
    · exact hrun
  | run program args next ih =>
    obtain ⟨hran, hrest⟩ := h _ (hturns.first w) (firstTurn turns).fault
    have hrun := ih _ hrest hturns.tail
    exact ⟨forall_mem_cons.2 ⟨hran, hrun.1⟩, hrun.2⟩

theorem Withstands.bind {f : α → Program β} {Q : β → Nat → World → Prop}
    (h : Withstands reach G (fun a n w => Withstands reach G Q (f a) n w) p n w) :
    Withstands reach G Q (p >>= f) n w := by
  induction p generalizing n w with
  | done a => exact h
  | read _ _ ih | remove _ _ ih | list _ _ ih => exact fun w' hw' fault => ih _ (h w' hw' fault)
  | write _ _ _ ih | run _ _ _ ih => exact fun w' hw' fault => (h w' hw' fault).imp_right (ih _)
  | check _ _ ih | prepare _ _ ih => exact fun w' hw' answer => ih _ (h w' hw' answer)

theorem Withstands.mono {Q Q' : α → Nat → World → Prop} (h : Withstands reach G Q p n w)
    (hQ : ∀ a n w, Q a n w → Q' a n w) : Withstands reach G Q' p n w := by
  induction p generalizing n w with
  | done a => exact hQ a n w h
  | read _ _ ih | remove _ _ ih | list _ _ ih => exact fun w' hw' fault => ih _ (h w' hw' fault)
  | write _ _ _ ih | run _ _ _ ih => exact fun w' hw' fault => (h w' hw' fault).imp_right (ih _)
  | check _ _ ih | prepare _ _ ih => exact fun w' hw' answer => ih _ (h w' hw' answer)

theorem withstands_pure {a : α} {Q : α → Nat → World → Prop} (h : Q a n w) :
    Withstands reach G Q (pure a) n w := h

theorem withstands_readFile {Q : Except IoError Bytes → Nat → World → Prop}
    (h : ∀ w', w.Beside (reach n) w' → (∀ data, w'.files[path]? = some data →
      Q (.ok data) (n + 1) w') ∧ ∀ e, Q (.error e) (n + 1) w') :
    Withstands reach G Q (readFile path) n w := by
  intro w' hw' f
  obtain ⟨hok, herror⟩ := h w' hw'
  cases f with
  | some f => exact herror _
  | none =>
    show Q (w'.read none path) (n + 1) w'
    cases hfile : w'.files[path]? with
    | some data =>
      simp only [World.read, hfile]
      exact hok data hfile
    | none =>
      simp only [World.read, hfile]
      exact herror _

variable {Q : Except IoError Unit → Nat → World → Prop}

theorem withstands_writeFile {data : Bytes} (hG : G (.wrote path data))
    (h : ∀ w', w.Beside (reach n) w' →
      Q (.ok ()) (n + 1) ⟨w'.files.insert path data, w'.deeds ++ [.wrote path data]⟩ ∧
      ∀ e, Q (.error e) (n + 1) w') : Withstands reach G Q (writeFile path data) n w := by
  intro w' hw' f
  obtain ⟨hok, herror⟩ := h w' hw'
  cases f with
  | some f => exact ⟨nofun, herror _⟩
  | none => exact ⟨fun _ => hG, hok⟩

theorem withstands_removeFile (h : ∀ r w', Q r (n + 1) w') :
    Withstands reach G Q (removeFile path) n w :=
  fun _ _ _ => h _ _

theorem withstands_passes {Q : Bool → Nat → World → Prop}
    (h : ∀ w', w.Beside (reach n) w' → ∀ answer, Q answer (n + 1) w') :
    Withstands reach G Q (passes path) n w := h

theorem withstands_prepareAt (h : ∀ w', w.Beside (reach n) w' → ∀ r, Q r (n + 1) w') :
    Withstands reach G Q (prepareAt path) n w := h

theorem withstands_command {program : Str} {args : List Str}
    {Q : Except CommandReason Unit → Nat → World → Prop}
    (hG : ∀ w', w.Beside (reach n) w' → G (.ran program args w'.files))
    (h : ∀ w', w.Beside (reach n) w' → ∀ r deeds, Q r (n + 1) ⟨w'.files, deeds⟩) :
    Withstands reach G Q (command program args) n w := by
  intro w' hw' f
  refine ⟨hG w' hw', ?_⟩
  cases f with
  | some | none => exact h w' hw' _ _

end Program

end Base
