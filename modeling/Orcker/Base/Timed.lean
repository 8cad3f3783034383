import Orcker.Base.Utf8

/-!
# Directory trees with modification times

What is below one directory, by its path from there. Adding or removing an entry makes its
directory younger, writing makes the file younger, and nothing else changes a modification time.
`Change.keeps` says what a change leaves of a place it does not displace.
-/

namespace Base.Timed

open List Option

/-- A path from the root of the tree, which is `[]`. -/
abbrev Place := List Str

/-- A file or a directory, and when it was last modified. -/
inductive Node where
  | file (data : Bytes) (mtime : Nat)
  | dir (mtime : Nat)
  deriving DecidableEq

def Node.mtime : Node → Nat
  | file _ m | dir m => m

def Node.at_ (time : Nat) : Node → Node
  | file data _ => file data time
  | dir _ => dir time

/-- Only directories have entries. -/
def Closed (node : Place → Option Node) : Prop :=
  ∀ p name, node (p ++ [name]) ≠ none → ∃ m, node p = some (.dir m)

/-- Nothing is below what is not a directory. -/
structure Tree where
  node : Place → Option Node
  closed : Closed node

namespace Tree

def bare (mtime : Nat) : Tree where
  node p := if p = [] then some (.dir mtime) else none
  closed p name h := absurd (if_neg (by simp)) h

variable (t : Tree)

def exists_ (p : Place) : Bool := (t.node p).isSome

def isFile (p : Place) : Bool :=
  match t.node p with
  | some (.file _ _) => true
  | _ => false

def read (p : Place) : Option Bytes :=
  match t.node p with
  | some (.file data _) => some data
  | _ => none

def modified (p : Place) : Option Nat := (t.node p).map Node.mtime

def dirBefore (p : Place) (time : Nat) : Bool :=
  match t.node p with
  | some (.dir m) => m < time
  | _ => false

theorem dirBefore_iff {t : Tree} {p : Place} {time : Nat} :
    t.dirBefore p time = true ↔ ∃ m, t.node p = some (.dir m) ∧ m < time := by
  unfold dirBefore
  split
  · rename_i m hm
    simp [hm]
  · rename_i hne
    simp only [Bool.false_eq_true, false_iff, not_exists, not_and]
    exact fun m hm => absurd hm (hne m)

theorem node_eq_none_of_isPrefix {p q : Place} (h : t.node p = none) (hpq : p <+: q) :
    t.node q = none := by
  obtain ⟨rest, rfl⟩ := hpq
  induction rest using reverseRecOn with
  | nil => rwa [append_nil]
  | append_singleton rest name ih =>
    by_contra hne
    rw [← append_assoc] at hne
    obtain ⟨m, hm⟩ := t.closed _ name hne
    rw [ih] at hm
    cases hm

end Tree

theorem not_isPrefix_dir {dir : Place} {name : Str} : ¬dir ++ [name] <+: dir :=
  fun h => by simpa using h.length_le

section

variable {node : Place → Option Node}

def touch (node : Place → Option Node) (p : Place) (time : Nat) (q : Place) : Option Node :=
  if q = p then (node q).map (Node.at_ time) else node q

theorem Closed.touch (h : Closed node) (p : Place) (time : Nat) :
    Closed (touch node p time) := by
  intro q name hne
  have hold : node (q ++ [name]) ≠ none := by
    intro hnone
    simp [Timed.touch, hnone] at hne
  obtain ⟨m, hm⟩ := h q name hold
  unfold Timed.touch
  split_ifs
  · exact ⟨time, by rw [hm]; rfl⟩
  · exact ⟨m, hm⟩

/-- A change, with the modification times it gives to directories whose entries change and to a
file that is written. -/
inductive Change where
  | create (dir : Place) (name : Str) (new : Node) (time : Nat)
  /-- With everything below. -/
  | remove (dir : Place) (name : Str) (time : Nat)
  | rename (srcDir : Place) (src : Str) (dstDir : Place) (dst : Str) (srcTime dstTime : Nat)
  | write (file : Place) (data : Bytes) (time : Nat)

def moved (node : Place → Option Node) (src dst : Place) (q : Place) : Option Node :=
  if dst <+: q then node (src ++ q.drop dst.length)
  else if src <+: q then none
  else node q

variable {m : Nat}

theorem Closed.moved (h : Closed node) {src dstDir : Place} {dst : Str}
    (hdir : node dstDir = some (.dir m)) (hsrc : ¬src <+: dstDir ++ [dst]) :
    Closed (moved node src (dstDir ++ [dst])) := by
  intro q name hne
  unfold Timed.moved at hne ⊢
  split_ifs at hne with hdst hsrc'
  · rcases prefix_concat_iff.1 hdst with heq | hq
    · -- The new entry itself: its directory stays.
      obtain rfl := (append_inj_left' heq rfl).symm
      rw [if_neg not_isPrefix_dir, if_neg fun hle => hsrc (hle.trans (prefix_append _ _))]
      exact ⟨m, hdir⟩
    · -- Below it: as it was below `src`.
      rw [if_pos hq]
      rw [drop_append_of_le_length hq.length_le, ← append_assoc] at hne
      exact h _ name hne
  · exact absurd rfl hne
  · rw [if_neg fun hle => hdst (hle.trans (prefix_append _ _)),
      if_neg fun hle => hsrc' (hle.trans (prefix_append _ _))]
    exact h q name hne

def put (node : Place → Option Node) (p : Place) (new : Node) (q : Place) : Option Node :=
  if q = p then some new else node q

def without (node : Place → Option Node) (p : Place) (q : Place) : Option Node :=
  if p <+: q then none else node q

theorem Closed.create (h : Closed node) {dir : Place} {name : Str}
    (hdir : node dir = some (.dir m)) (hnone : node (dir ++ [name]) = none) (new : Node) :
    Closed (put node (dir ++ [name]) new) := by
  intro q x hne
  unfold put at hne ⊢
  split_ifs at hne with hnew
  · obtain rfl := append_inj_left' hnew rfl
    rw [if_neg (by simp)]
    exact ⟨m, hdir⟩
  · obtain ⟨m', hm'⟩ := h q x hne
    have hq : q ≠ dir ++ [name] := by
      rintro rfl
      rw [hnone] at hm'
      cases hm'
    exact ⟨m', by rw [if_neg hq, hm']⟩

theorem Closed.without (h : Closed node) (p : Place) : Closed (without node p) := by
  intro q name hne
  unfold Timed.without at hne ⊢
  split_ifs at hne with hp
  · exact absurd rfl hne
  · rw [if_neg fun hle => hp (hle.trans (prefix_append _ _))]
    exact h q name hne

theorem Closed.write (h : Closed node) {p : Place} {old : Bytes}
    (hfile : node p = some (.file old m)) (data : Bytes) (time : Nat) :
    Closed (put node p (.file data time)) := by
  intro q name hne
  unfold put at hne ⊢
  have hold : node (q ++ [name]) ≠ none := by
    split_ifs at hne with hp
    · rw [hp, hfile]
      exact nofun
    · exact hne
  obtain ⟨m', hm'⟩ := h q name hold
  have hq : q ≠ p := by
    rintro rfl
    rw [hfile] at hm'
    cases hm'
  exact ⟨m', by rw [if_neg hq, hm']⟩

end

namespace Change

/-- Whether the change can be made: the directories are there, and older than the times they get;
a new entry is not there yet; what is removed, moved or written is there, and nothing is moved into
itself or over a directory it is in. -/
def possible (t : Tree) : Change → Bool
  | create dir name _ time => t.dirBefore dir time && !t.exists_ (dir ++ [name])
  | remove dir name time => t.dirBefore dir time && t.exists_ (dir ++ [name])
  | rename srcDir src dstDir dst srcTime dstTime =>
    t.dirBefore srcDir srcTime && t.dirBefore dstDir dstTime && t.exists_ (srcDir ++ [src]) &&
      !(srcDir ++ [src]).isPrefixOf (dstDir ++ [dst]) &&
      !(dstDir ++ [dst]).isPrefixOf (srcDir ++ [src])
  | write file _ time => t.isFile file && (t.modified file).any (· < time)

def node (t : Tree) : Change → Place → Option Node
  | create dir name new time => touch (put t.node (dir ++ [name]) new) dir time
  | remove dir name time => touch (without t.node (dir ++ [name])) dir time
  | rename srcDir src dstDir dst srcTime dstTime =>
    touch (touch (moved t.node (srcDir ++ [src]) (dstDir ++ [dst])) srcDir srcTime) dstDir dstTime
  | write file data time => put t.node file (.file data time)

variable {t : Tree} {p : Place} {c : Change} {time : Nat}

theorem isFile_iff : t.isFile p = true ↔ ∃ data m, t.node p = some (.file data m) := by
  unfold Tree.isFile
  split
  · rename_i data m h
    simp [h]
  · rename_i hne
    simp only [Bool.false_eq_true, false_iff, not_exists]
    exact fun data m h => hne data m h

theorem closed (h : c.possible t = true) : Closed (c.node t) := by
  cases c with
  | create dir name new time =>
    simp only [possible, Bool.and_eq_true, Bool.not_eq_true', Tree.exists_,
      isSome_eq_false_iff, isNone_iff_eq_none] at h
    obtain ⟨m, hdir, -⟩ := Tree.dirBefore_iff.1 h.1
    exact (t.closed.create hdir h.2 new).touch dir time
  | remove dir name time => exact (t.closed.without _).touch dir time
  | rename srcDir src dstDir dst srcTime dstTime =>
    simp only [possible, Bool.and_eq_true, Bool.not_eq_true', ← Bool.not_eq_true,
      isPrefixOf_iff_prefix] at h
    obtain ⟨m, hdir, -⟩ := Tree.dirBefore_iff.1 h.1.1.1.2
    exact ((t.closed.moved hdir h.1.2).touch srcDir srcTime).touch dstDir dstTime
  | write file data time =>
    simp only [possible, Bool.and_eq_true] at h
    obtain ⟨old, m, hfile⟩ := isFile_iff.1 h.1
    exact t.closed.write hfile data time

/-- A change that is not possible changes nothing. -/
def apply (t : Tree) (c : Change) : Tree :=
  if h : c.possible t = true then ⟨c.node t, closed h⟩ else t

theorem node_apply (h : c.possible t = true) : (c.apply t).node = c.node t := by
  rw [apply, dif_pos h]

theorem apply_of_impossible (h : ¬c.possible t = true) : c.apply t = t :=
  dif_neg h

/-- The change puts something at this place, or takes away what is there. -/
def displaces : Change → Place → Prop
  | create dir name _ _, q => q = dir ++ [name]
  | remove dir name _, q => dir ++ [name] <+: q
  | rename srcDir src dstDir dst _ _, q => srcDir ++ [src] <+: q ∨ dstDir ++ [dst] <+: q
  | write _ _ _, _ => False

/-- The place is written to. -/
def writes : Change → Place → Prop
  | write file _ _, q => q = file
  | _, _ => False

instance (c : Change) (q : Place) : Decidable (c.displaces q) :=
  match c with
  | create dir name _ _ => inferInstanceAs (Decidable (q = dir ++ [name]))
  | remove dir name _ => inferInstanceAs (Decidable (dir ++ [name] <+: q))
  | rename srcDir src dstDir dst _ _ =>
    inferInstanceAs (Decidable (srcDir ++ [src] <+: q ∨ dstDir ++ [dst] <+: q))
  | write _ _ _ => inferInstanceAs (Decidable False)

instance (c : Change) (q : Place) : Decidable (c.writes q) :=
  match c with
  | write file _ _ => inferInstanceAs (Decidable (q = file))
  | create _ _ _ _ | remove _ _ _ | rename _ _ _ _ _ _ => inferInstanceAs (Decidable False)

/-- The same kind of thing, not older, and with the same bytes unless it was `written`. -/
inductive Keeps (written : Prop) : Option Node → Option Node → Prop
  | absent : Keeps written none none
  | dir {m m' : Nat} (h : m ≤ m') : Keeps written (some (.dir m)) (some (.dir m'))
  | file {data data' : Bytes} {m m' : Nat} (h : m ≤ m') (hdata : ¬written → data' = data) :
    Keeps written (some (.file data m)) (some (.file data' m'))

theorem Keeps.refl (written : Prop) : ∀ n : Option Node, Keeps written n n
  | none => .absent
  | some (.dir _) => .dir le_rfl
  | some (.file _ _) => .file le_rfl fun _ => rfl

theorem Keeps.touch {written : Prop} {old : Option Node} {node : Place → Option Node} {q : Place}
    (h : Keeps written old (node q)) (hdir : q = p → ∃ m, old = some (.dir m) ∧ m ≤ time) :
    Keeps written old (touch node p time q) := by
  unfold Timed.touch
  split_ifs with hq
  · obtain ⟨m, rfl, hm⟩ := hdir hq
    generalize node q = new at h
    cases h
    exact .dir hm
  · exact h

/-- What a change leaves of a place it does not displace. -/
theorem keeps {q : Place} (h : c.possible t = true) (hq : ¬c.displaces q) :
    Keeps (c.writes q) (t.node q) (c.node t q) := by
  have hdir {p : Place} {time : Nat} (hp : t.dirBefore p time = true) :
      q = p → ∃ m, t.node q = some (.dir m) ∧ m ≤ time := by
    rintro rfl
    obtain ⟨m, hm, hlt⟩ := Tree.dirBefore_iff.1 hp
    exact ⟨m, hm, hlt.le⟩
  cases c with
  | create dir name new time =>
    simp only [possible, Bool.and_eq_true] at h
    refine Keeps.touch ?_ (hdir h.1)
    have hne : q ≠ dir ++ [name] := hq
    rw [put, if_neg hne]
    exact .refl _ _
  | remove dir name time =>
    simp only [possible, Bool.and_eq_true] at h
    refine Keeps.touch ?_ (hdir h.1)
    have hne : ¬dir ++ [name] <+: q := hq
    rw [without, if_neg hne]
    exact .refl _ _
  | rename srcDir src dstDir dst srcTime dstTime =>
    simp only [possible, Bool.and_eq_true] at h
    refine Keeps.touch (Keeps.touch ?_ (hdir h.1.1.1.1)) (hdir h.1.1.1.2)
    rw [moved, if_neg fun hd => hq (.inr hd), if_neg fun hs => hq (.inl hs)]
    exact .refl _ _
  | write file data time =>
    simp only [possible, Bool.and_eq_true] at h
    obtain ⟨old, m, hfile⟩ := isFile_iff.1 h.1
    have hlt : m < time := by simpa [Tree.modified, hfile, Node.mtime] using h.2
    by_cases heq : q = file
    · subst heq
      simp only [node, put, if_true, hfile]
      exact .file hlt.le fun hw => absurd rfl hw
    · simp only [node, put, if_neg heq]
      exact .refl _ _

section

variable {t : Tree} {c : Change} {q : Place}

theorem keeps_apply (hq : ¬c.displaces q) :
    Keeps (c.writes q) (t.node q) ((c.apply t).node q) := by
  by_cases h : c.possible t = true
  · rw [node_apply h]
    exact keeps h hq
  · rw [apply_of_impossible h]
    exact .refl _ _

theorem exists_apply (hq : ¬c.displaces q) : (c.apply t).exists_ q = t.exists_ q := by
  have hkeeps := keeps_apply (t := t) hq
  unfold Tree.exists_
  revert hkeeps
  generalize t.node q = old, (c.apply t).node q = new
  rintro (_ | _ | _) <;> rfl

theorem isFile_apply (hq : ¬c.displaces q) : (c.apply t).isFile q = t.isFile q := by
  have hkeeps := keeps_apply (t := t) hq
  unfold Tree.isFile
  revert hkeeps
  generalize t.node q = old, (c.apply t).node q = new
  rintro (_ | _ | _) <;> rfl

theorem read_apply (hq : ¬c.displaces q) (hw : ¬c.writes q) : (c.apply t).read q = t.read q := by
  have hkeeps := keeps_apply (t := t) hq
  unfold Tree.read
  revert hkeeps
  generalize t.node q = old, (c.apply t).node q = new
  rintro (_ | _ | ⟨_, hdata⟩)
  · rfl
  · rfl
  · rw [hdata hw]

theorem modified_apply {m : Nat} (hq : ¬c.displaces q) (hm : t.modified q = some m) :
    ∃ m', (c.apply t).modified q = some m' ∧ m ≤ m' := by
  have hkeeps := keeps_apply (t := t) hq
  unfold Tree.modified at hm ⊢
  revert hkeeps hm
  generalize t.node q = old, (c.apply t).node q = new
  rintro hm (_ | hle | ⟨hle, _⟩)
  · cases hm
  · exact ⟨_, rfl, some.inj hm ▸ hle⟩
  · exact ⟨_, rfl, some.inj hm ▸ hle⟩

end

theorem not_displaces_root (c : Change) : ¬c.displaces [] := by
  cases c with
  | create | remove | rename | write => simp [displaces]

theorem impossible_of_no_root (h : t.node [] = none) (c : Change) : ¬c.possible t = true := by
  have hnone (p : Place) : t.node p = none := t.node_eq_none_of_isPrefix h nil_prefix
  have hbefore (p : Place) (time : Nat) : t.dirBefore p time = false := by
    simp [Tree.dirBefore, hnone]
  cases c with
  | create | remove | rename => simp [possible, hbefore]
  | write file data time => simp [possible, Tree.isFile, hnone]

/-- The modification time that a change sets at a place. -/
def gives : Change → Place → Option Nat
  | create dir _ _ time, p => if p = dir then some time else none
  | remove dir _ time, p => if p = dir then some time else none
  | rename srcDir _ dstDir _ srcTime dstTime, p =>
    if p = dstDir then some dstTime else if p = srcDir then some srcTime else none
  | write file _ time, p => if p = file then some time else none

theorem not_displaces_of_gives (h : c.possible t = true) (hg : c.gives p = some time) :
    ¬c.displaces p ∧ t.node p ≠ none := by
  have hdir {p : Place} {time : Nat} (hp : t.dirBefore p time = true) : t.node p ≠ none := by
    obtain ⟨m, hm, -⟩ := Tree.dirBefore_iff.1 hp
    rw [hm]
    exact nofun
  cases c with
  | create dir name new time' =>
    simp only [possible, Bool.and_eq_true] at h
    obtain ⟨rfl, -⟩ := ite_none_right_eq_some.1 hg
    exact ⟨by simp [displaces], hdir h.1⟩
  | remove dir name time' =>
    simp only [possible, Bool.and_eq_true] at h
    obtain ⟨rfl, -⟩ := ite_none_right_eq_some.1 hg
    exact ⟨not_isPrefix_dir, hdir h.1⟩
  | rename srcDir src dstDir dst srcTime dstTime =>
    simp only [possible, Bool.and_eq_true, Bool.not_eq_true', ← Bool.not_eq_true,
      isPrefixOf_iff_prefix] at h
    obtain ⟨⟨⟨⟨hsrcDir, hdstDir⟩, -⟩, hinto⟩, hover⟩ := h
    simp only [gives] at hg
    split_ifs at hg with hdst hsrc
    · subst hdst
      exact ⟨not_or.2 ⟨fun hle => hinto (hle.trans (prefix_append _ _)), not_isPrefix_dir⟩,
        hdir hdstDir⟩
    · subst hsrc
      exact ⟨not_or.2 ⟨not_isPrefix_dir, fun hle => hover (hle.trans (prefix_append _ _))⟩,
        hdir hsrcDir⟩
  | write file data time' =>
    simp only [possible, Bool.and_eq_true] at h
    obtain ⟨rfl, -⟩ := ite_none_right_eq_some.1 hg
    obtain ⟨old, m, hfile⟩ := isFile_iff.1 h.1
    exact ⟨id, by simp [hfile]⟩

theorem node_of_gives (t : Tree) (hg : c.gives p = some time) :
    ∃ o : Option Node, c.node t p = o.map (Node.at_ time) := by
  cases c with
  | create | remove =>
    obtain ⟨rfl, ⟨⟩⟩ := ite_none_right_eq_some.1 hg
    exact ⟨_, if_pos rfl⟩
  | rename =>
    simp only [gives] at hg
    split_ifs at hg with hdst hsrc <;> obtain rfl := some.inj hg
    · exact ⟨_, if_pos hdst⟩
    · exact ⟨_, (if_neg hdst).trans (if_pos hsrc)⟩
  | write file data time' =>
    obtain ⟨rfl, ⟨⟩⟩ := ite_none_right_eq_some.1 hg
    exact ⟨some (.file data time), if_pos rfl⟩

theorem modified_of_gives (h : c.possible t = true) (hg : c.gives p = some time) :
    (c.apply t).modified p = some time := by
  obtain ⟨hq, hnode⟩ := not_displaces_of_gives h hg
  have hkeeps := keeps h hq
  obtain ⟨o, ho⟩ := node_of_gives t hg
  rw [Tree.modified, node_apply h, ho]
  cases o with
  | none =>
    rw [ho] at hkeeps
    generalize t.node p = old at hkeeps hnode
    cases hkeeps
    exact absurd rfl hnode
  | some n => cases n <;> rfl

end Change

end Base.Timed
