import Orcker.Base.Utf8

/-!
# Unix paths

Repeated and trailing separators and inner `.` components disappear, `..` does not, and a leading
`.` of a relative path is kept.
-/

namespace Base

open List

def slash : UInt8 := 47

def dot : UInt8 := 46

/-- A path is a byte string; its meaning is its sequence of components. -/
structure Path where
  bytes : Bytes
  deriving DecidableEq, Repr

inductive Component where
  | rootDir
  | curDir
  | parentDir
  | normal (name : Bytes)
  deriving DecidableEq, Repr

namespace Path

def ofStr (s : Str) : Path := ⟨utf8 s⟩

instance : Coe String Path := ⟨fun s => ofStr s.toList⟩

def toStringLossy (p : Path) : Str := lossy p.bytes

def toStr (p : Path) : Option Str := fromUtf8 p.bytes

def isEmpty (p : Path) : Bool := p.bytes.isEmpty

def isAbsolute (p : Path) : Bool := p.bytes.head? == some slash

/-- The component a piece between two separators stands for, past the first. -/
def bodyComponent (piece : Bytes) : Option Component :=
  if piece = [] ∨ piece = [dot] then none
  else if piece = [dot, dot] then some .parentDir
  else some (.normal piece)

/-- The root or a leading `.`, and the names on the way. -/
def components (p : Path) : List Component :=
  match p.bytes.splitOn slash with
  | [] => []
  | first :: rest =>
    let lead :=
      if p.isAbsolute then [.rootDir]
      else if first = [dot] then [.curDir]
      else (bodyComponent first).toList
    lead ++ rest.filterMap bodyComponent

/-- Paths are compared by their components. -/
def same (p q : Path) : Bool := p.components == q.components

/-- An absolute path replaces the base. -/
def join (base p : Path) : Path :=
  if p.isAbsolute then p
  else
    match base.bytes.getLast? with
    | none => p
    | some b => if b = slash then ⟨base.bytes ++ p.bytes⟩ else ⟨base.bytes ++ slash :: p.bytes⟩

/-- Is `base` an ancestor of the path, or the path itself? -/
def startsWith (p base : Path) : Bool := base.components.isPrefixOf p.components

/-- The last component, if it is a name. -/
def fileName (p : Path) : Option Bytes :=
  match p.components.getLast? with
  | some (.normal name) => some name
  | _ => none

/-- Leave out the pieces at the end that are no component. -/
def trimPieces (pieces : List Bytes) : List Bytes :=
  (pieces.reverse.dropWhile fun piece => (bodyComponent piece).isNone).reverse

/-- The path without its last component, as a piece of its text; the root and
the empty path have none. -/
def parent (p : Path) : Option Path :=
  let head : Bytes :=
    if p.isAbsolute then [slash]
    else if (p.bytes.splitOn slash).head? = some [dot] then [dot]
    else []
  match trimPieces ((p.bytes.drop head.length).splitOn slash) with
  | [] => if head = [dot] then some ⟨[]⟩ else none
  | piece :: pieces =>
    some ⟨head ++ List.intercalate [slash] (trimPieces (piece :: pieces).dropLast)⟩

/-- What follows the last dot of the file name, unless that dot starts it. -/
def extension (p : Path) : Option Bytes :=
  match p.fileName with
  | none => none
  | some name =>
    match rsplitOnce dot name with
    | none => none
    | some (before, after) => if before = [] then none else some after

/-- A relative path whose components can only descend. -/
def isSafeRelative (p : Path) : Bool :=
  p.components.all fun
    | .normal _ | .curDir => true
    | .rootDir | .parentDir => false

/-! ## The last piece -/

/-- The bytes behind the last separator. -/
def lastPiece (p : Path) : Bytes := (p.bytes.reverse.takeWhile (· ≠ slash)).reverse

variable {name b : Bytes} {p : Path}

theorem lastPiece_append {before : Bytes} (h : slash ∉ name)
    (hend : before = [] ∨ before.getLast? = some slash) : lastPiece ⟨before ++ name⟩ = name := by
  have hname : ∀ b ∈ name.reverse, decide (b ≠ slash) = true := by
    intro b hb
    refine decide_eq_true fun heq => h ?_
    rw [← heq]
    exact mem_reverse.1 hb
  have hbefore : before.reverse.takeWhile (· ≠ slash) = [] := by
    rcases hend with rfl | hend
    · rfl
    · rw [← head?_reverse] at hend
      obtain ⟨rest, hrest⟩ := head?_eq_some_iff.1 hend
      rw [hrest, takeWhile_cons_of_neg (by simp)]
  rw [lastPiece, reverse_append, takeWhile_append_of_pos hname, hbefore,
    append_nil, reverse_reverse]

theorem lastPiece_join {base : Path} (h : slash ∉ name) : (base.join ⟨name⟩).lastPiece = name := by
  have hrel : isAbsolute ⟨name⟩ = false := by
    rw [isAbsolute, beq_eq_false_iff_ne]
    intro hhead
    exact h (mem_of_mem_head? hhead)
  rw [join, hrel]
  cases hlast : base.bytes.getLast? with
  | none => exact lastPiece_append h (.inl rfl)
  | some b =>
    by_cases hb : b = slash
    · simp only [Bool.false_eq_true, if_false, if_pos hb]
      exact lastPiece_append h (.inr (hb ▸ hlast))
    · simp only [Bool.false_eq_true, if_false, if_neg hb]
      rw [append_cons]
      exact lastPiece_append h (.inr (by simp))

/-! ## Pieces and components -/

/-- An entry of the directory, under a plain name. -/
def IsChild (dir p : Path) : Prop :=
  ∃ name, slash ∉ name ∧ bodyComponent name = some (.normal name) ∧ p = dir.join ⟨name⟩

theorem components_of_splitOn {first : Bytes} {rest : List Bytes}
    (h : b.splitOn slash = first :: rest) : components ⟨b⟩ =
      (if isAbsolute ⟨b⟩ then [.rootDir] else if first = [dot] then [.curDir]
        else (bodyComponent first).toList) ++ rest.filterMap bodyComponent := by
  rw [components]
  simp only [h]

theorem normal_of_components_eq_singleton (h : components ⟨b⟩ = [.normal name])
    (hend : ∀ l r, b = l ++ slash :: r → (bodyComponent r).isSome) :
    slash ∉ b ∧ bodyComponent b = some (.normal b) := by
  have hfree : slash ∉ b := by
    intro hmem
    -- the piece behind the last separator is a component, so there are none in front of it
    cases hsplit : rsplitOnce slash b with
    | none => exact absurd hmem (rsplitOnce_eq_none_iff.1 hsplit)
    | some parts =>
      obtain ⟨hb, hr⟩ := rsplitOnce_eq_some_iff.1 hsplit
      obtain ⟨c, hc⟩ := Option.isSome_iff_exists.1 (hend _ _ hb)
      obtain ⟨first, rest, hl⟩ := exists_cons_of_ne_nil (splitOn_ne_nil slash parts.1)
      have hpieces : b.splitOn slash = first :: (rest ++ [parts.2]) := by
        rw [hb, splitOn_append_cons_self, hl, splitOn_eq_singleton hr, cons_append]
      rw [components_of_splitOn hpieces, filterMap_append] at h
      have hlength := congrArg length h
      simp only [length_append, filterMap_cons_some hc, filterMap_nil,
        length_cons, length_nil] at hlength
      split_ifs at hlength with habs hdot
      · simp only [length_cons] at hlength
        omega
      · simp only [length_cons] at hlength
        omega
      · have hfirst : first = [] := by
          cases hbody : bodyComponent first with
          | some c' =>
            rw [hbody] at hlength
            simp only [Option.toList_some, length_cons] at hlength
            omega
          | none =>
            unfold bodyComponent at hbody
            split_ifs at hbody with hpiece
            exact hpiece.resolve_right hdot
        refine habs ?_
        have hb' : b = intercalate [slash] (first :: (rest ++ [parts.2])) := by
          rw [← hpieces, intercalate_splitOn]
        rw [isAbsolute, hb', hfirst]
        cases rest <;> simp [intercalate_cons_cons]
  refine ⟨hfree, ?_⟩
  rw [components_of_splitOn (splitOn_eq_singleton hfree)] at h
  simp only [filterMap_nil, append_nil] at h
  split_ifs at h
  · cases h
  · cases h
  · unfold bodyComponent at h ⊢
    split_ifs at h ⊢
    · cases h
    · cases h
    · rfl

theorem isSome_bodyComponent {l r : Bytes} {last : UInt8} (hlast : b.getLast? = some last)
    (hslash : last ≠ slash) (hdot : last ≠ dot) (h : b = l ++ slash :: r) :
    (bodyComponent r).isSome := by
  have hne : ¬(r = [] ∨ r = [dot]) := by
    rintro (rfl | rfl)
    · rw [h] at hlast
      simp at hlast
      exact hslash hlast.symm
    · rw [h] at hlast
      simp at hlast
      exact hdot hlast.symm
  unfold bodyComponent
  rw [if_neg hne]
  split_ifs <;> rfl

/-! ## Paths that are text -/

/-- The path is the encoding of a text. -/
def IsText (p : Path) : Prop := ∃ s, p = ofStr s

/-- The path a reader of the lossy text is sent to. -/
def rendered (p : Path) : Path := ofStr p.toStringLossy

theorem IsText.rendered (h : p.IsText) : p.rendered = p := by
  obtain ⟨s, rfl⟩ := h
  unfold Path.rendered toStringLossy ofStr
  rw [lossy_utf8]

theorem isText_iff_toStr : p.IsText ↔ p.toStr ≠ none := by
  rw [Option.ne_none_iff_exists']
  constructor
  · rintro ⟨s, rfl⟩
    exact ⟨s, fromUtf8_eq_some_iff.2 rfl⟩
  · rintro ⟨s, hs⟩
    refine ⟨s, ?_⟩
    cases p
    rw [ofStr, ← fromUtf8_eq_some_iff.1 hs]

theorem IsText.join {q : Path} (hp : p.IsText) (hq : q.IsText) : (p.join q).IsText := by
  obtain ⟨s, rfl⟩ := hp
  obtain ⟨t, rfl⟩ := hq
  unfold Path.join
  split_ifs
  · exact ⟨t, rfl⟩
  · split
    · exact ⟨t, rfl⟩
    · split_ifs
      · exact ⟨s ++ t, by simp [ofStr, utf8]⟩
      · exact ⟨s ++ '/' :: t, by simp [ofStr, utf8, encodeChar, slash]⟩

/-- A text below a directory makes the directory a text. -/
theorem IsText.of_join {q : Path} (h : (p.join q).IsText) (hq : q.isAbsolute = false) :
    p.IsText := by
  obtain ⟨s, hs⟩ := h
  -- a separator ends the text of `p`, or stands behind it
  have hcut : ∀ a b, utf8 s = a ++ slash :: b → ∃ l, utf8 l = a := by
    intro a b hab
    obtain ⟨l, -, -, -, -, hl, -⟩ := utf8_eq_append_cons (by decide) hab
    exact ⟨l, hl⟩
  simp only [Path.join, hq, Bool.false_eq_true, if_false] at hs
  cases hlast : p.bytes.getLast? with
  | none =>
    rw [getLast?_eq_none_iff] at hlast
    exact ⟨[], by cases p; simpa [ofStr, utf8] using hlast⟩
  | some b =>
    rw [hlast] at hs
    have hbytes := (congrArg Path.bytes hs).symm
    by_cases hb : b = slash
    · simp only [if_pos hb, ofStr] at hbytes
      obtain ⟨front, hfront⟩ := getLast?_eq_some_iff.1 (hb ▸ hlast)
      rw [hfront, append_assoc] at hbytes
      obtain ⟨l, hl⟩ := hcut _ _ hbytes
      refine ⟨l ++ ['/'], ?_⟩
      cases p
      simp only at hfront
      rw [hfront, ofStr, utf8_append, hl]
      rfl
    · simp only [if_neg hb, ofStr] at hbytes
      obtain ⟨l, hl⟩ := hcut _ _ hbytes
      exact ⟨l, by rw [ofStr, hl]⟩

theorem eq_slash_of_mem {c : Char} (h : slash ∈ encodeChar c) : c = '/' :=
  char_eq_iff_toNat.2 (mem_encodeChar_of_ascii (by decide) h)

theorem slash_mem_utf8 {s : Str} : slash ∈ utf8 s ↔ '/' ∈ s := by
  rw [utf8, mem_flatMap]
  constructor
  · rintro ⟨c, hc, hslash⟩
    exact eq_slash_of_mem hslash ▸ hc
  · intro h
    exact ⟨'/', h, by decide⟩

theorem getLast?_utf8_eq_slash {s : Str} :
    (utf8 s).getLast? = some slash ↔ s.getLast? = some '/' := by
  rcases eq_nil_or_concat s with rfl | ⟨front, c, rfl⟩
  · simp [utf8]
  · have hc : utf8 [c] = encodeChar c := by simp [utf8]
    rw [concat_eq_append, utf8_append, hc, getLast?_append_of_ne_nil _ (encodeChar_ne_nil c),
      getLast?_concat]
    constructor
    · intro h
      rw [eq_slash_of_mem (mem_of_getLast? h)]
    · intro h
      rw [Option.some.inj h]
      decide

/-- A separator comes between the two unless there is one already, or nothing before it. -/
theorem toStringLossy_join {root name : Str} (hname : '/' ∉ name) :
    ((ofStr root).join (ofStr name)).toStringLossy =
      if root = [] then name
      else if root.getLast? = some '/' then root ++ name else root ++ '/' :: name := by
  have hrel : (ofStr name).isAbsolute = false := by
    rw [isAbsolute, beq_eq_false_iff_ne]
    intro hhead
    exact hname (slash_mem_utf8.1 (mem_of_mem_head? hhead))
  have htext : ∀ s : Str, (ofStr s).toStringLossy = s := lossy_utf8
  have hsep : utf8 ('/' :: name) = slash :: utf8 name := by simp [utf8, encodeChar, slash]
  rw [join, hrel]
  simp only [Bool.false_eq_true, if_false]
  by_cases hroot : root = []
  · rw [if_pos hroot, hroot]
    exact htext name
  · rw [if_neg hroot]
    obtain ⟨b, hb⟩ : ∃ b, (utf8 root).getLast? = some b := by
      rw [← Option.ne_none_iff_exists', ne_eq, getLast?_eq_none_iff, utf8_eq_nil]
      exact hroot
    have hslash : root.getLast? = some '/' ↔ b = slash := by
      rw [← getLast?_utf8_eq_slash, hb, Option.some.injEq]
    simp only [ofStr, hb]
    by_cases hend : b = slash
    · rw [if_pos hend, if_pos (hslash.2 hend), ← utf8_append]
      exact htext _
    · rw [if_neg hend, if_neg (mt hslash.1 hend), ← hsep, ← utf8_append]
      exact htext _

end Path

/-! ## A filesystem as its readers see it

Which paths resolve, what they resolve to, and what is there. A resolved path is absolute, has no
`.` or `..` left and resolves to itself. -/

section

inductive FileKind where
  | file
  | dir
  | other
  deriving DecidableEq

structure Metadata where
  kind : FileKind
  len : Nat
  deriving DecidableEq

/-- What can be asked of a file system. -/
structure Fs where
  canonicalize : Path → Option Path
  metadata : Path → Option Metadata
  read : Path → Option Bytes
  absolute : ∀ {p q}, canonicalize p = some q → q.isAbsolute = true
  plain : ∀ {p q}, canonicalize p = some q → ∀ c ∈ q.components, c ≠ .curDir ∧ c ≠ .parentDir
  idem : ∀ {p q}, canonicalize p = some q → canonicalize q = some q

namespace Fs

variable (fs : Fs)

def isFile (p : Path) : Bool := (fs.metadata p).any fun m => m.kind = .file

def isDir (p : Path) : Bool := (fs.metadata p).any fun m => m.kind = .dir

/-- `p`, if it exists, resolves to a path under the resolved `root`. -/
def Contained (root p : Path) : Prop :=
  ∀ real, fs.canonicalize p = some real →
    ∃ realRoot, fs.canonicalize root = some realRoot ∧ real.startsWith realRoot = true

end Fs

/-! ## Filesystems given by tables -/

/-- The files and directories of a small filesystem, and other spellings of
their paths. -/
structure FsTable where
  nodes : List (Path × Metadata × Bytes)
  links : List (Path × Path)
  /-- Links lead to nodes. -/
  links_ok : ∀ l ∈ links, l.2 ∈ nodes.map Prod.fst
  /-- Nodes are named by plain absolute paths that are not links. -/
  nodes_ok : ∀ p ∈ nodes.map Prod.fst, p ∉ links.map Prod.fst ∧ p.isAbsolute = true ∧
    ∀ c ∈ p.components, c ≠ .curDir ∧ c ≠ .parentDir

namespace FsTable

def resolve (t : FsTable) (p : Path) : Option Path :=
  match t.links.find? (·.1 = p) with
  | some link => some link.2
  | none => if p ∈ t.nodes.map Prod.fst then some p else none

def node (t : FsTable) (p : Path) : Option (Metadata × Bytes) :=
  (t.resolve p).bind fun q => (t.nodes.find? (·.1 = q)).map Prod.snd

theorem mem_of_resolve {t : FsTable} {p q : Path} (h : t.resolve p = some q) :
    q ∈ t.nodes.map Prod.fst := by
  unfold resolve at h
  split at h
  · rename_i link hlink
    cases h
    exact t.links_ok link (mem_of_find?_eq_some hlink)
  · split at h
    · cases h
      assumption
    · cases h

theorem resolve_of_mem {t : FsTable} {p : Path} (h : p ∈ t.nodes.map Prod.fst) :
    t.resolve p = some p := by
  have hnone : t.links.find? (·.1 = p) = none := by
    rw [find?_eq_none]
    intro link hlink heq
    refine (t.nodes_ok p h).1 (mem_map.2 ⟨link, hlink, ?_⟩)
    simpa using heq
  unfold resolve
  rw [hnone]
  exact if_pos h

def toFs (t : FsTable) : Fs where
  canonicalize := t.resolve
  metadata p := (t.node p).map Prod.fst
  read p := (t.node p).map Prod.snd
  absolute h := (t.nodes_ok _ (mem_of_resolve h)).2.1
  plain h := (t.nodes_ok _ (mem_of_resolve h)).2.2
  idem h := resolve_of_mem (mem_of_resolve h)

end FsTable

end

/-! ## Descending paths

Joining a relative path without a leading `.` appends its components, whatever the base is. -/

section

variable {p base : Path} {names : List Bytes}

namespace Path

theorem components_append (l r : Bytes) :
    components ⟨l ++ slash :: r⟩ =
      components ⟨l ++ [slash]⟩ ++ (r.splitOn slash).filterMap bodyComponent := by
  obtain ⟨first, rest, hl⟩ := exists_cons_of_ne_nil (splitOn_ne_nil slash l)
  have hpieces (r : Bytes) :
      (l ++ slash :: r).splitOn slash = first :: (rest ++ r.splitOn slash) := by
    rw [splitOn_append_cons_self, hl, cons_append]
  have habs : isAbsolute ⟨l ++ slash :: r⟩ = isAbsolute ⟨l ++ [slash]⟩ := by
    cases l <;> rfl
  have hnil : bodyComponent [] = none := rfl
  rw [components_of_splitOn (hpieces r), components_of_splitOn (hpieces []), habs,
    splitOn_nil]
  simp only [filterMap_append, filterMap_cons_none hnil, filterMap_nil,
    append_nil, append_assoc]

theorem components_append_slash {l : Bytes} (h : l ≠ []) :
    components ⟨l ++ [slash]⟩ = components ⟨l⟩ := by
  obtain ⟨first, rest, hl⟩ := exists_cons_of_ne_nil (splitOn_ne_nil slash l)
  have hpieces : (l ++ [slash]).splitOn slash = first :: (rest ++ [[]]) := by
    rw [splitOn_append_cons_self, hl, cons_append, splitOn_nil]
  have habs : isAbsolute ⟨l ++ [slash]⟩ = isAbsolute ⟨l⟩ := by
    cases l with
    | nil => exact absurd rfl h
    | cons b l => rfl
  rw [components_of_splitOn hpieces, components_of_splitOn hl, habs, filterMap_append]
  simp [bodyComponent]

theorem components_of_relative (hrel : p.isAbsolute = false) (hdot : .curDir ∉ p.components) :
    p.components = (p.bytes.splitOn slash).filterMap bodyComponent := by
  obtain ⟨first, rest, hp⟩ := exists_cons_of_ne_nil (splitOn_ne_nil slash p.bytes)
  have hcomponents := components_of_splitOn hp
  rw [show (⟨p.bytes⟩ : Path) = p from rfl] at hcomponents
  rw [hcomponents] at hdot
  rw [hcomponents, hp, hrel]
  simp only [hrel, Bool.false_eq_true, if_false] at hdot ⊢
  split_ifs with hfirst
  · rw [if_pos hfirst] at hdot
    exact absurd (by simp) hdot
  · cases hbody : bodyComponent first <;> simp [hbody]

/-- Joining a relative path appends its components. -/
theorem components_join (hrel : p.isAbsolute = false) (hdot : .curDir ∉ p.components) :
    (base.join p).components = base.components ++ p.components := by
  rw [components_of_relative hrel hdot]
  obtain ⟨b⟩ := base
  unfold join
  simp only [hrel, Bool.false_eq_true, if_false]
  cases hlast : b.getLast? with
  | none =>
    rw [getLast?_eq_none_iff.1 hlast]
    exact components_of_relative hrel hdot
  | some last =>
    obtain ⟨front, rfl⟩ := getLast?_eq_some_iff.1 hlast
    by_cases hslash : last = slash
    · simp only [if_pos hslash]
      rw [hslash, append_assoc, singleton_append, components_append]
    · simp only [if_neg hslash]
      rw [components_append, components_append_slash (by simp)]

theorem isAbsolute_of_slash_notMem {b : Bytes} (h : slash ∉ b) : isAbsolute ⟨b⟩ = false := by
  rw [isAbsolute, beq_eq_false_iff_ne]
  intro hhead
  exact h (mem_of_mem_head? hhead)

theorem components_name {name : Bytes} (hslash : slash ∉ name)
    (hname : bodyComponent name = some (.normal name)) :
    isAbsolute ⟨name⟩ = false ∧ components ⟨name⟩ = [.normal name] := by
  have hrel := isAbsolute_of_slash_notMem hslash
  have hdot : name ≠ [dot] := by
    rintro rfl
    cases hname
  refine ⟨hrel, ?_⟩
  rw [components_of_splitOn (splitOn_eq_singleton hslash), hrel, hname]
  simp [hdot]

def joinNames (base : Path) (names : List Bytes) : Path :=
  names.foldl (fun p name => p.join ⟨name⟩) base

theorem components_joinNames (base : Path)
    (h : ∀ name ∈ names, slash ∉ name ∧ bodyComponent name = some (.normal name)) :
    (joinNames base names).components = base.components ++ names.map .normal := by
  induction names generalizing base with
  | nil => simp [joinNames]
  | cons name names ih =>
    obtain ⟨hslash, hname⟩ := h name mem_cons_self
    obtain ⟨hrel, hcomp⟩ := components_name hslash hname
    show (joinNames (base.join ⟨name⟩) names).components = _
    rw [ih _ fun n hn => h n (mem_cons_of_mem _ hn),
      components_join hrel (by simp [hcomp]), hcomp]
    simp

theorem isAbsolute_join (hbase : base.isAbsolute = false) (hp : p.isAbsolute = false) :
    (base.join p).isAbsolute = false := by
  obtain ⟨b⟩ := base
  unfold join
  simp only [hp, Bool.false_eq_true, if_false]
  cases b with
  | nil => exact hp
  | cons c b =>
    cases (c :: b).getLast? with
    | none => exact hp
    | some last => by_cases hs : last = slash <;> simpa [hs, isAbsolute] using hbase

theorem isAbsolute_joinNames (hbase : base.isAbsolute = false) (h : ∀ name ∈ names, slash ∉ name) :
    (joinNames base names).isAbsolute = false := by
  induction names generalizing base with
  | nil => exact hbase
  | cons name names ih =>
    exact ih (isAbsolute_join hbase (isAbsolute_of_slash_notMem (h name mem_cons_self)))
      fun n hn => h n (mem_cons_of_mem _ hn)

end Path

end

end Base
