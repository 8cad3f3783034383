import Orcker.Base.Utf8

/-!
# Lines and words

A text's lines, each without its line feed and a carriage return before that, and its words.
-/

namespace Base

open List

/-- The line without a carriage return at its end. -/
def stripCr (line : Str) : Str := (line.dropSuffix? ['\r']).getD line

/-- The lines of a text; what stands behind the last line feed is a line when it is not empty. -/
def lines (s : Str) : List Str :=
  let pieces := s.splitOn '\n'
  pieces.dropLast.map stripCr ++ (pieces.getLast?.filter (· ≠ [])).toList

def splitWhitespace (s : Str) : List Str := (s.splitOnP isWhitespace).filter (· ≠ [])

/-- Does `pat` occur in the text? -/
def containsStr (s pat : Str) : Bool := pat <:+: s

variable {l s : Str}

theorem lines_cons (hl : '\n' ∉ l) : lines (l ++ '\n' :: s) = stripCr l :: lines s := by
  have hsplit : (l ++ '\n' :: s).splitOn '\n' = l :: s.splitOn '\n' := by
    rw [splitOn_append_cons_self, splitOn_eq_singleton hl, singleton_append]
  obtain ⟨p, ps, hp⟩ := exists_cons_of_ne_nil (splitOn_ne_nil '\n' s)
  simp only [lines, hsplit, hp, dropLast_cons_cons, map_cons, cons_append]
  rfl

@[simp] theorem lines_nil : lines [] = [] := by decide

theorem stripCr_eq_self (h : l.getLast? ≠ some '\r') : stripCr l = l := getD_dropSuffix?_eq_self h

theorem splitWhitespace_pair {a b : Str} (ha : ∀ c ∈ a, isWhitespace c = false)
    (hb : ∀ c ∈ b, isWhitespace c = false) (hane : a ≠ []) (hbne : b ≠ []) :
    splitWhitespace (a ++ ' ' :: b) = [a, b] := by
  have hsplit : (a ++ ' ' :: b).splitOnP isWhitespace = [a, b] := by
    rw [splitOnP_append_cons_of_forall_mem ha ' ' (by decide), splitOnP_eq_singleton hb]
  rw [splitWhitespace, hsplit]
  simp [hane, hbne]

def joinLines (ls : List Str) : Str := List.intercalate ['\n'] ls

variable {c : Char}

theorem notMem_of_mem_splitOn {p : Str} (h : p ∈ s.splitOn c) : c ∉ p := by
  induction s generalizing p with
  | nil =>
    rw [splitOn_nil, mem_singleton] at h
    simp [h]
  | cons x s ih =>
    obtain ⟨q, qs, hq⟩ := exists_cons_of_ne_nil (splitOn_ne_nil c s)
    rw [splitOn_cons_eq_if_modifyHead, hq] at h
    rw [hq] at ih
    split at h
    · rcases mem_cons.1 h with rfl | h
      · exact not_mem_nil
      · exact ih h
    · next hx =>
      rcases mem_cons.1 h with rfl | h
      · rw [mem_cons, not_or]
        exact ⟨fun heq => hx (by simp [heq]), ih (mem_cons_self ..)⟩
      · exact ih (mem_cons_of_mem _ h)

theorem stripCr_prefix_self (l : Str) : stripCr l <+: l := by
  unfold stripCr
  cases hs : l.dropSuffix? ['\r'] with
  | none => exact prefix_rfl
  | some p =>
    rw [dropSuffix?_eq_some] at hs
    exact ⟨['\r'], hs.symm⟩

theorem notMem_of_mem_lines (h : l ∈ lines s) : '\n' ∉ l := by
  simp only [lines, mem_append, mem_map, Option.mem_toList,
    Option.filter_eq_some_iff] at h
  rcases h with ⟨p, hp, rfl⟩ | ⟨hlast, -⟩
  · exact fun hmem => notMem_of_mem_splitOn (mem_of_mem_dropLast hp)
      ((stripCr_prefix_self p).subset hmem)
  · exact notMem_of_mem_splitOn (mem_of_getLast? hlast)

theorem lines_joinLines {ls : List Str} (h : ∀ m ∈ l :: ls, '\n' ∉ m) :
    lines (joinLines (l :: ls) ++ ['\n']) = (l :: ls).map stripCr := by
  induction ls generalizing l with
  | nil =>
    rw [joinLines, intercalate_singleton, lines_cons (h l (mem_cons_self ..)), lines_nil]
    rfl
  | cons m ls ih =>
    obtain ⟨hl, hrest⟩ := forall_mem_cons.1 h
    have hjoin : joinLines (l :: m :: ls) ++ ['\n'] = l ++ '\n' :: (joinLines (m :: ls) ++ ['\n']) := by
      simp [joinLines, intercalate_cons_cons]
    rw [hjoin, lines_cons hl, ih hrest]
    rfl

/-- Joining lines again keeps what a line says about words without line breaks. -/
theorem infix_of_mem_lines_joinLines {ls : List Str} (h : ∀ m ∈ ls, '\n' ∉ m) {pat : Str}
    (hl : l ∈ lines (joinLines ls ++ ['\n'])) (hpat : pat <:+: l) (hne : pat ≠ []) :
    ∃ m ∈ ls, pat <:+: m := by
  cases ls with
  | nil =>
    have hempty : lines (joinLines [] ++ ['\n']) = [[]] := by decide
    rw [hempty, mem_singleton] at hl
    exact absurd (infix_nil.1 (hl ▸ hpat)) hne
  | cons m ls =>
    rw [lines_joinLines h, mem_map] at hl
    obtain ⟨k, hk, rfl⟩ := hl
    exact ⟨k, hk, hpat.trans (stripCr_prefix_self k).isInfix⟩

theorem dropWhile_append_cons (hc : isWhitespace c = false) (l r : Str) :
    (l ++ c :: r).dropWhile isWhitespace = l.dropWhile isWhitespace ++ c :: r := by
  rw [dropWhile_append]
  split
  · next h =>
    rw [isEmpty_iff.1 h, dropWhile_cons_of_neg (by simp [hc]), nil_append]
  · rfl

theorem trim_append_cons (hc : isWhitespace c = false) (l r : Str) :
    trim (l ++ c :: r) =
      l.dropWhile isWhitespace ++ c :: (r.reverse.dropWhile isWhitespace).reverse := by
  rw [trim, dropWhile_append_cons hc, reverse_append, reverse_cons, append_assoc,
    singleton_append, dropWhile_append_cons hc]
  simp

theorem head?_trim (hc : isWhitespace c = false) (s : Str) : (trim (c :: s)).head? = some c := by
  rw [← nil_append (c :: s), trim_append_cons hc]
  rfl

theorem trim_dropWhile (s : Str) : trim (s.dropWhile isWhitespace) = trim s := by
  rw [trim, dropWhile_idempotent, ← trim]

theorem head?_dropWhile_of_trim (h : trim s ≠ []) :
    (s.dropWhile isWhitespace).head? = (trim s).head? := by
  cases hs : s.dropWhile isWhitespace with
  | nil => exact absurd (by rw [trim, hs]; rfl) h
  | cons c t =>
    have hc : isWhitespace c = false := by
      have := head?_dropWhile_not isWhitespace s
      simpa [hs] using this
    rw [← trim_dropWhile, hs, head?_trim hc]
    rfl

theorem trim_concat_of_isWhitespace (hc : isWhitespace c) (s : Str) : trim (s ++ [c]) = trim s := by
  rw [trim, dropWhile_append]
  split
  · next h => rw [trim, isEmpty_iff.1 h, dropWhile_cons_of_pos hc]; rfl
  · rw [reverse_append, reverse_singleton, singleton_append,
      dropWhile_cons_of_pos hc, ← trim]

theorem trim_append_of_isWhitespace (hl : ∀ c ∈ l, isWhitespace c) (s : Str) :
    trim (l ++ s) = trim s := by
  have hdrop : l.dropWhile isWhitespace = [] := dropWhile_eq_nil_iff.2 hl
  rw [trim, dropWhile_append, hdrop]
  rfl

theorem trim_stripCr (s : Str) : trim (stripCr s) = trim s := by
  unfold stripCr
  cases h : s.dropSuffix? ['\r'] with
  | none => rfl
  | some p =>
    rw [dropSuffix?_eq_some] at h
    rw [h, trim_concat_of_isWhitespace (by decide)]
    rfl

/-- Lines that each end in a line feed, after a carriage return where the flag is set, and what
stands behind the last of them. -/
def endedLines (ended : List (Str × Bool)) (last : Str) : Str :=
  (ended.flatMap fun l => l.1 ++ if l.2 then ['\r', '\n'] else ['\n']) ++ last

theorem stripCr_concat (l : Str) : stripCr (l ++ ['\r']) = l := by
  rw [stripCr, dropSuffix?_eq_some.2 rfl, Option.getD_some]

theorem lines_endedLines {ended : List (Str × Bool)} {last : Str}
    (h : ∀ l ∈ ended, '\n' ∉ l.1) (hlast : '\n' ∉ last) :
    lines (endedLines ended last) =
      ended.map (fun l => if l.2 then l.1 else stripCr l.1) ++ [last].filter (· ≠ []) := by
  induction ended with
  | nil =>
    rw [endedLines, flatMap_nil, nil_append, lines, splitOn_eq_singleton hlast]
    by_cases hne : last = [] <;> simp [hne]
  | cons l ended ih =>
    obtain ⟨hl, hended⟩ := forall_mem_cons.1 h
    obtain ⟨line, cr⟩ := l
    cases cr with
    | false =>
      have hcons : endedLines ((line, false) :: ended) last =
          line ++ '\n' :: endedLines ended last := by simp [endedLines]
      rw [hcons, lines_cons hl, ih hended]
      rfl
    | true =>
      have hcons : endedLines ((line, true) :: ended) last =
          (line ++ ['\r']) ++ '\n' :: endedLines ended last := by simp [endedLines]
      rw [hcons, lines_cons (by simpa using hl), ih hended, stripCr_concat]
      rfl

/-! ## Lines of a byte stream

A stream is cut behind each newline. A reader that takes at most so many bytes at a time finds the
same lines: what it reads of a line is its front, and skipping the rest leads to the next one. -/

section

def newline : UInt8 := 10

/-- The first line, with its line feed if it has one. -/
def takeLine : Bytes → Bytes
  | [] => []
  | b :: s => if b = newline then [b] else b :: takeLine s

/-- What follows the first line. -/
def dropLine : Bytes → Bytes
  | [] => []
  | b :: s => if b = newline then s else dropLine s

/-- The lines, each with its line feed. -/
def linesOf : Bytes → List Bytes
  | [] => []
  | b :: s =>
    if b = newline then [b] :: linesOf s
    else
      match linesOf s with
      | [] => [[b]]
      | line :: lines => (b :: line) :: lines

/-- The line without its line feed. -/
def lineContent (line : Bytes) : Bytes :=
  if line.getLast? = some newline then line.dropLast else line

theorem takeLine_append_dropLine (s : Bytes) : takeLine s ++ dropLine s = s := by
  induction s with
  | nil => rfl
  | cons b s ih =>
    unfold takeLine dropLine
    split_ifs
    · rfl
    · rw [cons_append, ih]

variable {s : Bytes}

theorem length_dropLine_lt (h : s ≠ []) : (dropLine s).length < s.length := by
  cases s with
  | nil => exact absurd rfl h
  | cons b s =>
    have hparts := congrArg length (takeLine_append_dropLine (b :: s))
    have hpos : 0 < (takeLine (b :: s)).length := by
      unfold takeLine
      split_ifs <;> simp
    rw [length_append] at hparts
    omega

theorem linesOf_eq_cons (h : s ≠ []) : linesOf s = takeLine s :: linesOf (dropLine s) := by
  induction s with
  | nil => exact absurd rfl h
  | cons b s ih =>
    by_cases hb : b = newline
    · simp only [linesOf, takeLine, dropLine, if_pos hb]
    · simp only [linesOf, takeLine, dropLine, if_neg hb]
      cases s with
      | nil => rfl
      | cons c s => rw [ih (cons_ne_nil c s)]

theorem newline_notMem_dropLast_takeLine (s : Bytes) : newline ∉ (takeLine s).dropLast := by
  induction s with
  | nil => exact not_mem_nil
  | cons b s ih =>
    unfold takeLine
    split_ifs with hb
    · exact not_mem_nil
    · cases hline : takeLine s with
      | nil => exact not_mem_nil
      | cons c line =>
        rw [hline] at ih
        rw [dropLast_cons_cons, mem_cons, not_or]
        exact ⟨fun h => hb h.symm, ih⟩

theorem dropLine_of_getLast? (h : (takeLine s).getLast? ≠ some newline) : dropLine s = [] := by
  induction s with
  | nil => rfl
  | cons b s ih =>
    unfold takeLine at h
    unfold dropLine
    split_ifs at h ⊢ with hb
    · rw [hb] at h
      exact absurd rfl h
    · refine ih fun hlast => h ?_
      rw [getLast?_cons, hlast]
      rfl

theorem takeLine_take (s : Bytes) (n : Nat) : takeLine (s.take n) = (takeLine s).take n := by
  induction s generalizing n with
  | nil => simp [takeLine]
  | cons b s ih =>
    cases n with
    | zero => simp [takeLine]
    | succ n =>
      simp only [take_succ_cons, takeLine]
      split_ifs
      · simp
      · rw [ih, take_succ_cons]

theorem dropLine_drop {n : Nat} (h : n < (takeLine s).length) :
    dropLine (s.drop n) = dropLine s := by
  induction s generalizing n with
  | nil => simp
  | cons b s ih =>
    cases n with
    | zero => rfl
    | succ n =>
      unfold takeLine at h
      split_ifs at h with hb
      · simp at h
      · rw [drop_succ_cons, ih (by simpa using h), dropLine, if_neg hb]

theorem length_lineContent (line : Bytes) :
    (lineContent line).length = line.length - if line.getLast? = some newline then 1 else 0 := by
  unfold lineContent
  split_ifs <;> simp

/-- Lines can be read in parts that end where a line does. -/
theorem linesOf_append {a : Bytes} (h : a = [] ∨ a.getLast? = some newline) (b : Bytes) :
    linesOf (a ++ b) = linesOf a ++ linesOf b := by
  induction a with
  | nil => rfl
  | cons c a ih =>
    rcases h with h | h
    · cases h
    by_cases hc : c = newline
    · have ha : a = [] ∨ a.getLast? = some newline := by
        cases a with
        | nil => exact Or.inl rfl
        | cons d a => exact Or.inr (by rwa [getLast?_cons_cons] at h)
      simp only [cons_append, linesOf, if_pos hc, ih ha]
    · cases a with
      | nil => exact absurd (Option.some.inj h) hc
      | cons d a =>
        have ha : (d :: a).getLast? = some newline := by rwa [getLast?_cons_cons] at h
        have hcons : ∀ {x line lines}, linesOf x = line :: lines →
            linesOf (c :: x) = (c :: line) :: lines := fun hx => by rw [linesOf, if_neg hc, hx]
        have hline := linesOf_eq_cons (cons_ne_nil d a)
        have hboth : linesOf (d :: a ++ b) =
            takeLine (d :: a) :: (linesOf (dropLine (d :: a)) ++ linesOf b) := by
          rw [ih (Or.inr ha), hline, cons_append]
        rw [cons_append, hcons hboth, hcons hline, cons_append]

theorem flatten_linesOf (s : Bytes) : (linesOf s).flatten = s := by
  induction s with
  | nil => rfl
  | cons b s ih =>
    unfold linesOf
    split_ifs with hb
    · rw [flatten_cons, ih, singleton_append]
    · cases hs : linesOf s with
      | nil => rw [← ih, hs]; rfl
      | cons line lines =>
        rw [hs, flatten_cons] at ih
        rw [flatten_cons, cons_append, ih]

end

end Base
