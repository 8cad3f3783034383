import Mathlib

/-!
# Text

Strings as lists of characters, with the standard-library operations that string-processing code is
written with, and the characterisations that proofs use instead of their recursions. ASCII
lowercasing commutes with what only looks at characters which are not letters (`lower_*`).
-/

namespace Base

open List

/-- A string, as its sequence of Unicode scalar values. -/
abbrev Str := List Char

instance : Coe String Str := ⟨String.toList⟩

instance : LawfulBEq Str := inferInstance

section Split

variable {α : Type} [DecidableEq α]

/-- Split at the first separator. -/
def splitOnce (c : α) : List α → Option (List α × List α)
  | [] => none
  | a :: s => if a = c then some ([], s) else (splitOnce c s).map fun p => (a :: p.1, p.2)

/-- Split at the last separator. -/
def rsplitOnce (c : α) : List α → Option (List α × List α)
  | [] => none
  | a :: s =>
    match rsplitOnce c s with
    | some p => some (a :: p.1, p.2)
    | none => if a = c then some ([], s) else none

variable {c : α} {s : List α}

theorem splitOnce_eq_none_iff : splitOnce c s = none ↔ c ∉ s := by
  induction s with
  | nil => simp [splitOnce]
  | cons a s ih =>
    by_cases h : a = c
    · simp [splitOnce, h]
    · simp [splitOnce, h, ih, Ne.symm h]

variable {l r : List α}

theorem splitOnce_append (h : c ∉ l) : splitOnce c (l ++ c :: r) = some (l, r) := by
  induction l with
  | nil => simp [splitOnce]
  | cons a l ih =>
    rw [mem_cons, not_or] at h
    simp [splitOnce, Ne.symm h.1, ih h.2]

/-- The decomposition whose left part is free of the separator. -/
theorem splitOnce_eq_some_iff : splitOnce c s = some (l, r) ↔ s = l ++ c :: r ∧ c ∉ l := by
  refine ⟨fun h => ?_, fun ⟨hs, hl⟩ => hs ▸ splitOnce_append hl⟩
  induction s generalizing l with
  | nil => simp [splitOnce] at h
  | cons a s ih =>
    by_cases hac : a = c
    · subst hac
      simp only [splitOnce, if_pos, Option.some.injEq, Prod.mk.injEq] at h
      obtain ⟨rfl, rfl⟩ := h
      simp
    · simp only [splitOnce, if_neg hac, Option.map_eq_some_iff] at h
      obtain ⟨⟨l', r'⟩, hs, heq⟩ := h
      obtain ⟨rfl, rfl⟩ := Prod.mk.inj heq
      obtain ⟨rfl, hl⟩ := ih hs
      simp [Ne.symm hac, hl]

theorem rsplitOnce_eq_none_iff : rsplitOnce c s = none ↔ c ∉ s := by
  induction s with
  | nil => simp [rsplitOnce]
  | cons a s ih =>
    by_cases h : c ∈ s
    · obtain ⟨p, hp⟩ := Option.ne_none_iff_exists'.1 (mt ih.1 (not_not_intro h))
      simp [rsplitOnce, hp, h]
    · simp [rsplitOnce, ih.2 h, h, eq_comm]

theorem rsplitOnce_append (h : c ∉ r) : rsplitOnce c (l ++ c :: r) = some (l, r) := by
  induction l with
  | nil => simp [rsplitOnce, rsplitOnce_eq_none_iff.2 h]
  | cons a l ih => simp [rsplitOnce, ih]

/-- The decomposition whose right part is free of the separator. -/
theorem rsplitOnce_eq_some_iff : rsplitOnce c s = some (l, r) ↔ s = l ++ c :: r ∧ c ∉ r := by
  refine ⟨fun h => ?_, fun ⟨hs, hr⟩ => hs ▸ rsplitOnce_append hr⟩
  induction s generalizing l with
  | nil => simp [rsplitOnce] at h
  | cons a s ih =>
    simp only [rsplitOnce] at h
    cases hs : rsplitOnce c s with
    | some p =>
      obtain ⟨l', r'⟩ := p
      simp only [hs, Option.some.injEq, Prod.mk.injEq] at h
      obtain ⟨rfl, rfl⟩ := h
      obtain ⟨rfl, hr⟩ := ih hs
      exact ⟨rfl, hr⟩
    | none =>
      simp only [hs, Option.ite_none_right_eq_some, Option.some.injEq, Prod.mk.injEq] at h
      obtain ⟨rfl, rfl, rfl⟩ := h
      exact ⟨rfl, rsplitOnce_eq_none_iff.1 hs⟩

/-- Stripping a suffix inverts appending it. -/
theorem dropSuffix?_eq_some {p : List α} : l.dropSuffix? s = some p ↔ l = p ++ s := by
  rw [dropSuffix?_eq_some_iff]
  simp

theorem getD_dropSuffix?_eq_self (h : l.getLast? ≠ some c) : (l.dropSuffix? [c]).getD l = l := by
  cases hs : l.dropSuffix? [c] with
  | none => rfl
  | some p =>
    rw [dropSuffix?_eq_some] at hs
    exact absurd (by rw [hs]; simp) h

theorem dropPrefix?_eq_some {p : List α} : l.dropPrefix? p = some s ↔ l = p ++ s := by
  rw [dropPrefix?_eq_some_iff]
  simp

/-- Split at the first occurrence of `pat`. -/
def splitOnceStr (pat : List α) : List α → Option (List α × List α)
  | [] => if pat = [] then some ([], []) else none
  | a :: s =>
    match (a :: s).dropPrefix? pat with
    | some rest => some ([], rest)
    | none => (splitOnceStr pat s).map fun p => (a :: p.1, p.2)

theorem splitOnceStr_append {pat : List α} (r : List α) (h : c ∉ l) :
    splitOnceStr (c :: pat) (l ++ (c :: pat ++ r)) = some (l, r) := by
  induction l with
  | nil =>
    have hdrop : (c :: (pat ++ r)).dropPrefix? (c :: pat) = some r := dropPrefix?_eq_some.2 rfl
    simp only [nil_append, cons_append, splitOnceStr, hdrop]
  | cons a l ih =>
    rw [mem_cons, not_or] at h
    have hdrop : (a :: (l ++ (c :: pat ++ r))).dropPrefix? (c :: pat) = none := by
      rw [dropPrefix?, if_neg (by simpa using Ne.symm h.1)]
    simp only [cons_append] at hdrop ih ⊢
    simp only [splitOnceStr, hdrop, ih h.2, Option.map_some]

theorem forall_mem_of_splitOn {P : α → Prop} (h : ∀ l ∈ s.splitOn c, ∀ a ∈ l, P a) :
    ∀ a ∈ s, a = c ∨ P a := by
  induction s with
  | nil => simp
  | cons b s ih =>
    rw [splitOn_cons_eq_if_modifyHead] at h
    by_cases hb : b == c
    · rw [if_pos hb] at h
      simp only [mem_cons, forall_eq_or_imp] at h ⊢
      exact ⟨Or.inl (eq_of_beq hb), ih h.2⟩
    · rw [if_neg hb] at h
      obtain ⟨piece, pieces, hp⟩ := exists_cons_of_ne_nil (splitOn_ne_nil c s)
      rw [hp] at h ih
      simp only [modifyHead_cons, mem_cons, forall_eq_or_imp] at h ih ⊢
      exact ⟨Or.inr h.1.1, ih ⟨h.1.2, h.2⟩⟩

theorem head?_ne_of_splitOn (h : ∀ l ∈ s.splitOn c, l ≠ []) : s.head? ≠ some c := by
  cases s with
  | nil => simp
  | cons b s =>
    rintro hb
    rw [head?_cons, Option.some.injEq] at hb
    subst hb
    refine h [] ?_ rfl
    rw [splitOn_cons_eq_if_modifyHead]
    simp

end Split

/-- The character is encoded in one byte below `0x80`. -/
def isAscii (c : Char) : Bool := c.toNat < 128

/-- ASCII letters are lowercased, every other character is kept. -/
def lower (s : Str) : Str := s.map Char.toLower

/-- The Unicode `White_Space` characters. -/
def isWhitespace (c : Char) : Bool :=
  let n := c.toNat
  (9 ≤ n && n ≤ 13) || n == 0x20 || n == 0x85 || n == 0xa0 || n == 0x1680 ||
    (0x2000 ≤ n && n ≤ 0x200a) || n == 0x2028 || n == 0x2029 || n == 0x202f || n == 0x205f ||
    n == 0x3000

/-- The control characters (general category `Cc`). -/
def isControl (c : Char) : Bool :=
  let n := c.toNat
  n ≤ 0x1f || (0x7f ≤ n && n ≤ 0x9f)

/-- Without white space at both ends. -/
def trim (s : Str) : Str := ((s.dropWhile isWhitespace).reverse.dropWhile isWhitespace).reverse

/-- The length in UTF-8. -/
def byteLen (s : Str) : Nat := (s.map Char.utf8Size).sum

theorem toNat_toLower (c : Char) :
    c.toLower.toNat = if 65 ≤ c.toNat ∧ c.toNat ≤ 90 then c.toNat + 32 else c.toNat := by
  have hA : c.val ≥ 'A'.val ↔ 65 ≤ c.toNat := UInt32.le_iff_toNat_le
  have hZ : c.val ≤ 'Z'.val ↔ c.toNat ≤ 90 := UInt32.le_iff_toNat_le
  unfold Char.toLower
  by_cases h : c.val ≥ 'A'.val ∧ c.val ≤ 'Z'.val
  · rw [dif_pos h, if_pos ⟨hA.1 h.1, hZ.1 h.2⟩]
    have hz := hZ.1 h.2
    have hn : c.val.toNat = c.toNat := rfl
    show (c.val + ('a'.val - 'A'.val)).toNat = c.toNat + 32
    rw [UInt32.toNat_add, hn, show ('a'.val - 'A'.val).toNat = 32 from rfl]
    omega
  · rw [dif_neg h, if_neg (fun hc => h ⟨hA.2 hc.1, hZ.2 hc.2⟩)]

variable {c d : Char} {s : Str}

theorem char_eq_iff_toNat : c = d ↔ c.toNat = d.toNat := by
  rw [Char.toNat_inj]

theorem isDigit_iff_toNat : c.isDigit ↔ 48 ≤ c.toNat ∧ c.toNat ≤ 57 := by
  simp only [Char.isDigit, Bool.and_eq_true, decide_eq_true_eq, ge_iff_le,
    UInt32.le_iff_toNat_le]
  rfl

theorem isLower_iff_toNat : c.isLower ↔ 97 ≤ c.toNat ∧ c.toNat ≤ 122 := by
  simp only [Char.isLower, Bool.and_eq_true, decide_eq_true_eq, ge_iff_le,
    UInt32.le_iff_toNat_le]
  rfl

theorem isUpper_iff_toNat : c.isUpper ↔ 65 ≤ c.toNat ∧ c.toNat ≤ 90 := by
  simp only [Char.isUpper, decide_eq_true_eq, ge_iff_le,
    UInt32.le_iff_toNat_le]
  rfl

theorem isAlphanum_iff_toNat :
    c.isAlphanum ↔ (65 ≤ c.toNat ∧ c.toNat ≤ 90) ∨ (97 ≤ c.toNat ∧ c.toNat ≤ 122) ∨
      (48 ≤ c.toNat ∧ c.toNat ≤ 57) := by
  rw [Char.isAlphanum, Char.isAlpha, Bool.or_eq_true, Bool.or_eq_true, isUpper_iff_toNat,
    isLower_iff_toNat, isDigit_iff_toNat, or_assoc]

@[simp] theorem isAlphanum_toLower (c : Char) : c.toLower.isAlphanum = c.isAlphanum := by
  rw [Bool.eq_iff_iff, isAlphanum_iff_toNat, isAlphanum_iff_toNat, toNat_toLower]
  split <;> omega

theorem toLower_eq_iff (hd : d.isAlpha = false) : c.toLower = d ↔ c = d := by
  rw [← Bool.not_eq_true, Char.isAlpha, Bool.or_eq_true, isUpper_iff_toNat, isLower_iff_toNat] at hd
  rw [char_eq_iff_toNat, char_eq_iff_toNat, toNat_toLower]
  split <;> omega

theorem map_toLower_eq_some_iff (hd : d.isAlpha = false) {o : Option Char} :
    o.map Char.toLower = some d ↔ o = some d := by
  cases o <;> simp [toLower_eq_iff hd]

@[simp] theorem toLower_toLower (c : Char) : c.toLower.toLower = c.toLower := by
  rw [char_eq_iff_toNat, toNat_toLower, toNat_toLower]
  split_ifs <;> omega

theorem utf8Size_of_isAscii (h : isAscii c) : c.utf8Size = 1 := by
  simp only [isAscii, decide_eq_true_eq] at h
  refine Char.utf8Size_eq_one_iff.2 (UInt32.le_iff_toNat_le.2 ?_)
  have hv : c.val.toNat = c.toNat := rfl
  have h127 : (127 : UInt32).toNat = 127 := rfl
  omega

@[simp] theorem isAscii_toLower (c : Char) : isAscii c.toLower = isAscii c := by
  simp only [isAscii, toNat_toLower, decide_eq_decide]
  split <;> omega

@[simp] theorem utf8Size_toLower (c : Char) : c.toLower.utf8Size = c.utf8Size := by
  by_cases h : isAscii c
  · have hc := isAscii_toLower c
    rw [h] at hc
    rw [utf8Size_of_isAscii h, utf8Size_of_isAscii hc]
  · have hn : c.toLower = c := by
      rw [char_eq_iff_toNat, toNat_toLower, if_neg]
      simp only [isAscii, decide_eq_true_eq] at h
      omega
    rw [hn]

theorem isWhitespace_of_graphic (h : 33 ≤ c.toNat) (h' : c.toNat ≤ 126) :
    isWhitespace c = false := by
  unfold isWhitespace
  simp only [Bool.or_eq_false_iff, Bool.and_eq_false_iff, decide_eq_false_iff_not,
    beq_eq_false_iff_ne]
  omega

theorem dropWhile_eq_self (h : ∀ c ∈ s.head?, isWhitespace c = false) :
    s.dropWhile isWhitespace = s := by
  cases s with
  | nil => rfl
  | cons c s => exact dropWhile_cons_of_neg (by simpa using h c rfl)

theorem trim_eq_self (hhead : ∀ c ∈ s.head?, isWhitespace c = false)
    (hlast : ∀ c ∈ s.getLast?, isWhitespace c = false) : trim s = s := by
  rw [trim, dropWhile_eq_self hhead, dropWhile_eq_self (s := s.reverse) (by simpa using hlast),
    reverse_reverse]

@[simp] theorem lower_nil : lower [] = [] := rfl

@[simp] theorem lower_cons (c : Char) (s : Str) : lower (c :: s) = c.toLower :: lower s := rfl

@[simp] theorem lower_append (s t : Str) : lower (s ++ t) = lower s ++ lower t :=
  map_append

@[simp] theorem lower_lower (s : Str) : lower (lower s) = lower s := by
  simp [lower]

@[simp] theorem lower_eq_nil : lower s = [] ↔ s = [] := map_eq_nil_iff

@[simp] theorem isEmpty_lower (s : Str) : (lower s).isEmpty = s.isEmpty := by
  cases s <;> rfl

@[simp] theorem byteLen_lower (s : Str) : byteLen (lower s) = byteLen s := by
  simp [byteLen, lower, Function.comp_def]

theorem mem_lower_iff (hd : d.isAlpha = false) : d ∈ lower s ↔ d ∈ s := by
  simp only [lower, mem_map, toLower_eq_iff hd, exists_eq_right]

@[simp] theorem all_isAscii_lower (s : Str) : (lower s).all isAscii = s.all isAscii := by
  simp [lower, all_map, Function.comp_def]

end Base
