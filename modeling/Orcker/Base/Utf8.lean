import Orcker.Base.Text

/-!
# UTF-8

Encoding of strings to bytes, and the two ways to come back: `lossy` replaces what is ill-formed,
`fromUtf8` refuses it.
-/

namespace Base

open List

abbrev Bytes := List UInt8

def encodeChar (c : Char) : Bytes :=
  let n := c.toNat
  if n < 0x80 then [UInt8.ofNat n]
  else if n < 0x800 then [UInt8.ofNat (0xc0 + n / 64), UInt8.ofNat (0x80 + n % 64)]
  else if n < 0x10000 then
    [UInt8.ofNat (0xe0 + n / 4096), UInt8.ofNat (0x80 + n / 64 % 64), UInt8.ofNat (0x80 + n % 64)]
  else
    [UInt8.ofNat (0xf0 + n / 262144), UInt8.ofNat (0x80 + n / 4096 % 64),
      UInt8.ofNat (0x80 + n / 64 % 64), UInt8.ofNat (0x80 + n % 64)]

def utf8 (s : Str) : Bytes := s.flatMap encodeChar

def replacement : Char := Char.ofNat 0xfffd

def isContinuation (b : UInt8) : Bool := 0x80 ≤ b.toNat && b.toNat < 0xc0

/-- The second bytes that may follow the lead byte of a three-byte sequence:
no overlong form, no surrogate. -/
def isSecondOfThree (lead second : Nat) : Bool :=
  (lead == 0xe0 && 0xa0 ≤ second && second ≤ 0xbf) ||
  (0xe1 ≤ lead && lead ≤ 0xec && 0x80 ≤ second && second ≤ 0xbf) ||
  (lead == 0xed && 0x80 ≤ second && second ≤ 0x9f) ||
  (0xee ≤ lead && lead ≤ 0xef && 0x80 ≤ second && second ≤ 0xbf)

/-- The second bytes that may follow the lead byte of a four-byte sequence. -/
def isSecondOfFour (lead second : Nat) : Bool :=
  (lead == 0xf0 && 0x90 ≤ second && second ≤ 0xbf) ||
  (0xf1 ≤ lead && lead ≤ 0xf3 && 0x80 ≤ second && second ≤ 0xbf) ||
  (lead == 0xf4 && 0x80 ≤ second && second ≤ 0x8f)

/-- The next character and what is left. An ill-formed sequence yields one
replacement character and ends before the first byte that cannot continue it. -/
def decodeStep (b : UInt8) (rest : Bytes) : Char × Bytes :=
  let n := b.toNat
  if n < 0x80 then (Char.ofNat n, rest)
  else if 0xc2 ≤ n ∧ n ≤ 0xdf then
    match rest with
    | [] => (replacement, rest)
    | c :: rest₁ =>
      if isContinuation c then (Char.ofNat ((n - 0xc0) * 64 + (c.toNat - 0x80)), rest₁)
      else (replacement, rest)
  else if 0xe0 ≤ n ∧ n ≤ 0xef then
    match rest with
    | [] => (replacement, rest)
    | c :: rest₁ =>
      if isSecondOfThree n c.toNat then
        match rest₁ with
        | [] => (replacement, rest₁)
        | d :: rest₂ =>
          if isContinuation d then
            (Char.ofNat ((n - 0xe0) * 4096 + (c.toNat - 0x80) * 64 + (d.toNat - 0x80)), rest₂)
          else (replacement, rest₁)
      else (replacement, rest)
  else if 0xf0 ≤ n ∧ n ≤ 0xf4 then
    match rest with
    | [] => (replacement, rest)
    | c :: rest₁ =>
      if isSecondOfFour n c.toNat then
        match rest₁ with
        | [] => (replacement, rest₁)
        | d :: rest₂ =>
          if isContinuation d then
            match rest₂ with
            | [] => (replacement, rest₂)
            | e :: rest₃ =>
              if isContinuation e then
                (Char.ofNat ((n - 0xf0) * 262144 + (c.toNat - 0x80) * 4096 +
                  (d.toNat - 0x80) * 64 + (e.toNat - 0x80)), rest₃)
              else (replacement, rest₂)
          else (replacement, rest₁)
      else (replacement, rest)
  else (replacement, rest)

/-- Decode at most `fuel` characters; every step consumes at least one byte. -/
def decodeAll : Nat → Bytes → Str
  | 0, _ => []
  | _, [] => []
  | fuel + 1, b :: rest => (decodeStep b rest).1 :: decodeAll fuel (decodeStep b rest).2

/-- Every maximal ill-formed sequence becomes U+FFFD. -/
def lossy (b : Bytes) : Str := decodeAll b.length b

/-- Strict decoding. Ill-formed input is not the encoding of anything. -/
def fromUtf8 (b : Bytes) : Option Str := if utf8 (lossy b) = b then some (lossy b) else none

theorem toNat_le_of_char (c : Char) : c.toNat < 0xd800 ∨ (0xdfff < c.toNat ∧ c.toNat < 0x110000) :=
  c.valid

theorem toNat_ofNat_of_lt {n : Nat} (h : n < 256) : (UInt8.ofNat n).toNat = n := by
  rw [UInt8.toNat_ofNat']
  exact Nat.mod_eq_of_lt h

theorem toNat_continuation (n : Nat) : (UInt8.ofNat (0x80 + n % 64)).toNat = 0x80 + n % 64 :=
  toNat_ofNat_of_lt (by omega)

theorem isContinuation_ofNat (n : Nat) : isContinuation (UInt8.ofNat (0x80 + n % 64)) = true := by
  simp only [isContinuation, toNat_continuation, Bool.and_eq_true, decide_eq_true_eq]
  omega

theorem decodeStep_encodeChar (c : Char) (rest : Bytes) :
    ∃ b more, encodeChar c = b :: more ∧ decodeStep b (more ++ rest) = (c, rest) := by
  have hc := toNat_le_of_char c
  have hofNat : ∀ n, n = c.toNat → Char.ofNat n = c := fun n hn => hn ▸ Char.ofNat_toNat c
  unfold encodeChar
  simp only
  generalize hn : c.toNat = n at *
  split_ifs with h1 h2 h3
  · refine ⟨_, _, rfl, ?_⟩
    simp only [decodeStep, toNat_ofNat_of_lt (h1.trans (by decide)), h1, if_true, nil_append]
    rw [hofNat n rfl]
  · refine ⟨_, _, rfl, ?_⟩
    have hb : (UInt8.ofNat (0xc0 + n / 64)).toNat = 0xc0 + n / 64 := toNat_ofNat_of_lt (by omega)
    simp only [decodeStep, hb, toNat_continuation, cons_append, nil_append,
      isContinuation_ofNat, if_true]
    rw [if_neg (by omega), if_pos (by omega), hofNat _ (by omega)]
  · refine ⟨_, _, rfl, ?_⟩
    have hb : (UInt8.ofNat (0xe0 + n / 4096)).toNat = 0xe0 + n / 4096 := toNat_ofNat_of_lt (by omega)
    have hsecond : isSecondOfThree (0xe0 + n / 4096) (0x80 + n / 64 % 64) = true := by
      simp only [isSecondOfThree, Bool.or_eq_true, Bool.and_eq_true, decide_eq_true_eq, beq_iff_eq]
      omega
    simp only [decodeStep, hb, toNat_continuation, cons_append, nil_append,
      isContinuation_ofNat, hsecond, if_true]
    rw [if_neg (by omega), if_neg (by omega), if_pos (by omega), hofNat _ (by omega)]
  · refine ⟨_, _, rfl, ?_⟩
    have hb : (UInt8.ofNat (0xf0 + n / 262144)).toNat = 0xf0 + n / 262144 :=
      toNat_ofNat_of_lt (by omega)
    have hsecond : isSecondOfFour (0xf0 + n / 262144) (0x80 + n / 4096 % 64) = true := by
      simp only [isSecondOfFour, Bool.or_eq_true, Bool.and_eq_true, decide_eq_true_eq, beq_iff_eq]
      omega
    simp only [decodeStep, hb, toNat_continuation, cons_append, nil_append,
      isContinuation_ofNat, hsecond, if_true]
    rw [if_neg (by omega), if_neg (by omega), if_neg (by omega), if_pos (by omega),
      hofNat _ (by omega)]

theorem decodeAll_utf8 (s : Str) (fuel : Nat) (h : (utf8 s).length ≤ fuel) :
    decodeAll fuel (utf8 s) = s := by
  induction s generalizing fuel with
  | nil => cases fuel <;> rfl
  | cons c s ih =>
    obtain ⟨b, more, henc, hstep⟩ := decodeStep_encodeChar c (utf8 s)
    have hutf8 : utf8 (c :: s) = b :: (more ++ utf8 s) := by
      rw [utf8, flatMap_cons, henc]
      rfl
    rw [hutf8] at h ⊢
    cases fuel with
    | zero => simp at h
    | succ fuel =>
      simp only [length_cons, length_append] at h
      rw [decodeAll, hstep, ih fuel (by omega)]

/-- Both ways invert the encoding. -/
@[simp] theorem lossy_utf8 (s : Str) : lossy (utf8 s) = s := decodeAll_utf8 s _ le_rfl

theorem fromUtf8_eq_some_iff {b : Bytes} {s : Str} : fromUtf8 b = some s ↔ b = utf8 s := by
  unfold fromUtf8
  constructor
  · intro h
    rw [Option.ite_none_right_eq_some, Option.some.injEq] at h
    obtain ⟨hb, rfl⟩ := h
    exact hb.symm
  · rintro rfl
    rw [lossy_utf8, if_pos rfl]

theorem utf8_injective {s t : Str} (h : utf8 s = utf8 t) : s = t := by
  rw [← lossy_utf8 s, h, lossy_utf8]

@[simp] theorem utf8_eq_nil {s : Str} : utf8 s = [] ↔ s = [] :=
  ⟨fun h => utf8_injective (t := []) h, fun h => h ▸ rfl⟩

theorem encodeChar_ne_nil (c : Char) : encodeChar c ≠ [] := by
  unfold encodeChar
  simp only
  split_ifs <;> simp

theorem mem_encodeChar_of_ascii {c : Char} {b : UInt8} (hb : b.toNat < 0x80)
    (h : b ∈ encodeChar c) : c.toNat = b.toNat := by
  have hbig : ∀ n, 0x80 ≤ n → n < 256 → b ≠ UInt8.ofNat n := by
    rintro n hn hlt rfl
    rw [toNat_ofNat_of_lt hlt] at hb
    omega
  have hc := toNat_le_of_char c
  unfold encodeChar at h
  simp only at h
  split_ifs at h with h1 h2 h3
  · rw [mem_singleton] at h
    rw [h, toNat_ofNat_of_lt (by omega)]
  all_goals simp only [mem_cons, not_mem_nil, or_false] at h
  · rcases h with h | h <;> exact absurd h (hbig _ (by omega) (by omega))
  · rcases h with h | h | h <;> exact absurd h (hbig _ (by omega) (by omega))
  · rcases h with h | h | h | h <;> exact absurd h (hbig _ (by omega) (by omega))

@[simp] theorem utf8_append (s t : Str) : utf8 (s ++ t) = utf8 s ++ utf8 t := by
  simp [utf8]

/-- An ASCII byte of a text is a character of it. -/
theorem utf8_eq_append_cons {s : Str} {a b : Bytes} {x : UInt8} (hx : x.toNat < 0x80)
    (h : utf8 s = a ++ x :: b) :
    ∃ l c r, s = l ++ c :: r ∧ c.toNat = x.toNat ∧ utf8 l = a ∧ utf8 r = b := by
  induction s generalizing a with
  | nil => simp [utf8] at h
  | cons d s ih =>
    have hsplit : encodeChar d ++ utf8 s = a ++ x :: b := h
    rcases append_eq_append_iff.1 hsplit with ⟨a', ha, hs⟩ | ⟨e, hd, hb⟩
    · obtain ⟨l, c, r, rfl, hc, hl, hr⟩ := ih hs
      refine ⟨d :: l, c, r, rfl, hc, ?_, hr⟩
      rw [ha, ← hl]
      rfl
    · cases e with
      | nil =>
        simp only [append_nil, nil_append] at hd hb
        obtain ⟨l, c, r, rfl, hc, hl, hr⟩ := ih (a := []) hb.symm
        refine ⟨d :: l, c, r, rfl, hc, ?_, hr⟩
        show encodeChar d ++ utf8 l = a
        rw [hl, append_nil, hd]
      | cons y e =>
        -- the byte lies in the character, which is then that byte alone
        obtain ⟨rfl, hrest⟩ := cons.inj hb
        have hd' : d.toNat = x.toNat := mem_encodeChar_of_ascii hx (by simp [hd])
        have hone : encodeChar d = [x] := by
          simp only [encodeChar, hd', if_pos hx]
          simp
        rw [hone] at hd
        obtain ⟨rfl, rfl⟩ : a = [] ∧ e = [] := by
          cases a with
          | nil => exact ⟨rfl, (cons.inj hd).2.symm⟩
          | cons z a => simp at hd
        exact ⟨[], d, s, rfl, hd', rfl, hrest.symm⟩

def asciiLower (x : UInt8) : UInt8 := if 65 ≤ x.toNat ∧ x.toNat ≤ 90 then x + 32 else x

def eqIgnoreAsciiCase (a b : Bytes) : Bool := a.map asciiLower = b.map asciiLower

theorem asciiLower_of_le {x : UInt8} (h : 0x80 ≤ x.toNat) : asciiLower x = x := by
  rw [asciiLower, if_neg (by omega)]

theorem encodeChar_toLower (c : Char) : (encodeChar c).map asciiLower = encodeChar c.toLower := by
  by_cases hc : c.toNat < 0x80
  · have hone : ∀ {d : Char}, d.toNat < 0x80 → encodeChar d = [UInt8.ofNat d.toNat] := by
      intro d hd
      simp only [encodeChar, if_pos hd]
    have hlower := toNat_toLower c
    have hc' : c.toLower.toNat < 0x80 := by
      rw [hlower]
      split <;> omega
    rw [hone hc, hone hc', map_singleton, asciiLower, toNat_ofNat_of_lt (by omega), hlower]
    split
    · rw [UInt8.ofNat_add]
      rfl
    · rfl
  · have hsame : c.toLower = c := by
      rw [char_eq_iff_toNat, toNat_toLower, if_neg (by omega)]
    rw [hsame]
    refine (map_congr_left fun x hx => ?_).trans (map_id _)
    refine asciiLower_of_le (Nat.le_of_not_lt fun hlt => ?_)
    have := mem_encodeChar_of_ascii hlt hx
    omega

/-- Lowering bytes is lowering characters. -/
theorem utf8_lower (s : Str) : (utf8 s).map asciiLower = utf8 (lower s) := by
  induction s with
  | nil => rfl
  | cons c s ih =>
    show (encodeChar c ++ utf8 s).map asciiLower = encodeChar c.toLower ++ utf8 (lower s)
    rw [map_append, ih, encodeChar_toLower]

end Base
