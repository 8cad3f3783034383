import Orcker.Base.Utf8

/-!
# Unsigned decimal numerals

Numerals as a standard library prints and parses them.
-/

namespace Base

/-- The number in decimal digits. -/
def decimal (n : Nat) : Str := Nat.toDigits 10 n

/-- Filled up with zeros in front, which a reader does not notice. -/
def padded (width n : Nat) : Str :=
  List.replicate (width - (decimal n).length) '0' ++ decimal n

def unsigned : Str → Str
  | '+' :: rest => rest
  | s => s

/-- At least one digit, an optional leading `+`, and nothing above the largest value of the target
type. -/
def parseUInt (max : Nat) (s : Str) : Option Nat :=
  if unsigned s ≠ [] ∧ (unsigned s).all Char.isDigit then
    if Nat.ofDigitChars 10 (unsigned s) 0 ≤ max then some (Nat.ofDigitChars 10 (unsigned s) 0)
    else none
  else none

theorem decimal_ne_nil (n : Nat) : decimal n ≠ [] := Nat.toDigits_ne_nil

variable {n : Nat} {c : Char}

theorem isDigit_of_mem_decimal (h : c ∈ decimal n) : c.isDigit :=
  Nat.isDigit_of_mem_toDigits (by decide) (by decide) h

theorem notMem_decimal (h : c.isDigit = false) : c ∉ decimal n := by
  intro hc
  rw [isDigit_of_mem_decimal hc] at h
  cases h

theorem padded_zero (n : Nat) : padded 0 n = decimal n := by simp [padded]

theorem isDigit_of_mem_padded {width : Nat} (h : c ∈ padded width n) : c.isDigit := by
  rcases List.mem_append.1 h with h | h
  · rw [(List.mem_replicate.1 h).2]
    decide
  · exact isDigit_of_mem_decimal h

theorem padded_ne_nil (width n : Nat) : padded width n ≠ [] := by
  intro h
  exact decimal_ne_nil n (List.append_eq_nil_iff.1 h).2

theorem ofDigitChars_replicate_zero (k : Nat) :
    Nat.ofDigitChars 10 (List.replicate k '0') 0 = 0 := by
  induction k with
  | zero => rfl
  | succ k ih =>
    rw [List.replicate_succ, Nat.ofDigitChars_cons]
    exact ih

theorem ofDigitChars_padded (width n : Nat) : Nat.ofDigitChars 10 (padded width n) 0 = n := by
  rw [padded, Nat.ofDigitChars_append, ofDigitChars_replicate_zero]
  exact Nat.ofDigitChars_toDigits (by decide) (by decide)

theorem padded_injective (width : Nat) : Function.Injective (padded width) := by
  intro m n h
  rw [← ofDigitChars_padded width m, h, ofDigitChars_padded]

theorem unsigned_padded (width n : Nat) : unsigned (padded width n) = padded width n := by
  unfold unsigned
  split
  · rename_i rest heq
    have hplus : '+' ∈ padded width n := heq ▸ List.mem_cons_self
    exact absurd (isDigit_of_mem_padded hplus) (by decide)
  · rfl

theorem parseUInt_padded {max : Nat} (width : Nat) (h : n ≤ max) :
    parseUInt max (padded width n) = some n := by
  unfold parseUInt
  rw [unsigned_padded, if_pos ⟨padded_ne_nil width n,
    List.all_eq_true.2 fun c hc => isDigit_of_mem_padded hc⟩, ofDigitChars_padded, if_pos h]

/-- What was printed is read back. -/
theorem parseUInt_decimal {max : Nat} (h : n ≤ max) : parseUInt max (decimal n) = some n := by
  rw [← padded_zero, parseUInt_padded 0 h]

theorem parseUInt_le {max : Nat} {s : Str} (h : parseUInt max s = some n) : n ≤ max := by
  simp only [parseUInt, Option.ite_none_right_eq_some, Option.some.injEq] at h
  obtain ⟨-, hle, rfl⟩ := h
  exact hle

/-! ## Hexadecimal text

Two lowercase digits for each byte. The digits determine the bytes, whatever case a reader compares
them in. -/

def hexDigit (n : Nat) : Char :=
  if n < 10 then Char.ofNat (48 + n) else Char.ofNat (87 + n)

def byteHex (b : UInt8) : Str := [hexDigit (b.toNat / 16), hexDigit (b.toNat % 16)]

def hexEncode (bytes : Bytes) : Str := bytes.flatMap byteHex

theorem toLower_hexDigit_inj {m n : Nat} (hm : m < 16) (hn : n < 16)
    (h : (hexDigit m).toLower = (hexDigit n).toLower) : m = n := by
  have hall : ∀ m n : Fin 16, (hexDigit m).toLower = (hexDigit n).toLower → m = n := by decide
  exact congrArg Fin.val (hall ⟨m, hm⟩ ⟨n, hn⟩ h)

theorem lower_byteHex_inj {a b : UInt8} (h : lower (byteHex a) = lower (byteHex b)) : a = b := by
  have ha := a.toNat_lt
  have hb := b.toNat_lt
  obtain ⟨hhigh, hlow⟩ := List.cons.inj h
  have hhigh := toLower_hexDigit_inj (by omega) (by omega) hhigh
  have hlow := toLower_hexDigit_inj (by omega) (by omega) (List.cons.inj hlow).1
  apply UInt8.toNat_inj.1
  omega

theorem lower_hexEncode_inj {a b : Bytes} (h : lower (hexEncode a) = lower (hexEncode b)) :
    a = b := by
  induction a generalizing b with
  | nil =>
    cases b with
    | nil => rfl
    | cons y b => cases h
  | cons x a ih =>
    cases b with
    | nil => cases h
    | cons y b =>
      have hparts : lower (byteHex x ++ hexEncode a) = lower (byteHex y ++ hexEncode b) := h
      rw [lower_append, lower_append] at hparts
      obtain ⟨hbyte, hrest⟩ := List.append_inj hparts rfl
      rw [lower_byteHex_inj hbyte, ih hrest]

end Base
