import Mathlib

/-!
# Chunks of a stream

Sub-slices of a list, and cutting one into pieces of bounded length.
-/

namespace Base

open List

variable {α : Type}

/-- The sub-slice between two offsets, when both are in range. -/
def slice? (s : List α) (i j : Nat) : Option (List α) :=
  if i ≤ j ∧ j ≤ s.length then some ((s.drop i).take (j - i)) else none

variable {s : List α} {i : Nat}

/-- It answers a pattern exactly where the pattern starts the rest of the stream. -/
theorem slice?_eq_some_iff {p : List α} (hp : p ≠ []) :
    slice? s i (i + p.length) = some p ↔ p <+: s.drop i := by
  have hpos : 0 < p.length := length_pos_iff.2 hp
  unfold slice?
  rw [prefix_iff_eq_take, show i + p.length - i = p.length by omega]
  constructor
  · intro h
    split at h
    · exact (Option.some.inj h).symm
    · cases h
  · intro h
    have hlen : p.length ≤ (s.drop i).length := by
      have := congrArg length h
      rw [length_take] at this
      omega
    rw [length_drop] at hlen
    rw [if_pos ⟨by omega, by omega⟩, ← h]

theorem isPrefix_drop_append {p : List α} (t : List α) (hi : i ≤ s.length) (h : p <+: s.drop i) :
    p <+: (s ++ t).drop i := by
  rw [drop_append_of_le_length hi]
  exact prefix_append_of_prefix h

theorem isPrefix_drop_of_append {t p : List α} (hi : i + p.length ≤ s.length)
    (h : p <+: (s ++ t).drop i) : p <+: s.drop i := by
  rw [drop_append_of_le_length (by omega)] at h
  refine prefix_of_prefix_length_le h (prefix_append _ _) ?_
  rw [length_drop]
  omega

/-- At most `fuel` pieces of at most `n` elements each. -/
def chunksUpTo (n : Nat) : Nat → List α → List (List α)
  | 0, _ => []
  | fuel + 1, s => if s.isEmpty then [] else s.take n :: chunksUpTo n fuel (s.drop n)

/-- Pieces of at most `n` elements, none of them empty. -/
def chunks (n : Nat) (s : List α) : List (List α) := chunksUpTo n s.length s

variable {n : Nat}

theorem flatten_chunksUpTo (hn : 0 < n) {fuel : Nat} (h : s.length ≤ fuel) :
    (chunksUpTo n fuel s).flatten = s := by
  induction fuel generalizing s with
  | zero => rw [length_eq_zero_iff.1 (Nat.le_zero.1 h)]; rfl
  | succ fuel ih =>
    unfold chunksUpTo
    split
    · rename_i hs
      rw [isEmpty_iff.1 hs]
      rfl
    · rename_i hs
      have hdrop : (s.drop n).length ≤ fuel := by
        rw [length_drop]
        omega
      rw [flatten_cons, ih hdrop, take_append_drop]

/-- Cutting loses nothing. -/
theorem flatten_chunks (hn : 0 < n) (s : List α) : (chunks n s).flatten = s :=
  flatten_chunksUpTo hn le_rfl

theorem mem_chunksUpTo {fuel : Nat} (hn : 0 < n) {c : List α} (h : c ∈ chunksUpTo n fuel s) :
    c ≠ [] ∧ c.length ≤ n := by
  induction fuel generalizing s with
  | zero => cases h
  | succ fuel ih =>
    unfold chunksUpTo at h
    split at h
    · cases h
    · rename_i hs
      rw [mem_cons] at h
      rcases h with rfl | h
      · refine ⟨?_, length_take_le n s⟩
        rw [Ne, take_eq_nil_iff, not_or]
        exact ⟨by omega, fun hnil => hs (isEmpty_iff.2 hnil)⟩
      · exact ih h

/-- Whatever the cutting, one piece carries the stream past a given offset. -/
theorem exists_crossing {k : Nat} (hk : 0 < k) {pieces : List (List α)}
    (h : k ≤ pieces.flatten.length) :
    ∃ before piece after, pieces = before ++ piece :: after ∧
      before.flatten.length < k ∧ k ≤ (before.flatten ++ piece).length := by
  induction pieces generalizing k with
  | nil =>
    rw [flatten_nil, length_nil] at h
    omega
  | cons p ps ih =>
    by_cases hp : k ≤ p.length
    · exact ⟨[], p, ps, rfl, hk, hp⟩
    · -- the offset lies beyond the first piece: look for it in the others
      rw [flatten_cons, length_append] at h
      obtain ⟨before, piece, after, rfl, hlt, hle⟩ := ih (k := k - p.length) (by omega) (by omega)
      refine ⟨p :: before, piece, after, rfl, ?_, ?_⟩
      · rw [flatten_cons, length_append]
        omega
      · rw [flatten_cons, length_append, length_append]
        rw [length_append] at hle
        omega

end Base
