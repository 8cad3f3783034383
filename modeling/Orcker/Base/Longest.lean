import Mathlib.Order.Defs.LinearOrder
import Orcker.Base.Text
import Mathlib.Order.Bounds.Basic
import Mathlib.Data.List.Basic

/-!
# The last of the greatest, and the longest of some prefixes

Loops that keep the best element so far, and the longest of some prefixes of one text.
-/

namespace Base

open List Option

section Best

variable {α V : Type} [LinearOrder V] {l : List α}

/-- A step of such a loop. Which of two equals is kept is left to it. -/
structure KeepsBest (key : α → V) (step : Option α → α → Option α) : Prop where
  first : ∀ x, step none x = some x
  next : ∀ b x, step (some b) x = some b ∧ key x ≤ key b ∨ step (some b) x = some x ∧ key b ≤ key x

namespace KeepsBest

variable {key : α → V} {step : Option α → α → Option α}

theorem foldl_some (h : KeepsBest key step) (l : List α) (b : α) :
    ∃ m, l.foldl step (some b) = some m ∧ (m = b ∨ m ∈ l) ∧ key b ≤ key m ∧
      ∀ x ∈ l, key x ≤ key m := by
  induction l generalizing b with
  | nil => exact ⟨b, rfl, .inl rfl, le_refl _, by simp⟩
  | cons y l ih =>
    rw [foldl_cons]
    rcases h.next b y with ⟨hkept, hle⟩ | ⟨hnew, hle⟩
    · rw [hkept]
      obtain ⟨m, hm, hmem, hb, hall⟩ := ih b
      refine ⟨m, hm, hmem.imp_right (mem_cons_of_mem _), hb, ?_⟩
      exact forall_mem_cons.2 ⟨hle.trans hb, hall⟩
    · rw [hnew]
      obtain ⟨m, hm, hmem, hy, hall⟩ := ih y
      refine ⟨m, hm, .inr ?_, hle.trans hy, forall_mem_cons.2 ⟨hy, hall⟩⟩
      exact hmem.elim (fun h => h ▸ mem_cons_self) (mem_cons_of_mem _)

theorem eq_none_iff (h : KeepsBest key step) : l.foldl step none = none ↔ l = [] := by
  cases l with
  | nil => exact ⟨fun _ => rfl, fun _ => rfl⟩
  | cons x l =>
    obtain ⟨m, hm, -⟩ := h.foldl_some l x
    rw [foldl_cons, h.first, hm]
    simp

theorem eq_some (h : KeepsBest key step) {m : α} (hm : l.foldl step none = some m) :
    m ∈ l ∧ ∀ x ∈ l, key x ≤ key m := by
  cases l with
  | nil => cases hm
  | cons x l =>
    obtain ⟨m', hm', hmem, hx, hall⟩ := h.foldl_some l x
    rw [foldl_cons, h.first, hm', some.injEq] at hm
    subst hm
    exact ⟨mem_cons.2 hmem, forall_mem_cons.2 ⟨hx, hall⟩⟩

end KeepsBest

/-- Keep the best so far only if it is strictly better. -/
def orLater (key : α → V) (best : Option α) (x : α) : Option α :=
  match best with
  | none => some x
  | some b => if key x < key b then some b else some x

/-- The library's maximum by a key, which among equals keeps the last. -/
def lastMax (key : α → V) (l : List α) : Option α := l.foldl (orLater key) none

variable {key : α → V}

theorem keepsBest_orLater (key : α → V) : KeepsBest key (orLater key) := by
  refine ⟨fun x => rfl, fun b x => ?_⟩
  rcases lt_or_ge (key x) (key b) with hlt | hle
  · exact .inl ⟨if_pos hlt, hlt.le⟩
  · exact .inr ⟨if_neg hle.not_gt, hle⟩

theorem lastMax_eq_none_iff : lastMax key l = none ↔ l = [] := (keepsBest_orLater key).eq_none_iff

theorem lastMax_eq_some {m : α} (h : lastMax key l = some m) : m ∈ l ∧ ∀ x ∈ l, key x ≤ key m :=
  (keepsBest_orLater key).eq_some h

/-- With keys that tell the elements apart it is *the* greatest. -/
theorem lastMax_eq_some_iff (hinj : ∀ x ∈ l, ∀ y ∈ l, key x = key y → x = y) {m : α} :
    lastMax key l = some m ↔ m ∈ l ∧ ∀ x ∈ l, x ≠ m → key x < key m := by
  constructor
  · intro h
    obtain ⟨hm, hall⟩ := lastMax_eq_some h
    exact ⟨hm, fun x hx hne => lt_of_le_of_ne (hall x hx) fun heq => hne (hinj x hx m hm heq)⟩
  · rintro ⟨hm, hall⟩
    cases h : lastMax key l with
    | none =>
      rw [lastMax_eq_none_iff.1 h] at hm
      cases hm
    | some m' =>
      obtain ⟨hm', hall'⟩ := lastMax_eq_some h
      by_cases heq : m' = m
      · rw [heq]
      · exact absurd (hall m' hm' heq) (not_lt.2 (hall' m hm))

/-- Then the order of the list does not matter. -/
theorem lastMax_perm {l' : List α} (hinj : ∀ x ∈ l, ∀ y ∈ l, key x = key y → x = y)
    (h : l.Perm l') : lastMax key l' = lastMax key l := by
  have hinj' : ∀ x ∈ l', ∀ y ∈ l', key x = key y → x = y :=
    fun x hx y hy => hinj x (h.mem_iff.2 hx) y (h.mem_iff.2 hy)
  refine ext fun m => ?_
  rw [lastMax_eq_some_iff hinj, lastMax_eq_some_iff hinj', h.mem_iff]
  exact and_congr_right fun _ => forall_congr' fun x => by rw [h.mem_iff]

end Best

theorem byteLen_append (s t : Str) : byteLen (s ++ t) = byteLen s + byteLen t := by
  simp [byteLen]

theorem byteLen_eq_zero_iff {s : Str} : byteLen s = 0 ↔ s = [] := by
  cases s with
  | nil => simp [byteLen]
  | cons c s =>
    have hpos := c.utf8Size_pos
    simp only [byteLen, map_cons, sum_cons, reduceCtorEq, iff_false]
    omega

/-- Prefixes of one text are told apart by their length in bytes. -/
theorem eq_of_isPrefix_of_byteLen {p q s : Str} (hp : p <+: s) (hq : q <+: s)
    (h : byteLen p = byteLen q) : p = q := by
  have hsame : ∀ {p q : Str}, p <+: q → byteLen p = byteLen q → p = q := by
    rintro p q ⟨t, rfl⟩ h
    rw [byteLen_append] at h
    have ht : t = [] := byteLen_eq_zero_iff.1 (by omega)
    rw [ht, append_nil]
  rcases prefix_or_prefix_of_prefix hp hq with hpq | hqp
  · exact hsame hpq h
  · exact (hsame hqp h.symm).symm

section

variable {α V : Type} [LinearOrder V]

/-- Keep the best so far, unless `x` is strictly better. -/
def better (key : α → V) (best : Option α) (x : α) : Option α :=
  if best.all (fun b => key b < key x) then some x else best

/-- The element of a list that the loop ends with. -/
def runningMax (key : α → V) (l : List α) : Option α := l.foldl (better key) none

variable {key : α → V} {l : List α}

theorem keepsBest_better (key : α → V) : KeepsBest key (better key) := by
  refine ⟨fun x => rfl, fun b x => ?_⟩
  simp only [better, all_some, decide_eq_true_iff]
  rcases lt_or_ge (key b) (key x) with hlt | hle
  · exact .inr ⟨if_pos hlt, hlt.le⟩
  · exact .inl ⟨if_neg hle.not_gt, hle⟩

theorem runningMax_eq_some {m : α} (h : runningMax key l = some m) :
    m ∈ l ∧ ∀ x ∈ l, key x ≤ key m := (keepsBest_better key).eq_some h

theorem exists_runningMax (key : α → V) {x : α} (h : x ∈ l) :
    ∃ m, runningMax key l = some m ∧ key x ≤ key m := by
  cases hm : runningMax key l with
  | none =>
    rw [(keepsBest_better key).eq_none_iff.1 hm] at h
    cases h
  | some m => exact ⟨m, rfl, (runningMax_eq_some hm).2 x h⟩

theorem runningMax_id_eq_some_iff {l : List V} {m : V} :
    runningMax id l = some m ↔ IsGreatest {v | v ∈ l} m := by
  constructor
  · intro h
    exact runningMax_eq_some h
  · intro h
    obtain ⟨n, hn, -⟩ := exists_runningMax id h.1
    rw [hn, h.unique (runningMax_eq_some hn)]

theorem isGreatest_iff_of_dominated {S T : Set V} (hsub : T ⊆ S) (hdom : ∀ s ∈ S, ∃ t ∈ T, s ≤ t)
    {m : V} : IsGreatest S m ↔ IsGreatest T m := by
  constructor
  · rintro ⟨hm, hmax⟩
    obtain ⟨t, ht, hle⟩ := hdom m hm
    rw [le_antisymm hle (hmax (hsub ht))]
    exact ⟨ht, fun u hu => (hmax (hsub hu)).trans hle⟩
  · rintro ⟨hm, hmax⟩
    refine ⟨hsub hm, fun s hs => ?_⟩
    obtain ⟨t, ht, hle⟩ := hdom s hs
    exact hle.trans (hmax ht)

end

end Base
