import Orcker.Base.Map

/-!
# First-come and prioritised claims

Two ways to settle contention for a key among a sequence of contenders: `keepFirst` for first come,
`place` for explicit bids before implicit ones.
-/

namespace Base

open List

section KeepFirst

variable {α κ : Type} [DecidableEq κ] (key : α → κ)

/-- Drop the elements whose key is in `seen` or occurred earlier. -/
def keepFirst : List κ → List α → List α
  | _, [] => []
  | seen, a :: as =>
    if key a ∈ seen then keepFirst seen as else a :: keepFirst (key a :: seen) as

theorem find?_keepFirst (k : κ) (seen : List κ) (as : List α) :
    (keepFirst key seen as).find? (fun a => key a = k) =
      if k ∈ seen then none else as.find? fun a => key a = k := by
  induction as generalizing seen with
  | nil => simp [keepFirst]
  | cons a as ih =>
    unfold keepFirst
    by_cases hk : key a = k
    · subst hk
      by_cases hseen : key a ∈ seen
      · simp [hseen, ih]
      · simp [hseen]
    · by_cases hseen : key a ∈ seen
      · simp [hseen, ih, hk]
      · simp [hseen, ih, hk, Ne.symm hk]

theorem find?_keepFirst_nil (k : κ) (as : List α) :
    (keepFirst key [] as).find? (fun a => key a = k) = as.find? fun a => key a = k := by
  rw [find?_keepFirst, if_neg not_mem_nil]

theorem mem_map_keepFirst_nil {k : κ} {as : List α} :
    k ∈ (keepFirst key [] as).map key ↔ k ∈ as.map key := by
  have hsome : ∀ l : List α, k ∈ l.map key ↔ (l.find? fun a => key a = k).isSome := fun l => by
    rw [find?_isSome]
    simp
  rw [hsome, hsome, find?_keepFirst_nil]

variable {seen : List κ}

theorem notMem_map_keepFirst {k : κ} (as : List α) (h : k ∈ seen) :
    k ∉ (keepFirst key seen as).map key := by
  induction as generalizing seen with
  | nil => simp [keepFirst]
  | cons a as ih =>
    unfold keepFirst
    split
    · exact ih h
    · rename_i ha
      rw [map_cons, mem_cons, not_or]
      exact ⟨fun hk => ha (hk ▸ h), ih (mem_cons_of_mem _ h)⟩

theorem nodup_map_keepFirst (seen : List κ) (as : List α) :
    ((keepFirst key seen as).map key).Nodup := by
  induction as generalizing seen with
  | nil => simp [keepFirst]
  | cons a as ih =>
    unfold keepFirst
    split
    · exact ih seen
    · rw [map_cons, nodup_cons]
      exact ⟨notMem_map_keepFirst key as (mem_cons_self ..), ih _⟩

theorem keepFirst_sublist (seen : List κ) (as : List α) : (keepFirst key seen as).Sublist as := by
  induction as generalizing seen with
  | nil => exact List.Sublist.refl _
  | cons a as ih =>
    unfold keepFirst
    split
    · exact (ih seen).cons a
    · exact (ih _).cons_cons a

theorem keepFirst_congr {seen' : List κ} (as : List α)
    (h : ∀ a ∈ as, key a ∈ seen ↔ key a ∈ seen') :
    keepFirst key seen as = keepFirst key seen' as := by
  induction as generalizing seen seen' with
  | nil => rfl
  | cons a as ih =>
    have ha := h a mem_cons_self
    have has : ∀ b ∈ as, key b ∈ seen ↔ key b ∈ seen' := fun b hb => h b (mem_cons_of_mem a hb)
    unfold keepFirst
    by_cases hseen : key a ∈ seen
    · rw [if_pos hseen, if_pos (ha.1 hseen), ih has]
    · rw [if_neg hseen, if_neg (mt ha.2 hseen)]
      refine congrArg (a :: ·) (ih fun b hb => ?_)
      rw [mem_cons, mem_cons, has b hb]

theorem keepFirst_append (seen : List κ) (as bs : List α) :
    keepFirst key seen (as ++ bs) =
      keepFirst key seen as ++ keepFirst key (as.map key ++ seen) bs := by
  induction as generalizing seen with
  | nil => rfl
  | cons a as ih =>
    rw [cons_append, keepFirst, keepFirst]
    split
    · rename_i ha
      rw [ih]
      refine congrArg (_ ++ ·) (keepFirst_congr key bs fun b _ => ?_)
      rw [map_cons, cons_append, mem_cons]
      exact ⟨.inr, fun h => h.elim (fun heq => heq ▸ mem_append_right _ ha) id⟩
    · rw [ih, cons_append]
      refine congrArg (fun l => a :: (_ ++ l)) (keepFirst_congr key bs fun b _ => ?_)
      rw [map_cons, cons_append, mem_cons, mem_append, mem_append,
        mem_cons]
      tauto

/-- A new key somewhere in the list is kept, and displaces nobody. -/
theorem keepFirst_insert {as bs : List α} {a : α} (has : ∀ b ∈ as, key b ≠ key a)
    (hbs : ∀ b ∈ bs, key b ≠ key a) :
    ∃ before after, keepFirst key [] (as ++ bs) = before ++ after ∧
      keepFirst key [] (as ++ a :: bs) = before ++ a :: after := by
  refine ⟨_, _, keepFirst_append key [] as bs, ?_⟩
  have hnew : key a ∉ as.map key ++ [] := by
    rw [append_nil]
    intro h
    obtain ⟨b, hb, heq⟩ := mem_map.1 h
    exact has b hb heq
  rw [keepFirst_append, keepFirst, if_neg hnew]
  refine congrArg (fun l => _ ++ a :: l) (keepFirst_congr key bs fun b hb => ?_)
  rw [mem_cons, or_iff_right (hbs b hb)]

end KeepFirst

variable {α : Type} {p : α → Bool} {a : α}

/-- A search for less that its old result still meets finds it again. -/
theorem find?_eq_some_of_imp {q : α → Bool} {l : List α} (h : l.find? p = some a)
    (ha : q a = true) (hsub : ∀ b ∈ l, q b = true → p b = true) : l.find? q = some a := by
  obtain ⟨-, before, after, rfl, hbefore⟩ := find?_eq_some_iff_append.1 h
  refine find?_eq_some_iff_append.2 ⟨ha, before, after, rfl, fun b hb => ?_⟩
  rw [Bool.not_eq_true', Bool.eq_false_iff]
  intro hq
  have hp := hbefore b hb
  rw [hsub b (mem_append_left _ hb) hq] at hp
  cases hp

theorem find?_eq_some_of_unique {l : List α} (ha : a ∈ l) (hp : p a = true)
    (huniq : ∀ b ∈ l, p b = true → b = a) : l.find? p = some a := by
  obtain ⟨b, hb⟩ := Option.isSome_iff_exists.1 (find?_isSome.2 ⟨a, ha, hp⟩)
  rw [hb, huniq b (mem_of_find?_eq_some hb) (find?_some hb)]

theorem find?_eq_some_iff_of_nodup {κ : Type} [DecidableEq κ] {key : α → κ} {as : List α}
    (h : (as.map key).Nodup) {k : κ} :
    as.find? (fun a => key a = k) = some a ↔ a ∈ as ∧ key a = k := by
  constructor
  · intro hf
    exact ⟨mem_of_find?_eq_some hf, by simpa using find?_some hf⟩
  · rintro ⟨hmem, rfl⟩
    induction as with
    | nil => simp at hmem
    | cons b as ih =>
      rw [map_cons, nodup_cons] at h
      rcases mem_cons.1 hmem with rfl | hmem
      · simp
      · have hne : key b ≠ key a := fun heq => h.1 (heq ▸ mem_map_of_mem hmem)
        rw [find?_cons_of_neg (by simpa using hne)]
        exact ih h.2 hmem

/-- A standing claim: who made it, and whether explicitly. -/
structure Claim where
  idx : Nat
  explicit : Bool
  deriving DecidableEq

namespace Claim

/-- Explicit claims come first, then the earlier contender. -/
def Beats (a b : Claim) : Prop :=
  (a.explicit = true ∧ b.explicit = false) ∨ (a.explicit = b.explicit ∧ a.idx ≤ b.idx)

theorem Beats.refl (a : Claim) : a.Beats a := .inr ⟨rfl, le_rfl⟩

theorem Beats.antisymm {a b : Claim} (h : a.Beats b) (h' : b.Beats a) : a = b := by
  obtain ⟨i, e⟩ := a
  obtain ⟨j, f⟩ := b
  simp only [Beats] at h h'
  have hef : e = f := by
    rcases h with ⟨rfl, rfl⟩ | ⟨h, -⟩
    · simp at h'
    · exact h
  subst hef
  have hij : i = j := by
    rcases h with ⟨he, he'⟩ | ⟨-, h⟩
    · rw [he] at he'
      cases he'
    · rcases h' with ⟨he, he'⟩ | ⟨-, h'⟩
      · rw [he] at he'
        cases he'
      · omega
  rw [hij]

/-- A standing claim yields only to an explicit one, and only if it is not
explicit itself. -/
def yieldTo (standing : Option Claim) (bid : Claim) : Option Claim :=
  match standing with
  | some existing => if existing.explicit || !bid.explicit then some existing else some bid
  | none => some bid

theorem foldl_yieldTo {bids : List Claim} (hsorted : bids.Pairwise fun a b => a.idx ≤ b.idx) :
    bids.foldl yieldTo none = none ∧ bids = [] ∨
      ∃ w ∈ bids, bids.foldl yieldTo none = some w ∧ ∀ b ∈ bids, w.Beats b := by
  -- induction from the end of the list: the newest bid has the largest index
  induction bids using reverseRecOn with
  | nil => exact .inl ⟨rfl, rfl⟩
  | append_singleton bids b ih =>
    rw [pairwise_append] at hsorted
    have hle : ∀ a ∈ bids, a.idx ≤ b.idx := fun a ha =>
      hsorted.2.2 a ha b (mem_singleton_self b)
    refine .inr ?_
    rw [foldl_append, foldl_cons, foldl_nil]
    rcases ih hsorted.1 with ⟨hnone, rfl⟩ | ⟨w, hw, hsome, hbest⟩
    · exact ⟨b, by simp, by rw [hnone]; rfl, by simp [Beats.refl]⟩
    · rw [hsome]
      unfold yieldTo
      simp only
      split
      · rename_i hkeep
        refine ⟨w, by simp [hw], rfl, ?_⟩
        intro a ha
        rcases mem_append.1 ha with ha | ha
        · exact hbest a ha
        · rw [mem_singleton.1 ha]
          have hidx := hle w hw
          cases hwe : w.explicit <;> cases hbe : b.explicit <;> simp_all [Beats]
      · rename_i hyield
        refine ⟨b, by simp, rfl, ?_⟩
        intro a ha
        rcases mem_append.1 ha with ha | ha
        · have hwa := hbest a ha
          cases hae : a.explicit <;> simp_all [Beats]
        · rw [mem_singleton.1 ha]
          exact Beats.refl b

end Claim

section Place

variable {κ : Type} [Ord κ] [Std.TransOrd κ]

/-- Enter a bid for `k` into the table of standing claims. -/
def place (claims : OrdMap κ Claim) (bid : κ × Claim) : OrdMap κ Claim :=
  match claims[bid.1]? with
  | some existing =>
    if existing.explicit || !bid.2.explicit then claims else claims.insert bid.1 bid.2
  | none => claims.insert bid.1 bid.2

variable [Std.LawfulEqOrd κ] [DecidableEq κ]

theorem getElem?_place (claims : OrdMap κ Claim) (bid : κ × Claim) (k : κ) :
    (place claims bid)[k]? =
      if bid.1 = k then Claim.yieldTo claims[k]? bid.2 else claims[k]? := by
  unfold place Claim.yieldTo
  by_cases hk : bid.1 = k
  · subst hk
    rw [if_pos rfl]
    cases hc : claims[bid.1]? with
    | none => simp
    | some existing =>
      simp only
      split
      · exact hc
      · simp
  · rw [if_neg hk]
    cases hc : claims[bid.1]? with
    | none => simp [OrdMap.getElem?_insert, Ne.symm hk]
    | some existing =>
      simp only
      split
      · rfl
      · simp [OrdMap.getElem?_insert, Ne.symm hk]

theorem getElem?_foldl_place (claims : OrdMap κ Claim) (bids : List (κ × Claim)) (k : κ) :
    (bids.foldl place claims)[k]? =
      ((bids.filter fun b => b.1 = k).map Prod.snd).foldl Claim.yieldTo claims[k]? := by
  induction bids generalizing claims with
  | nil => rfl
  | cons b bids ih =>
    rw [foldl_cons, ih, getElem?_place]
    by_cases hk : b.1 = k <;> simp [hk]

variable {bids : List (κ × Claim)}

theorem foldl_place_spec (hsorted : bids.Pairwise fun a b => a.2.idx ≤ b.2.idx) (k : κ) :
    ((bids.foldl place ∅)[k]? = none ∧ ∀ b, (k, b) ∉ bids) ∨
      ∃ w, (bids.foldl place ∅)[k]? = some w ∧ (k, w) ∈ bids ∧ ∀ b, (k, b) ∈ bids → w.Beats b := by
  have hmem : ∀ b, b ∈ (bids.filter fun b => b.1 = k).map Prod.snd ↔ (k, b) ∈ bids := by
    intro b
    simp
  have hsorted' : ((bids.filter fun b => b.1 = k).map Prod.snd).Pairwise
      fun a b => a.idx ≤ b.idx := by
    rw [pairwise_map]
    exact hsorted.sublist filter_sublist
  rw [getElem?_foldl_place, Std.ExtTreeMap.getElem?_empty]
  rcases Claim.foldl_yieldTo hsorted' with ⟨hnone, hnil⟩ | ⟨w, hw, hsome, hbest⟩
  · exact .inl ⟨hnone, fun b hb => not_mem_nil (hnil ▸ (hmem b).2 hb)⟩
  · exact .inr ⟨w, hsome, (hmem w).1 hw, fun b hb => hbest b ((hmem b).2 hb)⟩

/-- Bids placed in index order leave each key with the explicit bid of least index, or with the
least bid if none is explicit. -/
theorem winner_iff (hsorted : bids.Pairwise fun a b => a.2.idx ≤ b.2.idx) {k : κ} {w : Claim} :
    (bids.foldl place ∅)[k]? = some w ↔
      (k, w) ∈ bids ∧ ∀ b, (k, b) ∈ bids → w.Beats b := by
  rcases foldl_place_spec hsorted k with ⟨hnone, hno⟩ | ⟨w', hsome, hw', hbest⟩
  · rw [hnone]
    exact iff_of_false nofun fun h => hno w h.1
  · rw [hsome, Option.some.injEq]
    constructor
    · rintro rfl
      exact ⟨hw', hbest⟩
    · rintro ⟨hw, hbest'⟩
      exact (hbest w hw).antisymm (hbest' w' hw')

theorem winner_eq_none_iff (hsorted : bids.Pairwise fun a b => a.2.idx ≤ b.2.idx) {k : κ} :
    (bids.foldl place ∅)[k]? = none ↔ ∀ b, (k, b) ∉ bids := by
  rcases foldl_place_spec hsorted k with ⟨hnone, hno⟩ | ⟨w, hsome, hw, -⟩
  · exact iff_of_true hnone hno
  · rw [hsome]
    exact iff_of_false nofun fun h => h w hw

end Place

section Group

variable {κ β : Type} [Ord κ] [Std.TransOrd κ]

/-- Append an element to the list under its key. -/
def push (groups : OrdMap κ (List β)) (p : κ × β) : OrdMap κ (List β) :=
  groups.insert p.1 (groups[p.1]?.getD [] ++ [p.2])

variable [Std.LawfulEqOrd κ] [DecidableEq κ]

theorem getElem?_foldl_push (groups : OrdMap κ (List β)) (ps : List (κ × β)) (k : κ) :
    (ps.foldl push groups)[k]? =
      if (ps.filter fun p => p.1 = k) = [] then groups[k]?
      else some (groups[k]?.getD [] ++ (ps.filter fun p => p.1 = k).map Prod.snd) := by
  induction ps generalizing groups with
  | nil => simp
  | cons p ps ih =>
    rw [foldl_cons, ih, push, OrdMap.getElem?_insert]
    by_cases hk : p.1 = k
    · subst hk
      by_cases hnil : (ps.filter fun q => q.1 = p.1) = [] <;> simp [hnil]
    · rw [filter_cons_of_neg (by simpa using hk), if_neg (Ne.symm hk)]

end Group

theorem forall₂_filter_filterMap {β : Type} (f : α → Option β) (l : List α) :
    List.Forall₂ (fun a b => f a = some b) (l.filter fun a => (f a).isSome) (l.filterMap f) := by
  induction l with
  | nil => exact .nil
  | cons a l ih =>
    cases h : f a with
    | none | some => simpa [h] using ih

end Base
