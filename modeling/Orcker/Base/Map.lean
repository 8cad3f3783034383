import Orcker.Base.Text
import Mathlib.Data.List.Basic

/-!
# Ordered maps

Finite maps iterated in key order, extensionally equal when they hold the same
entries. The lookup lemmas are stated with equality of keys, which is what
proofs about a map keyed by a lawfully ordered type use.
-/

namespace Base

open List

/-- A map iterated in the order of its keys. -/
abbrev OrdMap (κ β : Type) [Ord κ] := Std.ExtTreeMap κ β compare

abbrev StrMap (β : Type) := OrdMap Str β

namespace OrdMap

variable {κ β : Type} [Ord κ] [Std.TransOrd κ] [Std.LawfulEqOrd κ]

theorem getElem?_insert [DecidableEq κ] (m : OrdMap κ β) (a k : κ) (v : β) :
    (m.insert a v)[k]? = if k = a then some v else m[k]? := by
  rw [Std.ExtTreeMap.getElem?_insert]
  by_cases h : k = a
  · simp [h]
  · simp [h, Ne.symm h]

theorem getElem?_erase [DecidableEq κ] (m : OrdMap κ β) (a k : κ) :
    (m.erase a)[k]? = if k = a then none else m[k]? := by
  rw [Std.ExtTreeMap.getElem?_erase]
  by_cases h : k = a
  · simp [h]
  · simp [h, Ne.symm h]

omit [Std.LawfulEqOrd κ] in
theorem mem_iff_exists (m : OrdMap κ β) (k : κ) : k ∈ m ↔ ∃ v, m[k]? = some v := by
  rw [Std.ExtTreeMap.mem_iff_isSome_getElem?, Option.isSome_iff_exists]

theorem mem_insert (m : OrdMap κ β) (a k : κ) (v : β) : k ∈ m.insert a v ↔ k = a ∨ k ∈ m := by
  rw [Std.ExtTreeMap.mem_insert, Std.compare_eq_iff_eq, eq_comm]

theorem mem_erase (m : OrdMap κ β) (a k : κ) : k ∈ m.erase a ↔ k ≠ a ∧ k ∈ m := by
  rw [Std.ExtTreeMap.mem_erase, ne_eq, Std.compare_eq_iff_eq, ne_eq, eq_comm]

variable {m : OrdMap κ β}

theorem erase_of_getElem?_eq_none {a : κ} (h : m[a]? = none) : m.erase a = m := by
  classical
  refine Std.ExtTreeMap.ext_getElem? fun k => ?_
  rw [getElem?_erase]
  split
  · rename_i hk
    rw [hk, h]
  · rfl

/-- Maps are equal when they hold the same entries. -/
theorem ext_some {m' : OrdMap κ β} (h : ∀ (k : κ) (v : β), m[k]? = some v ↔ m'[k]? = some v) :
    m = m' := by
  refine Std.ExtTreeMap.ext_getElem? fun k => ?_
  exact Option.ext fun v => h k v

/-- Insert a sequence of entries; a later one replaces an earlier one. -/
def collect (l : List (κ × β)) : OrdMap κ β := l.foldl (fun m p => m.insert p.1 p.2) ∅

variable {k : κ} {v : β}

theorem mem_toList : (k, v) ∈ m.toList ↔ m[k]? = some v :=
  Std.ExtTreeMap.mem_toList_iff_getElem?_eq_some

def values (m : OrdMap κ β) : List β := m.toList.map Prod.snd

theorem mem_values : v ∈ values m ↔ ∃ k : κ, m[k]? = some v := by
  rw [values, mem_map]
  constructor
  · intro ⟨p, hp, heq⟩
    exact ⟨p.1, heq ▸ mem_toList.1 hp⟩
  · intro ⟨k, hk⟩
    exact ⟨(k, v), mem_toList.2 hk, rfl⟩

theorem nodup_keys_toList (m : OrdMap κ β) : (m.toList.map Prod.fst).Nodup := by
  rw [List.Nodup, pairwise_map]
  refine (Std.ExtTreeMap.distinct_keys_toList (t := m)).imp fun h heq => h ?_
  rw [heq, Std.compare_eq_iff_eq]

variable {l : List (κ × β)}

theorem getElem?_foldl_insert (h : (l.map Prod.fst).Nodup) (m : OrdMap κ β) :
    (l.foldl (fun m p => m.insert p.1 p.2) m)[k]? = some v ↔
      (k, v) ∈ l ∨ (k ∉ l.map Prod.fst ∧ m[k]? = some v) := by
  classical
  induction l generalizing m with
  | nil => simp
  | cons p l ih =>
    obtain ⟨k', v'⟩ := p
    rw [map_cons, nodup_cons] at h
    rw [foldl_cons, ih h.2, getElem?_insert, mem_cons, Prod.mk.injEq, map_cons,
      mem_cons, not_or]
    -- The head's key does not come back in the tail, so it is there to stay.
    by_cases hk : k = k'
    · subst hk
      simp [h.1, or_comm, eq_comm]
    · simp [hk]

theorem mem_of_getElem?_foldl_insert (h : (l.foldl (fun m p => m.insert p.1 p.2) m)[k]? = some v) :
    (k, v) ∈ l ∨ m[k]? = some v := by
  classical
  induction l generalizing m with
  | nil => exact .inr h
  | cons p l ih =>
    rcases ih h with hl | hp
    · exact .inl (mem_cons_of_mem _ hl)
    · rw [getElem?_insert] at hp
      split at hp
      · rename_i hk
        rw [hk, ← Option.some.inj hp]
        exact .inl mem_cons_self
      · exact .inr hp

theorem mem_of_getElem?_collect (h : (collect l)[k]? = some v) : (k, v) ∈ l := by
  rcases mem_of_getElem?_foldl_insert h with hl | hempty
  · exact hl
  · simp at hempty

theorem getElem?_collect (h : (l.map Prod.fst).Nodup) : (collect l)[k]? = some v ↔ (k, v) ∈ l := by
  rw [collect, getElem?_foldl_insert h]
  simp

/-- A map is what its entries collect to. -/
@[simp] theorem collect_toList (m : OrdMap κ β) : collect m.toList = m :=
  ext_some fun k v => by rw [getElem?_collect (nodup_keys_toList m), mem_toList]

theorem getElem?_collect_map {κ' γ : Type} [Ord κ'] [Std.TransOrd κ'] [Std.LawfulEqOrd κ']
    {f : κ × β → κ' × γ} {k' : κ'} {c : γ}
    (hinj : ∀ p ∈ m.toList, ∀ q ∈ m.toList, (f p).1 = (f q).1 → p.1 = q.1) :
    (collect (m.toList.map f))[k']? = some c ↔
      ∃ (k : κ) (v : β), m[k]? = some v ∧ f (k, v) = (k', c) := by
  have hnodup : ((m.toList.map f).map Prod.fst).Nodup := by
    rw [map_map]
    refine Nodup.map_on (fun p hp q hq h => ?_) (nodup_keys_toList m).of_map
    have hkey := hinj p hp q hq h
    exact Prod.ext hkey (Option.some.inj ((mem_toList.1 hp).symm.trans (hkey ▸ mem_toList.1 hq)))
  simp only [getElem?_collect hnodup, mem_map, Prod.exists, mem_toList]

theorem collect_map_toList {γ : Type} (m : OrdMap κ β) (f : κ → β → γ) :
    collect (m.toList.map fun p => (p.1, f p.1 p.2)) = m.map f := by
  refine ext_some fun k v => ?_
  rw [getElem?_collect_map (by simp)]
  simp

theorem getElem?_of_filter {f : κ → β → Bool} (h : (m.filter f)[k]? = some v) : m[k]? = some v := by
  rw [Std.ExtTreeMap.getElem?_filter', Option.filter_eq_some_iff] at h
  exact h.1

theorem filter_filter_self (m : OrdMap κ β) (f : κ → β → Bool) :
    (m.filter f).filter f = m.filter f := by
  refine ext_some fun k v => ?_
  rw [Std.ExtTreeMap.getElem?_filter', Std.ExtTreeMap.getElem?_filter']
  cases m[k]? with
  | none => rfl
  | some w => cases hw : f k w <;> simp [Option.filter, hw]

end OrdMap

abbrev StrSet := Std.ExtTreeSet Str compare

namespace StrSet

def collect (l : List Str) : StrSet := l.foldl (fun s x => s.insert x) ∅

theorem mem_foldl_insert {l : List Str} {s : StrSet} {x : Str} :
    x ∈ l.foldl (fun s x => s.insert x) s ↔ x ∈ l ∨ x ∈ s := by
  induction l generalizing s with
  | nil => simp
  | cons y l ih =>
    rw [foldl_cons, ih, Std.ExtTreeSet.mem_insert, Std.compare_eq_iff_eq, mem_cons]
    tauto

theorem mem_collect {l : List Str} {x : Str} : x ∈ collect l ↔ x ∈ l := by
  rw [collect, mem_foldl_insert]
  simp

@[simp] theorem collect_toList (s : StrSet) : collect s.toList = s :=
  Std.ExtTreeSet.ext_mem fun x => by rw [mem_collect, Std.ExtTreeSet.mem_toList]

end StrSet

section UpdateFirst

variable {α : Type} (p : α → Bool) (f : α → α)

/-- Change the first element that `p` accepts; `none` when there is none. -/
def updateFirst : List α → Option (List α)
  | [] => none
  | a :: l => if p a then some (f a :: l) else (updateFirst l).map (a :: ·)

variable {p f} {l l' : List α}

theorem exists_of_updateFirst (h : updateFirst p f l = some l') : ∃ before a after,
    l = before ++ a :: after ∧ p a = true ∧ l' = before ++ f a :: after := by
  induction l generalizing l' with
  | nil => cases h
  | cons a l ih =>
    rw [updateFirst] at h
    split_ifs at h with hp
    · exact ⟨[], a, l, rfl, hp, (Option.some.inj h).symm⟩
    · obtain ⟨t, ht, rfl⟩ := Option.map_eq_some_iff.1 h
      obtain ⟨before, b, after, rfl, hb, rfl⟩ := ih ht
      exact ⟨a :: before, b, after, rfl, hb, rfl⟩

theorem updateFirst_eq_none_iff : updateFirst p f l = none ↔ ∀ a ∈ l, p a = false := by
  induction l with
  | nil => simp [updateFirst]
  | cons a l ih =>
    rw [updateFirst, forall_mem_cons, ← ih]
    by_cases hp : p a = true
    · simp [hp]
    · simp [hp]

theorem mem_of_updateFirst (h : updateFirst p f l = some l') {b : α} (hb : b ∈ l') :
    b ∈ l ∨ ∃ a ∈ l, p a = true ∧ b = f a := by
  obtain ⟨before, a, after, rfl, hp, rfl⟩ := exists_of_updateFirst h
  simp only [mem_append, mem_cons] at hb ⊢
  rcases hb with hb | rfl | hb
  · exact .inl (.inl hb)
  · exact .inr ⟨a, .inr (.inl rfl), hp, rfl⟩
  · exact .inl (.inr (.inr hb))

theorem map_updateFirst {β : Type} {g : α → β} (hg : ∀ a, g (f a) = g a)
    (h : updateFirst p f l = some l') : l'.map g = l.map g := by
  obtain ⟨before, a, after, rfl, -, rfl⟩ := exists_of_updateFirst h
  simp [hg]

end UpdateFirst

section Maps

variable {κ β : Type} [Ord κ] [Std.TransOrd κ]

/-- Store an entry, or clear it. -/
def OrdMap.put (m : OrdMap κ β) (k : κ) : Option β → OrdMap κ β
  | some v => m.insert k v
  | none => m.erase k

/-- Take the entry of `k` out of `src` and, if there is one, store it in `dst`. -/
def moveEntry (src dst : OrdMap κ β) (k k' : κ) : OrdMap κ β × OrdMap κ β :=
  match src[k]? with
  | none => (src, dst)
  | some v => (src.erase k, dst.insert k' v)

variable [Std.LawfulEqOrd κ] [DecidableEq κ]

@[simp] theorem OrdMap.getElem?_put (m : OrdMap κ β) (a k : κ) (o : Option β) :
    (m.put a o)[k]? = if k = a then o else m[k]? := by
  cases o with
  | some v => exact getElem?_insert m a k v
  | none => exact getElem?_erase m a k

theorem getElem?_moveEntry_fst (src dst : OrdMap κ β) (a a' k : κ) :
    (moveEntry src dst a a').1[k]? = if k = a then none else src[k]? := by
  rw [moveEntry]
  cases h : src[a]? with
  | none =>
    by_cases hk : k = a
    · simp [hk, h]
    · simp [hk]
  | some v => exact OrdMap.getElem?_erase src a k

theorem getElem?_moveEntry_snd (src dst : OrdMap κ β) (a a' k : κ) :
    (moveEntry src dst a a').2[k]? = if k = a' then src[a]?.or dst[k]? else dst[k]? := by
  rw [moveEntry]
  cases h : src[a]? with
  | none => simp
  | some v =>
    show (dst.insert a' v)[k]? = _
    rw [OrdMap.getElem?_insert]
    simp

end Maps

end Base

namespace Base.Multimap

variable {α β : Type} [DecidableEq α]

/-- Every value of a key, in order. -/
def getAll (m : List (α × β)) (k : α) : List β := (m.filter (·.1 = k)).map Prod.snd

/-- The key with one value only. -/
def replace (m : List (α × β)) (k : α) (v : β) : List (α × β) := m.filter (·.1 ≠ k) ++ [(k, v)]

variable {m : List (α × β)} {k : α}

theorem mem_getAll {v : β} : v ∈ getAll m k ↔ (k, v) ∈ m := by
  simp [getAll]

theorem getAll_eq_nil_iff : getAll m k = [] ↔ ∀ v, (k, v) ∉ m := by
  simp only [List.eq_nil_iff_forall_not_mem, mem_getAll]

theorem getAll_append (m m' : List (α × β)) (k : α) :
    getAll (m ++ m') k = getAll m k ++ getAll m' k := by
  simp [getAll]

theorem getAll_filter_key (m : List (α × β)) (p : α → Bool) (k : α) :
    getAll (m.filter fun e => p e.1) k = if p k then getAll m k else [] := by
  induction m with
  | nil => simp [getAll]
  | cons e m ih =>
    simp only [getAll] at ih ⊢
    by_cases hp : p e.1 = true <;> by_cases hk : e.1 = k <;> grind

@[simp] theorem getAll_replace_self (m : List (α × β)) (k : α) (v : β) :
    getAll (replace m k v) k = [v] := by
  simp [getAll, replace, List.filter_filter]

@[simp] theorem getAll_replace_of_ne (m : List (α × β)) {k' : α} (v : β) (h : k' ≠ k) :
    getAll (replace m k v) k' = getAll m k' := by
  have hkeep := getAll_filter_key m (fun x => decide (x ≠ k)) k'
  rw [if_pos (by simpa using h)] at hkeep
  rw [← hkeep]
  simp [getAll, replace, Ne.symm h]

end Base.Multimap
