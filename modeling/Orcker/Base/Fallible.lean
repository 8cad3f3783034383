import Mathlib

/-!
# Computations that may fail

What it takes for a sequence of `Except` steps to succeed.
-/

namespace Base

open List

variable {ε α β γ : Type}

@[simp] theorem ok_bind (a : α) (f : α → Except ε β) : (Except.ok a >>= f) = f a := rfl

@[simp] theorem error_bind (e : ε) (f : α → Except ε β) : (Except.error e >>= f) = .error e := rfl

@[simp] theorem pure_eq_ok (a : α) : (pure a : Except ε α) = .ok a := rfl

variable {b : β} {x : Except ε α} {f : α → Except ε β}

/-- A chain succeeds when its head does and the rest does on the head's value. -/
theorem bind_eq_ok_iff : (x >>= f) = .ok b ↔ ∃ a, x = .ok a ∧ f a = .ok b := by
  cases x with
  | error | ok => simp

theorem check_bind_eq_ok_iff {x : Except ε Unit} {f : Unit → Except ε β} :
    (x >>= f) = .ok b ↔ x = .ok () ∧ f () = .ok b := by
  cases x with
  | error | ok => simp

@[simp] theorem map_ok (f : α → β) (a : α) : f <$> (Except.ok a : Except ε α) = .ok (f a) := rfl

theorem map_eq_ok_iff {f : α → β} : f <$> x = .ok b ↔ ∃ a, x = .ok a ∧ f a = b := by
  cases x with
  | error e => simp [Functor.map, Except.map]
  | ok a => simp

theorem mapError_eq_ok_iff {δ : Type} {f : ε → δ} {a : α} : x.mapError f = .ok a ↔ x = .ok a := by
  cases x with
  | error | ok => simp [Except.mapError]

variable {l : List α} {l' : List β}

/-- A traversal succeeds when every element does. -/
theorem mapM_eq_ok_iff : l.mapM f = .ok l' ↔ List.Forall₂ (fun a b => f a = .ok b) l l' := by
  induction l generalizing l' with
  | nil => simp [eq_comm]
  | cons a l ih =>
    simp only [mapM_cons, bind_eq_ok_iff, pure_eq_ok, Except.ok.injEq,
      forall₂_cons_left_iff, ih]
    constructor
    · rintro ⟨b, hb, bs, hbs, rfl⟩
      exact ⟨b, bs, hb, hbs, rfl⟩
    · rintro ⟨b, bs, hb, hbs, rfl⟩
      exact ⟨b, hb, bs, hbs, rfl⟩

theorem mapM_eq_ok {g : α → β} (h : ∀ a ∈ l, f a = .ok (g a)) : l.mapM f = .ok (l.map g) := by
  rw [mapM_eq_ok_iff, forall₂_map_right_iff, forall₂_same]
  exact h

theorem exists_mem_of_mapM_eq_ok (h : l.mapM f = .ok l') {a : α} (ha : a ∈ l) :
    ∃ b ∈ l', f a = .ok b := by
  have hall := mapM_eq_ok_iff.1 h
  induction hall with
  | nil => cases ha
  | cons hb _ ih =>
    rcases mem_cons.1 ha with rfl | ha
    · exact ⟨_, mem_cons_self, hb⟩
    · obtain ⟨b, hmem, hab⟩ := ih (mapM_eq_ok_iff.2 ‹_›) ha
      exact ⟨b, mem_cons_of_mem _ hmem, hab⟩

theorem exists_of_mapM_eq_ok (h : l.mapM f = .ok l') (hb : b ∈ l') : ∃ a ∈ l, f a = .ok b := by
  induction l generalizing l' with
  | nil =>
    rw [mapM_nil, pure_eq_ok, Except.ok.injEq] at h
    rw [← h] at hb
    cases hb
  | cons a l ih =>
    simp only [mapM_cons, bind_eq_ok_iff, pure_eq_ok, Except.ok.injEq] at h
    obtain ⟨b', hb', bs, hbs, rfl⟩ := h
    rcases mem_cons.1 hb with rfl | hb
    · exact ⟨a, mem_cons_self, hb'⟩
    · obtain ⟨a', ha', hab⟩ := ih hbs hb
      exact ⟨a', mem_cons_of_mem _ ha', hab⟩

theorem exists_mapM_mapM {δ : Type} {g : β → Except δ γ} {k : α → γ}
    (h : ∀ a ∈ l, ∃ b, f a = .ok b ∧ g b = .ok (k a)) :
    ∃ bs, l.mapM f = .ok bs ∧ bs.mapM g = .ok (l.map k) := by
  induction l with
  | nil => exact ⟨[], rfl, rfl⟩
  | cons a l ih =>
    rw [forall_mem_cons] at h
    obtain ⟨b, hb, hg⟩ := h.1
    obtain ⟨bs, hbs, hgs⟩ := ih h.2
    refine ⟨b :: bs, ?_, ?_⟩
    · rw [mapM_cons, hb, ok_bind, hbs, ok_bind, pure_eq_ok]
    · rw [mapM_cons, hg, ok_bind, hgs, ok_bind, pure_eq_ok, map_cons]

/-- A loop of checks passes when every check passes, in whatever order they stand. -/
theorem forM_eq_ok_iff {f : α → Except ε Unit} : l.forM f = .ok () ↔ ∀ a ∈ l, f a = .ok () := by
  induction l with
  | nil => simp [List.forM]
  | cons a l ih =>
    show (f a >>= fun _ => l.forM f) = .ok () ↔ _
    rw [bind_eq_ok_iff, forall_mem_cons, ih]
    constructor
    · intro ⟨_, ha, hl⟩
      exact ⟨ha, hl⟩
    · intro ⟨ha, hl⟩
      exact ⟨(), ha, hl⟩

end Base
