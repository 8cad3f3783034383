import Orcker.Base.Utf8

/-!
# Wire formats

What binary record formats are made of, over byte lists: big-endian numbers, and readers of one item
or of all.
-/

namespace Base

open List

/-- The low `k` bytes of a number, most significant byte first. -/
def beBytes : Nat → Nat → Bytes
  | 0, _ => []
  | k + 1, n => UInt8.ofNat (n / 256 ^ k) :: beBytes k n

/-- The number that big-endian bytes stand for. -/
def ofBe : Bytes → Nat
  | [] => 0
  | b :: bs => b.toNat * 256 ^ bs.length + ofBe bs

@[simp] theorem length_beBytes (k n : Nat) : (beBytes k n).length = k := by
  induction k with
  | zero => rfl
  | succ k ih => rw [beBytes, length_cons, ih]

theorem ofBe_beBytes_mod (k n : Nat) : ofBe (beBytes k n) = n % 256 ^ k := by
  induction k with
  | zero => rw [Nat.pow_zero, Nat.mod_one]; rfl
  | succ k ih =>
    have hbyte : (UInt8.ofNat (n / 256 ^ k)).toNat = n / 256 ^ k % 256 := UInt8.toNat_ofNat'
    rw [beBytes, ofBe, ih, length_beBytes, hbyte, Nat.mod_pow_succ, Nat.mul_comm, Nat.add_comm]

/-- The two are inverse on the numbers that fit. -/
theorem ofBe_beBytes {k n : Nat} (h : n < 256 ^ k) : ofBe (beBytes k n) = n := by
  rw [ofBe_beBytes_mod, Nat.mod_eq_of_lt h]

theorem ofBe_lt (bs : Bytes) : ofBe bs < 256 ^ bs.length := by
  induction bs with
  | nil => exact Nat.one_pos
  | cons b bs ih =>
    have hb : b.toNat < 256 := b.toNat_lt
    rw [ofBe, length_cons, Nat.pow_succ]
    have hmul : b.toNat * 256 ^ bs.length ≤ 255 * 256 ^ bs.length :=
      Nat.mul_le_mul_right _ (by omega)
    omega

theorem ofBe_inj {as bs : Bytes} (hlen : as.length = bs.length) (h : ofBe as = ofBe bs) :
    as = bs := by
  induction as generalizing bs with
  | nil => exact (length_eq_zero_iff.1 hlen.symm).symm
  | cons a as ih =>
    cases bs with
    | nil => cases hlen
    | cons b bs =>
      have hlen' : as.length = bs.length := Nat.succ.inj hlen
      have ha := ofBe_lt as
      have hb := ofBe_lt bs
      rw [ofBe, ofBe, hlen'] at h
      rw [hlen'] at ha
      -- the leading bytes are the quotients, the others the remainders
      have hpos : 0 < 256 ^ bs.length := Nat.pow_pos (by omega)
      have hquot : a.toNat = b.toNat := by
        have := congrArg (· / 256 ^ bs.length) h
        simpa [Nat.add_comm _ (ofBe _), Nat.add_mul_div_right _ _ hpos, Nat.div_eq_of_lt ha,
          Nat.div_eq_of_lt hb] using this
      rw [hquot] at h
      rw [UInt8.toNat_inj.1 hquot, ih hlen' (Nat.add_left_cancel h)]

theorem beBytes_ofBe {k : Nat} {bs : Bytes} (h : bs.length = k) : beBytes k (ofBe bs) = bs := by
  refine ofBe_inj (by rw [length_beBytes, h]) (ofBe_beBytes ?_)
  rw [← h]
  exact ofBe_lt bs

/-- The first `n` bytes and the rest, when there are that many. -/
def takeExact (n : Nat) (s : Bytes) : Option (Bytes × Bytes) :=
  if n ≤ s.length then some (s.take n, s.drop n) else none

variable {s : Bytes}

theorem takeExact_append {n : Nat} (h : s.length = n) (rest : Bytes) :
    takeExact n (s ++ rest) = some (s, rest) := by
  subst h
  rw [takeExact, if_pos (by rw [length_append]; omega), take_left, drop_left]

section ReadAll

variable {β : Type}

/-- Read at most `fuel` items; the stream has to end after the last one. -/
def readMany (read : Bytes → Option (β × Bytes)) : Nat → Bytes → Option (List β)
  | 0, s => if s.isEmpty then some [] else none
  | fuel + 1, s =>
    if s.isEmpty then some []
    else
      match read s with
      | none => none
      | some (x, rest) => (readMany read fuel rest).map (x :: ·)

/-- Read items until the stream is used up. -/
def readAll (read : Bytes → Option (β × Bytes)) (s : Bytes) : Option (List β) :=
  readMany read s.length s

variable {encode : β → Bytes} {xs : List β} {read : Bytes → Option (β × Bytes)}

theorem readMany_flatMap
    (h : ∀ x ∈ xs, encode x ≠ [] ∧ ∀ rest, read (encode x ++ rest) = some (x, rest)) {fuel : Nat}
    (hfuel : xs.length ≤ fuel) : readMany read fuel (xs.flatMap encode) = some xs := by
  induction xs generalizing fuel with
  | nil => cases fuel <;> rfl
  | cons x xs ih =>
    cases fuel with
    | zero => cases hfuel
    | succ fuel =>
      obtain ⟨hne, hread⟩ := h x mem_cons_self
      have hrest := ih (fun y hy => h y (mem_cons_of_mem _ hy)) (Nat.le_of_succ_le_succ hfuel)
      rw [flatMap_cons, readMany, if_neg, hread]
      · simp only [hrest, Option.map_some]
      · rw [List.isEmpty_iff, List.append_eq_nil_iff]
        exact fun hnil => hne hnil.1

theorem length_le_length_flatMap (h : ∀ x ∈ xs, encode x ≠ []) :
    xs.length ≤ (xs.flatMap encode).length := by
  induction xs with
  | nil => exact Nat.le_refl 0
  | cons x xs ih =>
    have hpos := length_pos_iff.2 (h x mem_cons_self)
    have hrest := ih fun y hy => h y (mem_cons_of_mem _ hy)
    rw [flatMap_cons, length_append, length_cons]
    omega

/-- A reader that inverts an encoder whatever follows gives back every encoded list. -/
theorem readAll_flatMap
    (h : ∀ x ∈ xs, encode x ≠ [] ∧ ∀ rest, read (encode x ++ rest) = some (x, rest)) :
    readAll read (xs.flatMap encode) = some xs :=
  readMany_flatMap h (length_le_length_flatMap fun x hx => (h x hx).1)

end ReadAll

section ReadToError

variable {β ε : Type} {read : Bytes → Except ε (β × Bytes)} {eof : ε}

def readUpTo (read : Bytes → Except ε (β × Bytes)) (eof : ε) : Nat → Bytes → List β × ε
  | 0, _ => ([], eof)
  | fuel + 1, s =>
    match read s with
    | .error e => ([], e)
    | .ok (x, rest) =>
      let r := readUpTo read eof fuel rest
      (x :: r.1, r.2)

/-- The items that are read before a read fails, and the failure. -/
def readToError (read : Bytes → Except ε (β × Bytes)) (eof : ε) (s : Bytes) : List β × ε :=
  readUpTo read eof (s.length + 1) s

/-- Every item uses up some of the stream. -/
def UsesUp (read : Bytes → Except ε (β × Bytes)) : Prop :=
  ∀ s x rest, read s = .ok (x, rest) → rest.length < s.length

theorem readUpTo_of_lt (hread : UsesUp read) {fuel fuel' : Nat} (h : s.length < fuel)
    (h' : s.length < fuel') : readUpTo read eof fuel s = readUpTo read eof fuel' s := by
  induction fuel generalizing s fuel' with
  | zero => omega
  | succ fuel ih =>
    cases fuel' with
    | zero => omega
    | succ fuel' =>
      simp only [readUpTo]
      cases hs : read s with
      | error e => rfl
      | ok r =>
        have hlt := hread s r.1 r.2 hs
        have hrest : readUpTo read eof fuel r.2 = readUpTo read eof fuel' r.2 :=
          ih (by omega) (by omega)
        simp only [hrest]

theorem readToError_error {e : ε} (h : read s = .error e) : readToError read eof s = ([], e) := by
  rw [readToError, readUpTo, h]

theorem readToError_ok (hread : UsesUp read) {rest : Bytes} {x : β} (h : read s = .ok (x, rest)) :
    readToError read eof s = (x :: (readToError read eof rest).1, (readToError read eof rest).2) := by
  have hlt := hread s x rest h
  have hrest : readUpTo read eof s.length rest = readToError read eof rest :=
    readUpTo_of_lt hread hlt (Nat.lt_succ_self _)
  rw [readToError, readUpTo, h]
  simp only [hrest]

end ReadToError

/-! ## Pulling items out of a growing buffer

A decoder that is fed a stream in pieces keeps what it cannot use yet and pulls complete items off
the front. An answer is not changed by bytes that arrive later, and an item uses up some of the
buffer; so the pieces are irrelevant (`drain_append`). -/

section

/-- What one look at the buffer finds. -/
inductive Pull (β ε : Type) where
  | more
  | item (x : β) (rest : Bytes)
  | fail (e : ε)

/-- A step that later bytes do not change. -/
structure Puller (β ε : Type) where
  step : Bytes → Pull β ε
  item_append : ∀ {s x rest}, step s = .item x rest → ∀ t, step (s ++ t) = .item x (rest ++ t)
  fail_append : ∀ {s e}, step s = .fail e → ∀ t, step (s ++ t) = .fail e
  length_lt : ∀ {s x rest}, step s = .item x rest → rest.length < s.length

namespace Puller

variable {β ε : Type} (p : Puller β ε)

/-- What is left of a stream: bytes waiting for more, or a refusal. -/
abbrev Left (ε : Type) := Except ε Bytes

def drainUpTo : Nat → Bytes → List β × Left ε
  | 0, s => ([], .ok s)
  | fuel + 1, s =>
    match p.step s with
    | .more => ([], .ok s)
    | .fail e => ([], .error e)
    | .item x rest =>
      let r := drainUpTo fuel rest
      (x :: r.1, r.2)

/-- Take items off the front as long as there are whole ones. -/
def drain (s : Bytes) : List β × Left ε := p.drainUpTo (s.length + 1) s

/-- Continue after `xs` with what was left, once `chunk` has arrived. -/
def feed (r : List β × Left ε) (chunk : Bytes) : List β × Left ε :=
  match r.2 with
  | .error e => (r.1, .error e)
  | .ok s => (r.1 ++ (p.drain (s ++ chunk)).1, (p.drain (s ++ chunk)).2)

theorem drainUpTo_of_lt {fuel fuel' : Nat} {s : Bytes} (h : s.length < fuel)
    (h' : s.length < fuel') : p.drainUpTo fuel s = p.drainUpTo fuel' s := by
  induction fuel generalizing s fuel' with
  | zero => omega
  | succ fuel ih =>
    cases fuel' with
    | zero => omega
    | succ fuel' =>
      simp only [drainUpTo]
      cases hs : p.step s with
      | more | fail => rfl
      | item x rest =>
        have hlt := p.length_lt hs
        have hrest : p.drainUpTo fuel rest = p.drainUpTo fuel' rest := ih (by omega) (by omega)
        simp only [hrest]

theorem drain_more {s : Bytes} (h : p.step s = .more) : p.drain s = ([], .ok s) := by
  unfold drain
  simp only [drainUpTo, h]

theorem drain_fail {s : Bytes} {e : ε} (h : p.step s = .fail e) : p.drain s = ([], .error e) := by
  unfold drain
  simp only [drainUpTo, h]

theorem drain_item {s rest : Bytes} {x : β} (h : p.step s = .item x rest) :
    p.drain s = (x :: (p.drain rest).1, (p.drain rest).2) := by
  have hlt := p.length_lt h
  unfold drain
  conv_lhs => rw [drainUpTo]
  simp only [h]
  have hrest : p.drainUpTo s.length rest = p.drainUpTo (rest.length + 1) rest :=
    p.drainUpTo_of_lt hlt (Nat.lt_succ_self _)
  rw [hrest]

theorem drain_induction {motive : Bytes → Prop}
    (more : ∀ s, p.step s = .more → motive s)
    (fail : ∀ s e, p.step s = .fail e → motive s)
    (item : ∀ s x rest, p.step s = .item x rest → motive rest → motive s) (s : Bytes) :
    motive s := by
  induction hn : s.length using Nat.strongRecOn generalizing s with
  | _ n ih =>
    cases hs : p.step s with
    | more => exact more s hs
    | fail e => exact fail s e hs
    | item x rest =>
      have hlt := p.length_lt hs
      exact item s x rest hs (ih rest.length (by omega) rest rfl)

theorem step_of_drain {s left : Bytes} (h : (p.drain s).2 = .ok left) : p.step left = .more := by
  induction s using p.drain_induction with
  | more s hs =>
    rw [p.drain_more hs] at h
    cases h
    exact hs
  | fail s e hs =>
    rw [p.drain_fail hs] at h
    cases h
  | item s x rest hs ih =>
    rw [p.drain_item hs] at h
    exact ih h

/-- Draining in parts is draining at once. -/
theorem drain_append (s t : Bytes) : p.drain (s ++ t) = p.feed (p.drain s) t := by
  induction s using p.drain_induction with
  | more s hs =>
    rw [p.drain_more hs]
    rfl
  | fail s e hs =>
    rw [p.drain_fail hs, p.drain_fail (p.fail_append hs t)]
    rfl
  | item s x rest hs ih =>
    rw [p.drain_item hs, p.drain_item (p.item_append hs t), ih]
    unfold feed
    cases (p.drain rest).2 <;> rfl

theorem drain_flatMap {encode : β → Bytes} {xs : List β}
    (h : ∀ x ∈ xs, ∀ rest, p.step (encode x ++ rest) = .item x rest) (rest : Bytes) :
    p.drain (xs.flatMap encode ++ rest) = (xs ++ (p.drain rest).1, (p.drain rest).2) := by
  induction xs with
  | nil => rfl
  | cons x xs ih =>
    rw [flatMap_cons, append_assoc, p.drain_item (h x mem_cons_self _),
      ih fun y hy => h y (mem_cons_of_mem _ hy)]
    rfl

end Puller

end

end Base
