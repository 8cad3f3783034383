import Orcker.Mail.Store

/-!
# A mailbox

What a store is for: letters in order of receipt, of which the newest `cap` are kept until they are
deleted. Beside them a mailbox has strays: letters whose file is there and that no list shows.
-/

namespace Orcker.Mail

open Base List

/-- The `no`-th message received. -/
structure Letter where
  no : Nat
  raw : Bytes
  read : Bool
  deriving DecidableEq

def Letter.id (l : Letter) : Str := idText l.no

theorem idText_injective : Function.Injective idText := padded_injective 6

variable {l : Letter}

theorem Letter.id_inj {l' : Letter} : l.id = l'.id ↔ l.no = l'.no := idText_injective.eq_iff

/-- The letters held, newest first, and the strays. -/
structure Mailbox where
  received : Nat
  letters : List Letter
  strays : List Letter
  ordered : letters.Pairwise fun newer older => older.no < newer.no
  distinct : ((letters ++ strays).map Letter.no).Nodup
  numbered : ∀ l ∈ letters ++ strays, l.no < received

namespace Mailbox

def empty : Mailbox where
  received := 0
  letters := []
  strays := []
  ordered := .nil
  distinct := .nil
  numbered l hl := by cases hl

variable (accepts : Bytes → Bool) (cap : Nat) (m : Mailbox)

/-- All letters that have a file. -/
def files : List Letter := m.letters ++ m.strays

def newest (raw : Bytes) : Letter := ⟨m.received, raw, false⟩

theorem ordered_cons (raw : Bytes) :
    (m.newest raw :: m.letters).Pairwise fun newer older => older.no < newer.no :=
  pairwise_cons.2 ⟨fun l hl => m.numbered l (mem_append_left _ hl), m.ordered⟩

theorem distinct_cons (raw : Bytes) : ((m.newest raw :: m.files).map Letter.no).Nodup := by
  refine nodup_cons.2 ⟨?_, m.distinct⟩
  intro hmem
  obtain ⟨l, hl, hno⟩ := mem_map.1 hmem
  exact absurd (m.numbered l hl) hno.not_lt

theorem numbered_cons (raw : Bytes) : ∀ l ∈ m.newest raw :: m.files, l.no < m.received + 1 :=
  forall_mem_cons.2 ⟨Nat.lt_succ_self _, fun l hl => Nat.lt_succ_of_lt (m.numbered l hl)⟩

/-- A letter comes in. -/
def insert (raw : Bytes) : Mailbox where
  received := m.received + 1
  letters := m.newest raw :: m.letters
  strays := m.strays
  ordered := m.ordered_cons raw
  distinct := m.distinct_cons raw
  numbered := m.numbered_cons raw

/-- A letter comes in and is not listed. -/
def miss (raw : Bytes) : Mailbox where
  received := m.received + 1
  letters := m.letters
  strays := m.newest raw :: m.strays
  ordered := m.ordered
  distinct := (perm_middle.map Letter.no).nodup_iff.2 (m.distinct_cons raw)
  numbered l hl := m.numbered_cons raw l (perm_middle.mem_iff.1 hl)

/-- Some of the letters go. -/
def restrict {kept : List Letter} (h : kept <+ m.letters) : Mailbox where
  received := m.received
  letters := kept
  strays := m.strays
  ordered := m.ordered.sublist h
  distinct := m.distinct.sublist ((h.append_right _).map _)
  numbered l hl := m.numbered l ((h.append_right _).subset hl)

/-- A letter comes in, and the oldest beyond `cap` go. -/
def append (raw : Bytes) : Mailbox := (m.insert raw).restrict (take_sublist cap _)

/-- The letters that satisfy `p` stay. -/
def keep (p : Letter → Bool) : Mailbox := m.restrict (filter_sublist (p := p))

/-- `mark_read` on one letter. -/
def markLetter (ids : List Str) (l : Letter) : Letter := { l with read := l.read || l.id ∈ ids }

def markRead (ids : List Str) : Mailbox where
  received := m.received
  letters := m.letters.map (markLetter ids)
  strays := m.strays
  ordered := List.pairwise_map.2 m.ordered
  distinct := by
    have h := m.distinct
    rw [map_append] at h ⊢
    rwa [map_map]
  numbered := by
    rw [forall_mem_append, forall_mem_map]
    exact forall_mem_append.1 m.numbered

/-- What a store does whose parser accepts the messages given. -/
def apply : Call → Mailbox
  | .append raw => if accepts raw then m.append cap raw else m.miss raw
  | .deleteMany ids => m.keep fun l => !decide (l.id ∈ ids)
  | .markRead ids => m.markRead ids
  | .clear => m.keep fun _ => false
  | _ => m

/-- A mailbox that takes every message. -/
def run (calls : List Call) : Mailbox := calls.foldl (apply (fun _ => true) cap) empty

theorem run_snoc (calls : List Call) (c : Call) :
    run cap (calls ++ [c]) = (run cap calls).apply (fun _ => true) cap c := by
  rw [run, foldl_append]
  rfl

end Mailbox

/-- The messages of the calls. -/
def received : List Call → List Bytes
  | [] => []
  | .append raw :: rest => raw :: received rest
  | _ :: rest => received rest

/-- The calls since the `no`-th message was received. -/
def since : Nat → List Call → List Call
  | _, [] => []
  | 0, .append _ :: rest => rest
  | no + 1, .append _ :: rest => since no rest
  | no, _ :: rest => since no rest

def Call.isAppend : Call → Bool
  | .append _ => true
  | _ => false

/-- The call throws the letter away. -/
def Call.Discards (id : Str) : Call → Prop
  | .deleteMany ids => id ∈ ids
  | .clear => True
  | _ => False

def Call.MarksRead (id : Str) : Call → Prop
  | .markRead ids => id ∈ ids
  | _ => False

theorem received_append (calls calls' : List Call) :
    received (calls ++ calls') = received calls ++ received calls' := by
  induction calls with
  | nil => rfl
  | cons c calls ih => cases c <;> simp [received, ih]

variable {calls : List Call}

theorem since_append {no : Nat} (h : no < (received calls).length) (calls' : List Call) :
    since no (calls ++ calls') = since no calls ++ calls' := by
  induction calls generalizing no with
  | nil => simp [received] at h
  | cons c calls ih =>
    cases c with
    | append raw =>
      cases no with
      | zero => rfl
      | succ no => exact ih (by simpa [received] using h)
    | _ => cases no <;> exact ih h

theorem since_received (calls : List Call) (raw : Bytes) :
    since (received calls).length (calls ++ [.append raw]) = [] := by
  induction calls with
  | nil => rfl
  | cons c calls ih =>
    cases c with
    | append raw' => exact ih
    | _ =>
      generalize hno : (received calls).length = no at ih
      simp only [received, hno]
      cases no <;> exact ih

/-- How many of the letters came after the `no`-th. -/
def newer (no : Nat) (letters : List Letter) : Nat := letters.countP fun l => no < l.no

/-- At some moment since it was received, `cap` newer letters were held. -/
def Evicted (cap : Nat) (calls : List Call) (no : Nat) : Prop :=
  ∃ before after, calls = before ++ after ∧ no < (received before).length ∧
    cap ≤ newer no (Mailbox.run cap before).letters

def Mailbox.Has (m : Mailbox) (no : Nat) : Prop := ∃ l ∈ m.letters, l.no = no

theorem evicted_snoc {cap no : Nat} {c : Call} :
    Evicted cap (calls ++ [c]) no ↔ Evicted cap calls no ∨
      no < (received (calls ++ [c])).length ∧
        cap ≤ newer no (Mailbox.run cap (calls ++ [c])).letters := by
  constructor
  · rintro ⟨before, after, heq, hno, hcap⟩
    rcases eq_nil_or_concat after with rfl | ⟨after, c', rfl⟩
    · rw [append_nil] at heq
      exact .inr ⟨heq ▸ hno, heq ▸ hcap⟩
    · rw [concat_eq_append, ← append_assoc] at heq
      exact .inl ⟨before, after, (append_inj' heq rfl).1, hno, hcap⟩
  · rintro (⟨before, after, rfl, hno, hcap⟩ | ⟨hno, hcap⟩)
    · exact ⟨before, after ++ [c], by rw [append_assoc], hno, hcap⟩
    · exact ⟨calls ++ [c], [], by rw [append_nil], hno, hcap⟩

theorem Evicted.lt {cap no : Nat} (h : Evicted cap calls no) : no < (received calls).length := by
  obtain ⟨before, after, rfl, hno, -⟩ := h
  rw [received_append, length_append]
  omega

theorem mem_take_iff_newer {letters : List Letter} (cap : Nat)
    (hordered : letters.Pairwise fun a b => b.no < a.no) (hl : l ∈ letters) :
    l ∈ letters.take cap ↔ newer l.no (letters.take cap) < cap := by
  induction letters generalizing cap with
  | nil => cases hl
  | cons a letters ih =>
    obtain ⟨ha, hordered⟩ := pairwise_cons.1 hordered
    cases cap with
    | zero => simp
    | succ cap =>
      rw [take_succ_cons]
      rcases mem_cons.1 hl with rfl | hl
      · -- Nothing behind the first letter is newer.
        have hnone : newer l.no (letters.take cap) = 0 := by
          rw [newer, countP_eq_zero]
          intro b hb
          have := ha b (mem_of_mem_take hb)
          simp only [decide_eq_true_eq]
          omega
        simp only [mem_cons_self, newer, countP_cons, lt_irrefl, decide_false,
          Bool.false_eq_true, ↓reduceIte, add_zero, true_iff]
        rw [newer] at hnone
        omega
      · have hlt := ha l hl
        have hne : l ≠ a := by
          rintro rfl
          exact lt_irrefl _ hlt
        rw [mem_cons, or_iff_right hne, ih cap hordered hl]
        simp only [newer, countP_cons, hlt, decide_true, ↓reduceIte]
        omega

namespace Mailbox

variable {accepts : Bytes → Bool} {cap no : Nat} {m : Mailbox} {c : Call}

theorem apply_accepted (cap : Nat) (m : Mailbox) {raw : Bytes} (h : accepts raw = true) :
    m.apply accepts cap (.append raw) = m.append cap raw := if_pos h

theorem apply_rejected (cap : Nat) (m : Mailbox) {raw : Bytes} (h : accepts raw = false) :
    m.apply accepts cap (.append raw) = m.miss raw := if_neg (Bool.eq_false_iff.1 h)

theorem received_apply (accepts : Bytes → Bool) (cap : Nat) (m : Mailbox) (c : Call) :
    (m.apply accepts cap c).received = m.received + (Mail.received [c]).length := by
  cases c with
  | append raw => cases h : accepts raw <;> simp [apply, h] <;> rfl
  | _ => rfl

theorem received_apply_le (accepts : Bytes → Bool) (cap : Nat) (m : Mailbox) (c : Call) :
    (m.apply accepts cap c).received ≤ m.received + 1 := by
  rw [received_apply]
  cases c <;> simp [Mail.received]

/-- Strays stay: no call removes a file that is not listed. -/
theorem strays_apply (accepts : Bytes → Bool) (cap : Nat) (m : Mailbox) (c : Call) :
    m.strays <:+ (m.apply accepts cap c).strays := by
  cases c with
  | append raw =>
    cases h : accepts raw with
    | true => exact apply_accepted cap m h ▸ suffix_rfl
    | false => exact apply_rejected cap m h ▸ suffix_cons _ _
  | _ => exact suffix_rfl

theorem stray_not_listed (hl : l ∈ m.strays) : l.id ∉ m.letters.map Letter.id := by
  intro hmem
  obtain ⟨l', hl', hid⟩ := mem_map.1 hmem
  have hdistinct := m.distinct
  rw [map_append, nodup_append] at hdistinct
  exact hdistinct.2.2 _ (mem_map_of_mem hl') _ (mem_map_of_mem hl) (Letter.id_inj.1 hid)

theorem has_apply_of_not_append (hc : c.isAppend = false) :
    (m.apply accepts cap c).Has no ↔ m.Has no ∧ ¬c.Discards (idText no) := by
  cases c with
  | append raw => cases hc
  | deleteMany ids =>
    constructor
    · rintro ⟨l, hl, rfl⟩
      obtain ⟨hl, hid⟩ := mem_filter.1 hl
      have hid : l.id ∉ ids := by simpa using hid
      exact ⟨⟨l, hl, rfl⟩, hid⟩
    · rintro ⟨⟨l, hl, rfl⟩, hid⟩
      have hid : l.id ∉ ids := hid
      exact ⟨l, mem_filter.2 ⟨hl, by simpa using hid⟩, rfl⟩
  | markRead ids =>
    constructor
    · rintro ⟨l, hl, rfl⟩
      obtain ⟨l₀, hl₀, rfl⟩ := mem_map.1 hl
      exact ⟨⟨l₀, hl₀, rfl⟩, id⟩
    · rintro ⟨⟨l, hl, rfl⟩, -⟩
      exact ⟨_, mem_map_of_mem hl, rfl⟩
  | clear =>
    constructor
    · rintro ⟨l, hl, -⟩
      cases (mem_filter.1 hl).2
    · rintro ⟨-, hclear⟩
      exact absurd trivial hclear
  | _ => exact (and_iff_left id).symm

theorem newer_apply_of_not_append (accepts : Bytes → Bool) (cap no : Nat) (m : Mailbox)
    (hc : c.isAppend = false) :
    newer no (m.apply accepts cap c).letters ≤ newer no m.letters := by
  cases c with
  | append raw => cases hc
  | markRead ids =>
    show countP _ (m.letters.map _) ≤ _
    rw [countP_map]
    exact le_rfl
  | deleteMany | clear => exact filter_sublist.countP_le
  | _ => exact le_rfl

theorem has_append_iff {raw : Bytes} : (m.append cap raw).Has no ↔
    (m.Has no ∨ no = m.received) ∧ newer no (m.append cap raw).letters < cap := by
  constructor
  · rintro ⟨l, hl, rfl⟩
    have hmem := mem_of_mem_take hl
    refine ⟨?_, (mem_take_iff_newer cap (m.ordered_cons raw) hmem).1 hl⟩
    rcases mem_cons.1 hmem with rfl | hmem
    · exact .inr rfl
    · exact .inl ⟨l, hmem, rfl⟩
  · rintro ⟨hno, hnewer⟩
    obtain ⟨l, hl, rfl⟩ : ∃ l ∈ m.newest raw :: m.letters, l.no = no := by
      rcases hno with ⟨l, hl, rfl⟩ | rfl
      · exact ⟨l, mem_cons_of_mem _ hl, rfl⟩
      · exact ⟨m.newest raw, mem_cons_self, rfl⟩
    exact ⟨l, (mem_take_iff_newer cap (m.ordered_cons raw) hl).2 hnewer, rfl⟩

theorem received_foldl (accepts : Bytes → Bool) (cap : Nat) (m : Mailbox) (calls : List Call) :
    (calls.foldl (apply accepts cap) m).received = m.received + (Mail.received calls).length := by
  induction calls generalizing m with
  | nil => rfl
  | cons c calls ih =>
    rw [foldl_cons, ih, received_apply, ← singleton_append (l := calls), received_append,
      length_append, Nat.add_assoc]

theorem received_run (cap : Nat) (calls : List Call) :
    (run cap calls).received = (Mail.received calls).length :=
  (received_foldl _ cap empty calls).trans (Nat.zero_add _)

/-- Which letters are left is a matter of the calls since each was received. -/
theorem mem_run_iff (cap : Nat) (calls : List Call) (no : Nat) :
    (run cap calls).Has no ↔ no < (Mail.received calls).length ∧
      (∀ c ∈ since no calls, ¬c.Discards (idText no)) ∧ ¬Evicted cap calls no := by
  induction calls using reverseRecOn with
  | nil => simp [run, empty, Has, Mail.received]
  | append_singleton calls c ih =>
    rw [run_snoc, evicted_snoc, run_snoc]
    cases hc : c.isAppend with
    | false =>
      have hlen : (Mail.received (calls ++ [c])).length = (Mail.received calls).length := by
        rw [received_append, length_append]
        cases c <;> first | rfl | cases hc
      rw [has_apply_of_not_append hc, ih, hlen]
      by_cases hno : no < (Mail.received calls).length
      · -- Fewer newer letters than before cannot evict what was not evicted before.
        have hin : cap ≤ newer no ((run cap calls).apply (fun _ => true) cap c).letters →
            Evicted cap calls no := fun hcap => ⟨calls, [], (append_nil _).symm, hno,
            hcap.trans (newer_apply_of_not_append _ cap no (run cap calls) hc)⟩
        rw [since_append hno, forall_mem_append, forall_mem_singleton]
        tauto
      · simp [hno]
    | true =>
      obtain ⟨raw, rfl⟩ : ∃ raw, c = .append raw := by
        cases c <;> first | exact ⟨_, rfl⟩ | cases hc
      show ((run cap calls).append cap raw).Has no ↔ _
      have hlen : (Mail.received (calls ++ [.append raw])).length =
          (Mail.received calls).length + 1 := by
        rw [received_append, length_append]
        rfl
      rw [has_append_iff, received_run, ih, hlen]
      rcases lt_trichotomy no (Mail.received calls).length with hno | rfl | hno
      · -- An older letter: one more call since, which deletes nothing.
        rw [since_append hno]
        have hlast : ¬(Call.append raw).Discards (idText no) := id
        simp only [forall_mem_append, forall_mem_singleton, hno, hno.ne, hlast,
          Nat.lt_succ_of_lt hno, not_false_eq_true, true_and, and_true, or_false, not_or, not_le]
        exact and_assoc
      · -- The message itself: nothing happened to it before.
        have hnot : ¬Evicted cap calls (Mail.received calls).length := fun h => lt_irrefl _ h.lt
        simp only [since_received, hnot, lt_irrefl, false_and, false_or, true_and, or_true,
          not_mem_nil, IsEmpty.forall_iff, implies_true, Nat.lt_succ_self, not_le]
        rfl
      · have hno' : ¬no < (Mail.received calls).length + 1 := by omega
        simp [hno.not_gt, hno.ne', hno']

/-- Which of them are read is a matter of the same calls. -/
theorem mem_run {cap : Nat} (hl : l ∈ (run cap calls).letters) :
    (Mail.received calls)[l.no]? = some l.raw ∧
      (l.read = true ↔ ∃ c ∈ since l.no calls, c.MarksRead l.id) := by
  induction calls using reverseRecOn generalizing l with
  | nil => cases hl
  | append_singleton calls c ih =>
    have hlt {l₀ : Letter} (hl₀ : l₀ ∈ (run cap calls).letters) :
        l₀.no < (Mail.received calls).length := by
      rw [← received_run cap]
      exact (run cap calls).numbered l₀ (mem_append_left _ hl₀)
    -- A letter that was there before and is not marked now.
    have hold {l : Letter} (hl : l ∈ (run cap calls).letters) (hc : ¬c.MarksRead l.id) :
        (Mail.received (calls ++ [c]))[l.no]? = some l.raw ∧
          (l.read = true ↔ ∃ c' ∈ since l.no (calls ++ [c]), c'.MarksRead l.id) := by
      rw [received_append, getElem?_append_left (hlt hl), since_append (hlt hl)]
      simpa [hc, or_and_right, exists_or] using ih hl
    rw [run_snoc] at hl
    cases c with
    | append raw =>
      rcases mem_cons.1 (mem_of_mem_take hl) with rfl | hl
      · have hno : (newest (run cap calls) raw).no = (Mail.received calls).length :=
          received_run cap calls
        rw [hno, since_received, received_append]
        simp [newest, Mail.received]
      · exact hold hl id
    | deleteMany | clear => exact hold (mem_of_mem_filter hl) id
    | markRead ids =>
      obtain ⟨l₀, hl₀, rfl⟩ := mem_map.1 hl
      obtain ⟨hraw, hread⟩ := ih hl₀
      unfold markLetter
      rw [received_append, getElem?_append_left (hlt hl₀), since_append (hlt hl₀)]
      refine ⟨hraw, ?_⟩
      have hid : Letter.id { l₀ with read := l₀.read || decide (l₀.id ∈ ids) } = l₀.id := rfl
      simp only [Bool.or_eq_true, hread, decide_eq_true_eq, mem_append, mem_singleton,
        or_and_right, exists_or, exists_eq_left, hid]
      rfl
    | list | count | counts | get => exact hold hl id

theorem strays_run (cap : Nat) (calls : List Call) : (run cap calls).strays = [] := by
  induction calls using reverseRecOn with
  | nil => rfl
  | append_singleton calls c ih =>
    rw [run_snoc, ← ih]
    cases c <;> rfl

theorem foldl_apply_of_accepted (h : ∀ raw ∈ Mail.received calls, accepts raw = true)
    (m : Mailbox) : calls.foldl (apply accepts cap) m = calls.foldl (apply (fun _ => true) cap) m := by
  induction calls generalizing m with
  | nil => rfl
  | cons c calls ih =>
    have hstep : m.apply accepts cap c = m.apply (fun _ => true) cap c := by
      cases c with
      | append raw =>
        have hraw := h raw mem_cons_self
        simp only [apply, hraw]
      | _ => rfl
    have hrest : ∀ raw ∈ Mail.received calls, accepts raw = true := by
      intro raw hraw
      cases c with
      | append raw' => exact h raw (mem_cons_of_mem _ hraw)
      | _ => exact h raw hraw
    rw [foldl_cons, foldl_cons, hstep, ih hrest]

theorem strays_foldl (calls : List Call) (m : Mailbox) :
    m.strays <:+ (calls.foldl (apply accepts cap) m).strays := by
  induction calls generalizing m with
  | nil => exact suffix_rfl
  | cons c calls ih => exact (m.strays_apply accepts cap c).trans (ih _)

/-- A rejected message stays a stray. -/
theorem exists_stray (cap : Nat) {raw : Bytes} (hraw : raw ∈ Mail.received calls)
    (h : accepts raw = false) (m : Mailbox) :
    ∃ l ∈ (calls.foldl (apply accepts cap) m).strays, l.raw = raw := by
  induction calls generalizing m with
  | nil => cases hraw
  | cons c calls ih =>
    cases c with
    | append raw' =>
      rcases mem_cons.1 hraw with rfl | hraw
      · refine ⟨m.newest raw, (strays_foldl calls _).subset ?_, rfl⟩
        simp only [apply, h, Bool.false_eq_true, ↓reduceIte]
        exact mem_cons_self
      · exact ih hraw _
    | _ => exact ih hraw _

end Mailbox

end Orcker.Mail
