import Orcker.Base.Fallible
import Orcker.Mail.Contents

/-!
# Ids over a store's life

A running store counts up, but the count is not kept on disk: a store that is opened starts after
the largest id it finds. A message that makes the call panic has got an id too, and keeps its file.
-/

namespace Orcker.Mail

open Base List

/-- A call, or the store is opened again. -/
inductive Event where
  | call (c : Call)
  | reopen (cap : Nat)

/-- A running store and the ids its directory has given to messages so far. -/
structure Life where
  ids : List Str
  now : Running

/-- The id an event gives to a message. -/
def Store.given (s : Store) : Event → List Str
  | .call (.append _) => [idText s.inner.nextId]
  | _ => []

def Running.event (json : JsonCrate) (parser : MessageParser) (r : Running) :
    Event → Except MailError Running
  | .call c => r.call json parser c
  | .reopen cap => openAt json r.store.dir cap r.disk

def Life.step (json : JsonCrate) (parser : MessageParser) (l : Life) (e : Event) :
    Except MailError Life :=
  (l.now.event json parser e).map fun r => ⟨l.ids ++ l.now.store.given e, r⟩

/-- A sequence of calls and re-openings. -/
def life (json : JsonCrate) (parser : MessageParser) (r₀ : Running) (events : List Event) :
    Except MailError Life := events.foldlM (Life.step json parser) ⟨[], r₀⟩

/-- The file of the message that got the last id is still there, if there was one. -/
def Running.NewestStored (r : Running) : Prop :=
  r.store.inner.nextId = 0 ∨ emlFile (idText (r.store.inner.nextId - 1)) ∈ r.disk

variable {json : JsonCrate} {parser : MessageParser}

theorem max?_congr {l l' : List Nat} (h : ∀ n, n ∈ l ↔ n ∈ l') : l.max? = l'.max? := by
  apply Option.ext
  intro n
  simp only [max?_eq_some_iff, h]

theorem max?_append (l l' : List Nat) : (l ++ l').max? = max l.max? l'.max? := by
  induction l with
  | nil => simp
  | cons a l ih =>
    rw [cons_append, max?_cons, max?_cons, ih]
    cases l.max? <;> cases l'.max? <;> simp [max_assoc]

/-- The number after the largest one. -/
def nextAfter (letters : List Letter) : Nat :=
  match (letters.map Letter.no).max? with
  | some no => no + 1
  | none => 0

theorem no_lt_nextAfter {letters : List Letter} {l : Letter} (hl : l ∈ letters) :
    l.no < nextAfter letters := by
  have hno : l.no ∈ letters.map Letter.no := mem_map_of_mem hl
  obtain ⟨no, hmax⟩ := Option.isSome_iff_exists.1 (isSome_max?_of_mem hno)
  rw [nextAfter, hmax]
  exact Nat.lt_succ_of_le ((max?_eq_some_iff.1 hmax).2 _ hno)

namespace Mailbox

variable (m : Mailbox)

theorem nextAfter_le : nextAfter m.files ≤ m.received := by
  unfold nextAfter
  split
  · rename_i no hmax
    obtain ⟨l, hl, rfl⟩ := mem_map.1 (max?_mem hmax)
    exact m.numbered l hl
  · exact Nat.zero_le _

/-- The mailbox a re-opened store counts on from. -/
def reopened : Mailbox where
  received := nextAfter m.files
  letters := m.letters
  strays := m.strays
  ordered := m.ordered
  distinct := m.distinct
  numbered _ hl := no_lt_nextAfter hl

end Mailbox

section Reopen

variable {s : Store} {d : Dir} {m : Mailbox}

theorem OnDisk.mem_indexed_ids (h : OnDisk json parser d m) (hroom : m.received < 2 ^ 64)
    (n : Nat) : n ∈ ((indexed json d).filterMap fun e => parseUInt u64Max e.id) ↔
      n ∈ m.letters.map Letter.no := by
  rw [h.index, mem_filterMap]
  simp only [mem_reverse, mem_map, exists_exists_and_eq_and]
  refine exists_congr fun l => and_congr_right fun hl => ?_
  have hid : parseUInt u64Max (l.entry parser).id = some l.no :=
    parseUInt_idText ((m.numbered l (mem_append_left _ hl)).trans hroom)
  rw [hid, Option.some.injEq]

theorem OnDisk.mem_emlIds_iff (h : OnDisk json parser d m) (hroom : m.received < 2 ^ 64)
    (n : Nat) : n ∈ emlIds d ↔ n ∈ m.files.map Letter.no := by
  rw [mem_emlIds]
  constructor
  · rintro ⟨id, hid, hn⟩
    -- Every message file is that of a letter.
    obtain ⟨data, hdata⟩ := (OrdMap.mem_iff_exists d _).1 hid
    obtain ⟨l, hl, rfl, -⟩ := (h.files id data).1 hdata
    rw [Letter.id, parseUInt_idText ((m.numbered l hl).trans hroom)] at hn
    exact mem_map.2 ⟨l, hl, Option.some.inj hn⟩
  · intro hn
    obtain ⟨l, hl, rfl⟩ := mem_map.1 hn
    have hdata := (h.files l.id l.raw).2 ⟨l, hl, rfl, rfl⟩
    exact ⟨l.id, (OrdMap.mem_iff_exists d _).2 ⟨_, hdata⟩,
      parseUInt_idText ((m.numbered l hl).trans hroom)⟩

theorem OnDisk.seedId (h : OnDisk json parser d m) (hroom : m.received < 2 ^ 64) :
    seedId (indexed json d) d = m.reopened.received := by
  -- What is listed has a file, so the files decide.
  have hmax : max ((indexed json d).filterMap fun e => parseUInt u64Max e.id).max?
      (emlIds d).max? = (m.files.map Letter.no).max? := by
    rw [← max?_append]
    refine max?_congr fun n => ?_
    rw [mem_append, h.mem_indexed_ids hroom, h.mem_emlIds_iff hroom, Mailbox.files, map_append,
      mem_append]
    tauto
  have hle := m.nextAfter_le
  show Mail.seedId (indexed json d) d = nextAfter m.files
  rw [nextAfter] at hle ⊢
  rw [Mail.seedId, hmax]
  cases hno : (m.files.map Letter.no).max? with
  | none => rfl
  | some no =>
    rw [hno] at hle
    exact Nat.mod_eq_of_lt (hle.trans_lt hroom)

theorem OnDisk.reopen (h : OnDisk json parser d m) (hroom : m.received < 2 ^ 64) (dir : Path)
    (cap : Nat) : ∃ r, openAt json dir cap d = .ok r ∧
      Holds json parser r.store r.disk m.reopened :=
  ⟨_, openAt_eq dir cap d, ⟨h.index, h.files, h.readable⟩,
    (h.seedId hroom).trans (Nat.mod_eq_of_lt (m.nextAfter_le.trans_lt hroom)).symm, h.index⟩

theorem Holds.reopened_eq_iff {r : Running} (h : Holds json parser r.store r.disk m)
    (hroom : m.received < 2 ^ 64) :
    m.reopened.received = m.received ↔ r.NewestStored := by
  have hstored : r.NewestStored ↔ m.received = 0 ∨ ∃ l ∈ m.files, l.no = m.received - 1 := by
    simp only [Running.NewestStored, h.next_eq hroom, OrdMap.mem_iff_exists, h.files _ _]
    refine or_congr_right ⟨?_, ?_⟩
    · rintro ⟨-, l, hl, hid, -⟩
      exact ⟨l, hl, idText_injective hid⟩
    · rintro ⟨l, hl, hno⟩
      exact ⟨l.raw, l, hl, congrArg idText hno, rfl⟩
  rw [hstored]
  show nextAfter m.files = m.received ↔ _
  constructor
  · intro heq
    unfold nextAfter at heq
    split at heq
    · rename_i no hmax
      obtain ⟨l, hl, rfl⟩ := mem_map.1 (max?_mem hmax)
      exact .inr ⟨l, hl, by omega⟩
    · exact .inl heq.symm
  · have hle := m.nextAfter_le
    rintro (hzero | ⟨l, hl, hno⟩)
    · omega
    · have hlt := no_lt_nextAfter hl
      have := m.numbered l hl
      omega

end Reopen

def Event.isAppend : Event → Bool
  | .call c => c.isAppend
  | .reopen _ => false

/-- Whenever the store was re-opened, `P` held of the events before and after. -/
def Reopenings (events : List Event) (P : List Event → List Event → Prop) : Prop :=
  ∀ before cap after, events = before ++ .reopen cap :: after → P before after

/-- At the end of the events, the newest message's file is still there. -/
def NewestKept (json : JsonCrate) (parser : MessageParser) (r₀ : Running) (events : List Event) :
    Prop := ∀ l, life json parser r₀ events = .ok l → l.now.NewestStored

theorem reopenings_nil (P : List Event → List Event → Prop) : Reopenings [] P := by
  intro before cap after h
  cases before <;> cases h

variable {events : List Event}

theorem reopenings_snoc {e : Event} {P : List Event → List Event → Prop} :
    Reopenings (events ++ [e]) P ↔
      Reopenings events (fun before after => P before (after ++ [e])) ∧
        ∀ cap, e = .reopen cap → P events [] := by
  constructor
  · intro h
    refine ⟨?_, ?_⟩
    · rintro before cap after rfl
      exact h before cap (after ++ [e]) (by simp)
    · rintro cap rfl
      exact h events cap [] rfl
  · rintro ⟨h, hlast⟩ before cap after heq
    rcases eq_nil_or_concat after with rfl | ⟨after, e', rfl⟩
    · obtain ⟨rfl, he⟩ := append_inj' heq rfl
      exact hlast cap (singleton_inj.1 he)
    · rw [concat_eq_append, ← cons_append, ← append_assoc] at heq
      obtain ⟨rfl, he⟩ := append_inj' heq rfl
      rw [concat_eq_append, ← singleton_inj.1 he]
      exact h before cap after rfl

/-- The ids given are those of the numbers `nums`. -/
structure Counted (json : JsonCrate) (parser : MessageParser) (l : Life) (m : Mailbox)
    (nums : List Nat) : Prop where
  holds : Holds json parser l.now.store l.now.disk m
  ids : l.ids = nums.map idText
  /-- Counting up, no number is left out. -/
  below : ∀ n < m.received, n ∈ nums
  fresh : (nums ++ [m.received]).Nodup → ∀ n ∈ nums, n < m.received

variable {nums : List Nat}

theorem Counted.lower {l w : Life} {m m' : Mailbox} (h : Counted json parser l m nums)
    (hholds : Holds json parser w.now.store w.now.disk m') (hids : w.ids = l.ids)
    (hle : m'.received ≤ m.received) :
    Counted json parser w m' nums ∧
      ((nums ++ [m'.received]).Nodup ↔
        (nums ++ [m.received]).Nodup ∧ m'.received = m.received) := by
  -- A lower count is a number given before.
  have hclean : (nums ++ [m'.received]).Nodup ↔
      (nums ++ [m.received]).Nodup ∧ m'.received = m.received := by
    constructor
    · intro hnodup
      have hnot : m'.received ∉ nums := by
        intro hmem
        exact (nodup_append.1 hnodup).2.2 _ hmem _ (mem_singleton_self _) rfl
      have heq : m'.received = m.received := by
        by_contra hne
        exact hnot (h.below _ (lt_of_le_of_ne hle hne))
      exact ⟨heq ▸ hnodup, heq⟩
    · rintro ⟨hnodup, heq⟩
      exact heq ▸ hnodup
  refine ⟨⟨hholds, hids.trans h.ids, fun n hn => h.below n (hn.trans_le hle), ?_⟩, hclean⟩
  intro hnodup
  obtain ⟨hnodup, heq⟩ := hclean.1 hnodup
  exact heq ▸ h.fresh hnodup

theorem Counted.raise {l w : Life} {m m' : Mailbox} (h : Counted json parser l m nums)
    (hholds : Holds json parser w.now.store w.now.disk m')
    (hids : w.ids = l.ids ++ [idText m.received]) (hnext : m'.received = m.received + 1) :
    Counted json parser w m' (nums ++ [m.received]) ∧
      ((nums ++ [m.received] ++ [m'.received]).Nodup ↔ (nums ++ [m.received]).Nodup) := by
  have hfresh (hnodup : (nums ++ [m.received]).Nodup) :
      ∀ n ∈ nums ++ [m.received], n < m'.received := by
    intro n hn
    rcases mem_append.1 hn with hn | hn
    · have := h.fresh hnodup n hn
      omega
    · have := mem_singleton.1 hn
      omega
  refine ⟨⟨hholds, ?_, ?_, ?_⟩, ?_⟩
  · rw [hids, h.ids, map_append]
    rfl
  · intro n hn
    rcases Nat.lt_succ_iff_lt_or_eq.1 (hnext ▸ hn : n < m.received + 1) with hn | rfl
    · exact mem_append_left _ (h.below n hn)
    · exact mem_append_right _ (mem_singleton_self _)
  · intro hnodup
    exact hfresh (nodup_append.1 hnodup).1
  · constructor
    · intro hnodup
      exact (nodup_append.1 hnodup).1
    · intro hnodup
      refine nodup_append.2 ⟨hnodup, nodup_singleton _, ?_⟩
      rintro n hn _ hlast rfl
      exact lt_irrefl _ (mem_singleton.1 hlast ▸ hfresh hnodup n hn)

theorem Counted.step (hjson : json.Faithful) {l : Life} {m : Mailbox}
    (h : Counted json parser l m nums) (e : Event)
    (hroom : m.received + (if e.isAppend then 1 else 0) < 2 ^ 64) :
    ∃ l' m' nums', l.step json parser e = .ok l' ∧ Counted json parser l' m' nums' ∧
      m'.received ≤ m.received + (if e.isAppend then 1 else 0) ∧
      nums' = (if e.isAppend then nums ++ [m.received] else nums) ∧
      ((nums' ++ [m'.received]).Nodup ↔ (nums ++ [m.received]).Nodup ∧
        ∀ cap, e = .reopen cap → l.now.NewestStored) := by
  have hnow : m.received < 2 ^ 64 := by omega
  cases e with
  | reopen cap =>
    obtain ⟨r, hr, hholds⟩ := h.holds.toOnDisk.reopen hnow l.now.store.dir cap
    obtain ⟨hcounted, hclean⟩ := h.lower (w := ⟨l.ids, r⟩) hholds rfl m.nextAfter_le
    refine ⟨⟨l.ids, r⟩, m.reopened, nums, ?_, hcounted, m.nextAfter_le, rfl, ?_⟩
    · show Except.map _ (openAt json l.now.store.dir cap l.now.disk) = _
      rw [hr]
      show Except.ok (Life.mk (l.ids ++ []) r) = _
      rw [append_nil]
    · rw [hclean, h.holds.reopened_eq_iff hnow]
      simp
  | call c =>
    have hnext : (m.apply parser.accepts l.now.store.cap c).received =
        m.received + (if c.isAppend then 1 else 0) := by
      rw [Mailbox.received_apply]
      cases c <;> rfl
    obtain ⟨r, hr, -, -, hholds⟩ := h.holds.call hjson c hnow
    have hcall : l.step json parser (.call c) =
        .ok ⟨l.ids ++ l.now.store.given (.call c), r⟩ := by
      simp only [Life.step, Running.event, hr, Except.map]
    cases hc : c.isAppend with
    | true =>
      have hgiven : l.now.store.given (.call c) = [idText m.received] := by
        cases c with
        | append raw => rw [Store.given, h.holds.next_eq hnow]
        | _ => cases hc
      rw [hgiven] at hcall
      obtain ⟨hcounted, hclean⟩ := h.raise (w := ⟨_, r⟩) hholds rfl (by rw [hnext, hc]; rfl)
      refine ⟨_, _, _, hcall, hcounted, hnext.le, by rw [Event.isAppend, hc]; rfl, ?_⟩
      rw [hclean]
      simp
    | false =>
      have hgiven : l.now.store.given (.call c) = [] := by
        cases c with
        | append raw => cases hc
        | _ => rfl
      have hsame : (m.apply parser.accepts l.now.store.cap c).received = m.received := by
        rw [hnext, hc]
        rfl
      rw [hgiven, append_nil] at hcall
      obtain ⟨hcounted, hclean⟩ := h.lower (w := ⟨l.ids, r⟩) hholds rfl hsame.le
      refine ⟨_, _, _, hcall, hcounted, hnext.le, by rw [Event.isAppend, hc]; rfl, ?_⟩
      rw [hclean, and_iff_left hsame]
      simp

theorem life_snoc {r₀ : Running} {l : Life} (h : life json parser r₀ events = .ok l) (e : Event) :
    life json parser r₀ (events ++ [e]) = l.step json parser e := by
  unfold life at h ⊢
  rw [foldlM_append, h, ok_bind, foldlM_cons]
  cases l.step json parser e <;> rfl

theorem counted_life (hjson : json.Faithful) (parser : MessageParser) {r : Running} {m₀ : Mailbox}
    (hfirst : Holds json parser r.store r.disk m₀) (hzero : m₀.received = 0)
    (events : List Event) (hroom : events.countP Event.isAppend < 2 ^ 64) :
    ∃ l m nums, life json parser r events = .ok l ∧ Counted json parser l m nums ∧
      m.received ≤ events.countP Event.isAppend ∧
      ((nums ++ [m.received]).Nodup ↔
        Reopenings events fun before _ => NewestKept json parser r before) ∧
      (nums.Nodup ↔ Reopenings events fun before after =>
        (∃ e ∈ after, e.isAppend = true) → NewestKept json parser r before) := by
  induction events using reverseRecOn with
  | nil =>
    refine ⟨⟨[], r⟩, m₀, [], rfl, ⟨hfirst, rfl, ?_, ?_⟩, hzero.le, ?_, ?_⟩
    · intro n hn
      omega
    · intro _ n hn
      cases hn
    · exact iff_of_true (by simp) (reopenings_nil _)
    · exact iff_of_true .nil (reopenings_nil _)
  | append_singleton events e ih =>
    rw [countP_append, countP_singleton] at hroom
    obtain ⟨l, m, nums, hlife, hcounted, hle, hclean, hdistinct⟩ := ih (by omega)
    have hkept : NewestKept json parser r events ↔ l.now.NewestStored := by
      constructor
      · intro hkept
        exact hkept l hlife
      · intro hlisted l' hl'
        rw [hlife] at hl'
        exact Except.ok.inj hl' ▸ hlisted
    obtain ⟨l', m', nums', hstep, hcounted', hle', hnums, hclean'⟩ :=
      hcounted.step hjson e (by omega)
    refine ⟨l', m', nums', life_snoc hlife e ▸ hstep, hcounted', ?_, ?_, ?_⟩
    · rw [countP_append, countP_singleton]
      omega
    · rw [hclean', hclean, reopenings_snoc, hkept]
    · rw [reopenings_snoc, hnums]
      cases he : e.isAppend with
      | true =>
        -- Every re-opening so far is followed by this message.
        have hlast : ∀ cap, e = .reopen cap →
            (∃ e ∈ ([] : List Event), e.isAppend = true) → NewestKept json parser r events := by
          rintro cap rfl
          cases he
        rw [if_pos rfl, hclean, and_iff_left hlast]
        have hfollowed (after : List Event) : ∃ e' ∈ after ++ [e], e'.isAppend = true :=
          ⟨e, mem_append_right _ (mem_singleton_self e), he⟩
        simp only [hfollowed, forall_const]
      | false =>
        have hmore (after : List Event) : (∃ e' ∈ after ++ [e], e'.isAppend = true) ↔
            ∃ e' ∈ after, e'.isAppend = true := by simp [he]
        simp only [hmore, Bool.false_eq_true, ↓reduceIte, hdistinct]
        simp

/-- For every life of a directory, empty when it was first opened and given fewer
than `2 ^ 64` messages: all calls and re-openings succeed, and no two messages get
the same id exactly if, whenever the store is re-opened and a message follows, the
file of the newest message so far is still there. -/
theorem ids_distinct_iff {json : JsonCrate} (hjson : json.Faithful) (parser : MessageParser)
    (dir : Path) (cap : Nat) (events : List Event)
    (hroom : events.countP Event.isAppend < 2 ^ 64) :
    ∃ r₀ l, openAt json dir cap ∅ = .ok r₀ ∧ life json parser r₀ events = .ok l ∧
      (l.ids.Nodup ↔ Reopenings events fun before after =>
        (∃ e ∈ after, e.isAppend = true) → NewestKept json parser r₀ before) := by
  have hempty := @holds_empty json parser dir cap
  obtain ⟨l, m, nums, hlife, hcounted, -, -, hdistinct⟩ :=
    counted_life hjson parser (r := ⟨_, ∅⟩) hempty rfl events hroom
  refine ⟨_, l, openAt_eq dir cap ∅, hlife, ?_⟩
  rw [hcounted.ids, nodup_map_iff idText_injective, hdistinct]

instance (r : Running) : Decidable r.NewestStored := inferInstanceAs (Decidable (_ ∨ _))

/-- A message, a re-opening with the message still there, and another message. -/
theorem ids_distinct_hello : ∃ r₀ l, openAt helloJson (.ofStr "/mail") 200 ∅ = .ok r₀ ∧
    life helloJson helloParser r₀
      [.call (.append hello), .reopen 200, .call (.append hello)] = .ok l ∧ l.ids.Nodup := by
  obtain ⟨r₀, l, hopen, hlife, hiff⟩ := ids_distinct_iff helloJson_faithful helloParser
    (.ofStr "/mail") 200 [.call (.append hello), .reopen 200, .call (.append hello)] (by decide)
  refine ⟨r₀, l, hopen, hlife, hiff.2 ?_⟩
  have hkept : (openAt helloJson (.ofStr "/mail") 200 ∅ >>= fun r₀ =>
      (life helloJson helloParser r₀ [.call (.append hello)]).map fun l =>
        decide l.now.NewestStored) = .ok true := by decide +kernel
  rw [hopen, ok_bind] at hkept
  intro before cap after heq _ l' hl'
  -- The store is re-opened once, after the first message.
  obtain rfl : before = [.call (.append hello)] := by
    rcases before with _ | ⟨e, _ | ⟨e', _ | ⟨e'', before⟩⟩⟩ <;> simp_all
  rw [hl'] at hkept
  exact of_decide_eq_true (Except.ok.inj hkept)

/-- The id of a cleared message, given again after a restart. -/
theorem ids_given_twice : helloJson.Faithful ∧
    ∃ r₀ l, openAt helloJson (.ofStr "/mail") 200 ∅ = .ok r₀ ∧
      life helloJson helloParser r₀
        [.call (.append hello), .call .clear, .reopen 200, .call (.append hello)] = .ok l ∧
      ¬l.ids.Nodup := by
  refine ⟨helloJson_faithful, ?_⟩
  have hids : (openAt helloJson (.ofStr "/mail") 200 ∅ >>= fun r₀ =>
      (life helloJson helloParser r₀
        [.call (.append hello), .call .clear, .reopen 200, .call (.append hello)]).map Life.ids) =
      .ok ["000000".toList, "000000".toList] := by decide +kernel
  obtain ⟨r₀, hopen, hids⟩ := bind_eq_ok_iff.1 hids
  obtain ⟨l, hlife, hids⟩ := map_eq_ok_iff.1 hids
  exact ⟨r₀, l, hopen, hlife, by rw [hids]; decide⟩

end Orcker.Mail
