import Orcker.Base.Claim
import Orcker.Mail.Mailbox

/-!
# What a store holds

The summaries in memory, the index and the message files always show the same mailbox. A message
that the parser rejects becomes a stray, and the call panics.
-/

namespace Orcker.Mail

open Base List Mailbox Store Letter

variable {json : JsonCrate} {parser : MessageParser}

/-- How a letter is listed. -/
def Letter.entry (parser : MessageParser) (l : Letter) : MailSummary :=
  { (parser.parse l.raw).summary l.id with read := l.read }

/-- The message files are those of the letters. -/
def Stored (d : Dir) (letters : List Letter) : Prop :=
  ∀ id data, d[emlFile id]? = some data ↔ ∃ l ∈ letters, l.id = id ∧ l.raw = data

/-- A directory from which the mailbox can be read. -/
structure OnDisk (json : JsonCrate) (parser : MessageParser) (d : Dir) (m : Mailbox) : Prop where
  index : indexed json d = (m.letters.map (Letter.entry parser)).reverse
  files : Stored d m.files
  readable : ∀ l ∈ m.letters, parser.accepts l.raw = true

/-- A store that shows the mailbox, in memory and on disk. -/
structure Holds (json : JsonCrate) (parser : MessageParser) (s : Store) (d : Dir) (m : Mailbox) :
    Prop extends OnDisk json parser d m where
  next : s.inner.nextId = m.received % 2 ^ 64
  entries : s.inner.entries = (m.letters.map (Letter.entry parser)).reverse

/-! ## Files of letters -/

variable {letters kept gone : List Letter} {d : Dir} {p : Store.Plan}

/-- With one number per letter, removing files by id removes no other letter's. -/
theorem mem_kept_iff (hperm : letters ~ kept ++ gone) (hdistinct : (letters.map Letter.no).Nodup)
    (l : Letter) : l ∈ kept ↔ l ∈ letters ∧ l.id ∉ gone.map Letter.id := by
  rw [(hperm.map no).nodup_iff, map_append, nodup_append] at hdistinct
  rw [hperm.mem_iff, mem_append]
  constructor
  · intro hl
    refine ⟨.inl hl, fun hgone => ?_⟩
    obtain ⟨l', hl', hid⟩ := mem_map.1 hgone
    exact hdistinct.2.2 _ (mem_map_of_mem hl) _ (mem_map_of_mem hl') (id_inj.1 hid).symm
  · rintro ⟨hl, hgone⟩
    exact hl.resolve_right fun hl => hgone (mem_map_of_mem hl)

theorem Stored.write (h : Stored d letters) (new : Letter) (hnew : ∀ l ∈ letters, l.no < new.no) :
    Stored (d.insert (emlFile new.id) new.raw) (new :: letters) := by
  intro id data
  rw [OrdMap.getElem?_insert]
  simp only [emlFile_inj, mem_cons, exists_eq_or_imp]
  split
  · rename_i hid
    subst hid
    constructor
    · intro heq
      exact .inl ⟨rfl, Option.some.inj heq⟩
    · rintro (⟨-, rfl⟩ | ⟨l, hl, hid, -⟩)
      · rfl
      · exact absurd (hnew l hl) (id_inj.1 hid).not_lt
  · rename_i hid
    rw [h id data]
    exact (or_iff_right fun hnew => hid hnew.1.symm).symm

theorem Stored.congr (h : Stored d letters) (hmem : ∀ l, l ∈ kept ↔ l ∈ letters) :
    Stored d kept := by
  intro id data
  simp only [h id data, hmem]

/-! ## One call -/

variable {index : Bytes}

theorem indexed_of_getElem? {entries : List MailSummary} (hd : d[indexFile]? = some index)
    (hindex : json.fromSlice index = .ok entries) : indexed json d = entries := by
  simp only [indexed, hd, hindex]

theorem indexed_congr {d' : Dir} (h : d'[indexFile]? = d[indexFile]?) :
    indexed json d' = indexed json d := by
  simp only [indexed, h]

variable {s : Store} {m : Mailbox}

/-- What is left of the files once those of the plan are written and removed. -/
theorem Stored.of_plan
    (hfiles : Stored (play (p.captured.map fun file => .write (emlFile file.1) file.2) d) letters)
    (hkept : ∀ l, l ∈ kept ↔ l ∈ letters ∧ l.id ∉ p.dropped.map (·.id)) :
    Stored (play (p.ops index) d) kept := by
  intro id data
  rw [p.getElem?_emlFile]
  split
  · rename_i hgone
    refine iff_of_false (Option.some_ne_none data).symm ?_
    rintro ⟨l, hl, rfl, -⟩
    exact ((hkept l).1 hl).2 hgone
  · rename_i hstays
    rw [hfiles id data]
    refine exists_congr fun l => ?_
    rw [hkept]
    constructor
    · rintro ⟨hl, rfl, hraw⟩
      exact ⟨⟨hl, hstays⟩, rfl, hraw⟩
    · rintro ⟨⟨hl, -⟩, hid, hraw⟩
      exact ⟨hl, hid, hraw⟩

theorem Holds.of_plan (letters : List Letter) (hpanics : p.panics = false)
    (hindex : json.fromSlice index = .ok p.inner.entries)
    (hnext : p.inner.nextId = m.received % 2 ^ 64)
    (hentries : p.inner.entries = (m.letters.map (Letter.entry parser)).reverse)
    (hreadable : ∀ l ∈ m.letters, parser.accepts l.raw = true)
    (hfiles : Stored (play (p.captured.map fun file => .write (emlFile file.1) file.2) d) letters)
    (hkept : ∀ l, l ∈ m.files ↔ l ∈ letters ∧ l.id ∉ p.dropped.map (·.id)) :
    Holds json parser { s with inner := p.inner } (play (p.ops index) d) m where
  next := hnext
  entries := hentries
  index := (indexed_of_getElem? (p.getElem?_indexFile index d hpanics) hindex).trans hentries
  files := hfiles.of_plan hkept
  readable := hreadable

theorem map_id_entry (letters : List Letter) :
    (letters.map (Letter.entry parser)).map MailSummary.id = letters.map Letter.id := by
  rw [map_map]
  rfl

theorem Holds.next_eq (h : Holds json parser s d m) (hroom : m.received < 2 ^ 64) :
    s.inner.nextId = m.received := by
  rw [h.next, Nat.mod_eq_of_lt hroom]

theorem Holds.next_succ (h : Holds json parser s d m) :
    (s.inner.nextId + 1) % 2 ^ 64 = (m.received + 1) % 2 ^ 64 := by
  rw [h.next, Nat.mod_add_mod]

theorem Holds.entries_append (h : Holds json parser s d m) (hroom : m.received < 2 ^ 64)
    (raw : Bytes) : s.inner.entries ++ [(parser.parse raw).summary (idText s.inner.nextId)] =
      ((m.newest raw :: m.letters).map (Letter.entry parser)).reverse := by
  rw [map_cons, reverse_cons, ← h.entries, h.next_eq hroom]
  rfl

/-- The file of the new message, before anything is removed. -/
theorem Holds.written (h : Holds json parser s d m) (hroom : m.received < 2 ^ 64) (raw : Bytes) :
    Stored (d.insert (emlFile (idText s.inner.nextId)) raw) (m.newest raw :: m.files) := by
  have hwritten := h.files.write (m.newest raw) m.numbered
  have hid : (m.newest raw).id = idText s.inner.nextId := congrArg idText (h.next_eq hroom).symm
  rw [hid] at hwritten
  exact hwritten

theorem Holds.append (h : Holds json parser s d m) {raw : Bytes} (hraw : parser.accepts raw = true)
    (hroom : m.received < 2 ^ 64)
    (hindex : json.fromSlice index = .ok (s.planAppend parser raw).inner.entries) :
    Holds json parser { s with inner := (s.planAppend parser raw).inner }
      (play ((s.planAppend parser raw).ops index) d) (m.append s.cap raw) := by
  have hplan : s.planAppend parser raw = _ := if_pos hraw
  rw [hplan] at hindex ⊢
  have hlength : (s.inner.entries ++ [(parser.parse raw).summary (idText s.inner.nextId)]).length =
      ((m.newest raw :: m.letters).map (entry parser)).length := by
    rw [h.entries_append hroom, length_reverse]
  refine Holds.of_plan (m.newest raw :: m.files) ?_ hindex ?_ ?_ ?_ ?_ ?_
  · rfl
  · exact h.next_succ
  · -- Dropping the oldest is keeping the newest.
    show drop (evictCount _ s.cap) _ = _
    rw [hlength, h.entries_append hroom, evictCount, ← reverse_take, ← map_take]
    rfl
  · intro l hl
    rcases mem_cons.1 (mem_of_mem_take hl) with rfl | hl
    · exact hraw
    · exact h.readable l hl
  · exact h.written hroom raw
  · intro l
    show _ ↔ _ ∧ l.id ∉ (take (evictCount _ s.cap) _).map MailSummary.id
    rw [hlength, h.entries_append hroom, evictCount, ← reverse_drop, map_reverse, mem_reverse,
      ← map_drop, map_id_entry]
    refine mem_kept_iff ?_ (m.distinct_cons raw) l
    have hsplit := take_append_drop s.cap (m.newest raw :: m.letters)
    show (m.newest raw :: m.letters) ++ m.strays ~ _
    nth_rewrite 1 [← hsplit]
    rw [append_assoc]
    exact (perm_append_comm.append_left _).trans (append_assoc _ _ _ ▸ .refl _)

/-- A rejected message leaves its file, and nothing else. -/
theorem Holds.miss (h : Holds json parser s d m) {raw : Bytes}
    (hraw : parser.accepts raw = false) (hroom : m.received < 2 ^ 64) :
    Holds json parser { s with inner := (s.planAppend parser raw).inner }
      (play ((s.planAppend parser raw).ops index) d) (m.miss raw) := by
  simp only [planAppend, hraw, Bool.false_eq_true, ↓reduceIte]
  refine ⟨⟨?_, ?_, h.readable⟩, ?_, h.entries⟩
  · refine (indexed_congr ?_).trans h.index
    show (d.insert (emlFile _) raw)[indexFile]? = _
    rw [OrdMap.getElem?_insert, if_neg (emlFile_ne_indexFile _).symm]
  · exact (h.written hroom raw).congr fun l => perm_middle.mem_iff
  · exact h.next_succ

theorem Holds.keep (h : Holds json parser s d m) {p : Letter → Bool}
    {dropped kept : List MailSummary}
    (hdropped : ∀ id, id ∈ dropped.map (·.id) ↔ id ∈ (m.letters.filter fun l => !p l).map Letter.id)
    (hkept : kept = ((m.letters.filter p).map (Letter.entry parser)).reverse)
    (hindex : json.fromSlice index = .ok kept) :
    Holds json parser { s with inner := (s.planDrop dropped kept).inner }
      (play ((s.planDrop dropped kept).ops index) d) (m.keep p) := by
  refine Holds.of_plan m.files rfl hindex h.next hkept (fun l hl => h.readable l (mem_of_mem_filter hl))
    h.files fun l => ?_
  show _ ↔ _ ∧ l.id ∉ dropped.map (·.id)
  rw [hdropped]
  refine mem_kept_iff ?_ m.distinct l
  show m.letters ++ m.strays ~ m.letters.filter p ++ m.strays ++ m.letters.filter _
  refine ((filter_append_perm p m.letters).symm.append_right _).trans ?_
  rw [append_assoc, append_assoc]
  exact perm_append_comm.append_left _

theorem markEntry_entry (ids : List Str) (l : Letter) :
    markEntry ids (l.entry parser) = (Mailbox.markLetter ids l).entry parser := by
  have hmarks : marks ids (l.entry parser) = (!l.read && decide (l.id ∈ ids)) := rfl
  rw [markEntry, hmarks, markLetter]
  cases hread : l.read with
  | true => exact if_neg Bool.false_ne_true |>.trans (by rw [entry, hread]; rfl)
  | false =>
    by_cases hid : l.id ∈ ids
    · rw [decide_eq_true hid]
      rfl
    · rw [decide_eq_false hid]
      exact if_neg Bool.false_ne_true |>.trans (by rw [entry, hread]; rfl)

theorem Holds.mem_ids (h : Holds json parser s d m) (q : Str → Bool) (id : Str) :
    id ∈ (s.inner.entries.filter fun e => q e.id).map (·.id) ↔
      id ∈ (m.letters.filter fun l => q l.id).map Letter.id := by
  rw [h.entries, filter_reverse, map_reverse, mem_reverse, filter_map, map_map]
  rfl

theorem Holds.markRead (h : Holds json parser s d m) (ids : List Str)
    (hindex : json.fromSlice index = .ok (s.inner.entries.map (markEntry ids))) :
    Holds json parser { s with inner := (s.planDrop [] (s.inner.entries.map (markEntry ids))).inner }
      (play ((s.planDrop [] (s.inner.entries.map (markEntry ids))).ops index) d)
      (m.markRead ids) := by
  refine Holds.of_plan (m.markRead ids).files rfl hindex h.next ?_ ?_ ?_
    fun l => (and_iff_left not_mem_nil).symm
  · show s.inner.entries.map _ = ((m.letters.map _).map _).reverse
    rw [h.entries, map_reverse, map_map, map_map]
    exact congrArg reverse (map_congr_left fun l _ => markEntry_entry ids l)
  · exact forall_mem_map.2 h.readable
  · -- Marking a letter leaves its file as it is.
    intro id data
    show d[emlFile id]? = some data ↔ ∃ l ∈ m.letters.map _ ++ m.strays, _
    rw [h.files id data]
    simp only [files, mem_append, mem_map, or_and_right, exists_or,
      exists_exists_and_eq_and]
    rfl

theorem Holds.markRead_of_none (h : Holds json parser s d m) {ids : List Str}
    (hnone : s.inner.entries.any (marks ids) = false) :
    Holds json parser s d (m.markRead ids) := by
  have hsame : (m.markRead ids).letters = m.letters := by
    refine (map_congr_left fun l hl => ?_).trans (map_id' _)
    have hentry : l.entry parser ∈ s.inner.entries := by
      rw [h.entries, mem_reverse]
      exact mem_map_of_mem hl
    have hmarks : (!l.read && decide (l.id ∈ ids)) = false :=
      Bool.eq_false_iff.2 (any_eq_false.1 hnone _ hentry)
    have hread : (l.read || decide (l.id ∈ ids)) = l.read := by
      cases hl : l.read <;> simp_all
    rw [markLetter, hread]
  have hfiles : (m.markRead ids).files = m.files := congrArg (· ++ m.strays) hsame
  exact ⟨⟨hsame ▸ h.index, hfiles ▸ h.files, hsame ▸ h.readable⟩, h.next, hsame ▸ h.entries⟩

/-- What is listed can be read. -/
theorem OnDisk.get (h : OnDisk json parser d m)
    (hentries : s.inner.entries = (m.letters.map (Letter.entry parser)).reverse) {e : MailSummary}
    (he : e ∈ s.inner.entries) :
    ∃ mail, (s.get parser e.id).result d = .returned (.ok (some mail)) := by
  have hlisted : (s.inner.entries.any fun e' => e'.id = e.id) = true :=
    any_eq_true.2 ⟨e, he, by simp⟩
  rw [hentries, mem_reverse] at he
  obtain ⟨l, hl, rfl⟩ := mem_map.1 he
  have hfile : d[emlFile l.id]? = some l.raw :=
    (h.files l.id l.raw).2 ⟨l, mem_append_left _ hl, rfl, rfl⟩
  have hread : (Script.read (emlFile (l.entry parser).id)).result d = .ok l.raw :=
    Script.result_read_some hfile
  refine ⟨(parser.parse l.raw).detail (l.entry parser).id l.raw, ?_⟩
  simp [Store.get, hlisted, hread, detail, h.readable l hl]

theorem Holds.get_ok (h : Holds json parser s d m) (id : Str) :
    ∃ found, (s.get parser id).result d = .returned (.ok found) := by
  cases hany : s.inner.entries.any fun e => e.id = id with
  | false => exact ⟨none, by simp [Store.get, hany]⟩
  | true =>
    obtain ⟨e, he, rfl⟩ : ∃ e ∈ s.inner.entries, e.id = id := by simpa using hany
    obtain ⟨mail, hmail⟩ := h.toOnDisk.get h.entries he
    exact ⟨some mail, hmail⟩

theorem Holds.planned (hjson : json.Faithful) (h : Holds json parser s d m) {c : Call}
    (hp : s.plan parser c = some p) (hroom : m.received < 2 ^ 64) :
    (s.call json parser c).result d = (p.outcome, { s with inner := p.inner }) ∧
      Holds json parser { s with inner := p.inner } ((s.call json parser c).final d)
        (m.apply parser.accepts s.cap c) := by
  obtain ⟨index, hwrite, hread⟩ := hjson p.inner.entries
  obtain ⟨hresult, htrace⟩ := call_of_plan hp hwrite d
  refine ⟨hresult, ?_⟩
  rw [Script.final, htrace]
  cases c with
  | append raw =>
    obtain rfl := Option.some.inj hp
    cases hraw : parser.accepts raw with
    | true =>
      rw [m.apply_accepted s.cap hraw]
      exact h.append hraw hroom hread
    | false =>
      rw [m.apply_rejected s.cap hraw]
      exact h.miss hraw hroom
  | deleteMany ids =>
    obtain rfl := Option.some.inj hp
    refine h.keep (fun id => ?_) ?_ hread
    · rw [h.mem_ids fun id => decide (id ∈ ids)]
      simp only [Bool.not_not]
    · rw [h.entries, filter_reverse, filter_map]
      rfl
  | markRead ids =>
    simp only [plan, Option.ite_none_right_eq_some, Option.some.injEq] at hp
    obtain ⟨-, rfl⟩ := hp
    exact h.markRead ids hread
  | clear =>
    obtain rfl := Option.some.inj hp
    refine h.keep (fun id => ?_) (by simp) hread
    have hall := h.mem_ids (fun _ => true) id
    rwa [filter_true] at hall
  | list | count | counts | get => cases hp

theorem Holds.unplanned (h : Holds json parser s d m) {c : Call} (hp : s.plan parser c = none) :
    (∃ answer, ((s.call json parser c).result d).1 = .returned (.ok answer)) ∧
      Holds json parser s d (m.apply parser.accepts s.cap c) := by
  cases c with
  | append | deleteMany | clear => cases hp
  | markRead ids =>
    simp only [Store.plan, ite_eq_right_iff, reduceCtorEq, imp_false] at hp
    refine ⟨⟨.done, ?_⟩, h.markRead_of_none (by simpa using hp)⟩
    simp [Store.call, Store.markRead, hp, Store.changed, Outcome.map, Except.map]
  | list | count | counts => exact ⟨⟨_, rfl⟩, h⟩
  | get id =>
    obtain ⟨found, hfound⟩ := h.get_ok id
    exact ⟨⟨.mail found, by simp [Store.call, hfound, Outcome.map, Except.map]⟩, h⟩

/-! ## Runs -/

/-- A store and the directory it works on. -/
structure Running where
  store : Store
  disk : Dir

/-- A store and its directory, once it is opened. -/
def openAt (json : JsonCrate) (dir : Path) (cap : Nat) (d : Dir) : Except MailError Running :=
  ((openWithCap json dir cap).result d).map fun store =>
    ⟨store, (openWithCap json dir cap).final d⟩

namespace Running

/-- After a panic the store is used on, as after an answer. -/
def call (json : JsonCrate) (parser : MessageParser) (r : Running) (c : Call) :
    Except MailError Running :=
  match (r.store.call json parser c).result r.disk with
  | (.returned (.error e), _) => .error e
  | (_, store) => .ok ⟨store, (r.store.call json parser c).final r.disk⟩

/-- The calls one after another, as long as none of them fails. -/
def calls (json : JsonCrate) (parser : MessageParser) (r : Running) (cs : List Call) :
    Except MailError Running := cs.foldlM (call json parser) r

end Running

/-- No call fails, and each leaves what it makes of the mailbox. -/
theorem Holds.call (hjson : json.Faithful) {r : Running} (h : Holds json parser r.store r.disk m)
    (c : Call) (hroom : m.received < 2 ^ 64) :
    ∃ r', r.call json parser c = .ok r' ∧ r'.store.cap = r.store.cap ∧
      r'.disk = (r.store.call json parser c).final r.disk ∧
      Holds json parser r'.store r'.disk (m.apply parser.accepts r.store.cap c) := by
  cases hp : r.store.plan parser c with
  | some p =>
    obtain ⟨hresult, hholds⟩ := h.planned hjson hp hroom
    refine ⟨⟨{ r.store with inner := p.inner }, (r.store.call json parser c).final r.disk⟩, ?_, rfl,
      rfl, hholds⟩
    rw [Running.call, hresult, Store.Plan.outcome]
    cases p.panics <;> rfl
  | none =>
    obtain ⟨hstore, hdisk⟩ : ((r.store.call json parser c).result r.disk).2 = r.store ∧
      (r.store.call json parser c).final r.disk = r.disk := call_of_no_plan hp r.disk
    obtain ⟨⟨answer, hanswer⟩, hholds⟩ := h.unplanned hp
    have hresult : (r.store.call json parser c).result r.disk = (.returned (.ok answer), r.store) :=
      Prod.ext hanswer hstore
    exact ⟨r, by rw [Running.call, hresult, hdisk], rfl, hdisk.symm, hholds⟩

theorem openAt_eq (dir : Path) (cap : Nat) (d : Dir) :
    openAt json dir cap d = .ok
      ⟨{ dir, cap, inner := ⟨indexed json d, seedId (indexed json d) d⟩ }, d⟩ := by
  rw [openAt, openWithCap_result, openWithCap_final]
  rfl

theorem holds_empty (dir : Path) (cap : Nat) :
    Holds json parser { dir, cap, inner := ⟨indexed json ∅, seedId (indexed json ∅) ∅⟩ } ∅
      .empty where
  next := by
    have hkeys : (∅ : Dir).keys = [] := rfl
    simp [indexed, seedId, emlIds, empty, hkeys]
  entries := by simp [indexed, empty]
  index := rfl
  files := by
    intro id data
    simp [empty, files]
  readable := by simp [empty]

theorem Holds.calls (hjson : json.Faithful) {r : Running} (h : Holds json parser r.store r.disk m)
    (cs : List Call) (hroom : m.received + (received cs).length < 2 ^ 64) :
    ∃ r', r.calls json parser cs = .ok r' ∧
      Holds json parser r'.store r'.disk (cs.foldl (Mailbox.apply parser.accepts r.store.cap) m) := by
  induction cs generalizing r m with
  | nil => exact ⟨r, rfl, h⟩
  | cons c cs ih =>
    rw [← singleton_append, received_append, length_append, ← Nat.add_assoc] at hroom
    obtain ⟨r', hcall, hcap, -, hholds⟩ := h.call hjson c (by omega)
    obtain ⟨r'', hr'', hholds'⟩ := ih hholds (by rwa [received_apply])
    rw [hcap] at hholds'
    refine ⟨r'', ?_, hholds'⟩
    rw [Running.calls, foldlM_cons, hcall]
    exact hr''

/-! ## What a run shows -/

/-- A store opened on an empty directory shows what its calls made of it. -/
structure Shows (json : JsonCrate) (parser : MessageParser) (cap : Nat) (calls : List Call)
    (r : Running) : Prop where
  /-- The list is the mailbox, newest first. -/
  listed : r.store.list = (Mailbox.run cap calls).letters.map (Letter.entry parser)
  newestFirst : (Mailbox.run cap calls).letters.Pairwise fun newer older => older.no < newer.no
  distinct : (r.store.list.map MailSummary.id).Nodup
  /-- Messages go only by a deletion, or for newer ones beyond the cap. -/
  kept : ∀ no, (Mailbox.run cap calls).Has no ↔ no < (received calls).length ∧
    (∀ c ∈ since no calls, ¬c.Discards (idText no)) ∧ ¬Evicted cap calls no
  letters : ∀ l ∈ (Mailbox.run cap calls).letters, (received calls)[l.no]? = some l.raw ∧
    (l.read = true ↔ ∃ c ∈ since l.no calls, c.MarksRead l.id)
  /-- The message files are those of the listed messages. -/
  files : ∀ id data, r.disk[emlFile id]? = some data ↔
    ∃ l ∈ (Mailbox.run cap calls).letters, l.id = id ∧ l.raw = data
  /-- A re-opened store lists the same. -/
  reopened : ∀ (dir : Path) (cap' : Nat), ∃ r', openAt json dir cap' r.disk = .ok r' ∧
    r'.disk = r.disk ∧ r'.store.list = r.store.list

theorem Holds.list (h : Holds json parser s d m) :
    s.list = m.letters.map (Letter.entry parser) := by
  rw [Store.list, h.entries, reverse_reverse]

section Shows

variable {cap : Nat} {calls : List Call} {r : Running}
  (h : Holds json parser r.store r.disk (calls.foldl (Mailbox.apply parser.accepts cap) .empty))

include h

/-- A stray's file is there, so its id would have to be listed. -/
theorem Holds.accepted_of_shows (hshows : Shows json parser cap calls r) :
    ∀ raw ∈ received calls, parser.accepts raw = true := by
  intro raw hraw
  by_contra hrejected
  obtain ⟨l, hl, -⟩ := exists_stray cap hraw (Bool.eq_false_iff.2 hrejected) .empty
  have hfile := (h.files l.id l.raw).2 ⟨l, mem_append_right _ hl, rfl, rfl⟩
  obtain ⟨l', hl', hid, -⟩ := (hshows.files l.id l.raw).1 hfile
  have hmem : l.id ∈ r.store.list.map MailSummary.id := by
    rw [hshows.listed, map_id_entry, ← hid]
    exact mem_map_of_mem hl'
  rw [h.list, map_id_entry] at hmem
  exact stray_not_listed hl hmem

theorem Holds.shows_of_accepted (haccepted : ∀ raw ∈ received calls, parser.accepts raw = true) :
    Shows json parser cap calls r := by
  rw [foldl_apply_of_accepted haccepted] at h
  refine ⟨h.list, (run cap calls).ordered, ?_, mem_run_iff cap calls,
    fun l hl => mem_run hl, ?_, ?_⟩
  · have hids : (run cap calls).letters.map Letter.id =
        ((run cap calls).letters.map Letter.no).map idText := by rw [map_map]; rfl
    have hdistinct := (run cap calls).distinct
    rw [map_append] at hdistinct
    rw [h.list, map_id_entry]
    exact hids ▸ hdistinct.of_append_left.map idText_injective
  · have hnone : (run cap calls).files = (run cap calls).letters := by
      rw [files, strays_run, append_nil]
    exact hnone ▸ h.files
  · intro dir' cap'
    refine ⟨_, openAt_eq dir' cap' r.disk, rfl, ?_⟩
    rw [Store.list, Store.list, h.entries]
    exact congrArg reverse h.index

end Shows

/-- What the calls leave of an empty directory. -/
theorem holds_run {json : JsonCrate} (hjson : json.Faithful) (parser : MessageParser) (dir : Path)
    (cap : Nat) (calls : List Call) (hroom : (received calls).length < 2 ^ 64) :
    ∃ r₀ r, openAt json dir cap ∅ = .ok r₀ ∧ r₀.calls json parser calls = .ok r ∧
      Holds json parser r.store r.disk
        (calls.foldl (Mailbox.apply parser.accepts cap) .empty) := by
  rw [← Nat.zero_add (received calls).length] at hroom
  obtain ⟨r, hrun, hholds⟩ := (holds_empty dir cap).calls hjson (r := ⟨_, ∅⟩) calls hroom
  exact ⟨_, r, openAt_eq dir cap ∅, hrun, hholds⟩

/-- For every sequence of calls on an empty directory, fewer than `2 ^ 64` messages
among them: no call fails, and the store shows what they made exactly if the parser
accepts every message. -/
theorem run_shows_iff {json : JsonCrate} (hjson : json.Faithful) (parser : MessageParser)
    (dir : Path) (cap : Nat) (calls : List Call) (hroom : (received calls).length < 2 ^ 64) :
    ∃ r₀ r, openAt json dir cap ∅ = .ok r₀ ∧ r₀.calls json parser calls = .ok r ∧
      (Shows json parser cap calls r ↔ ∀ raw ∈ received calls, parser.accepts raw = true) := by
  obtain ⟨r₀, r, hopen, hrun, hholds⟩ := holds_run hjson parser dir cap calls hroom
  exact ⟨r₀, r, hopen, hrun, hholds.accepted_of_shows, hholds.shows_of_accepted⟩

/-! ## A JSON library to run with -/

instance : Countable MailSummary := by
  have hchar : Function.Injective Char.toNat := fun c c' h => char_eq_iff_toNat.2 h
  have huint : Function.Injective UInt64.toNat := fun n n' h => UInt64.toNat_inj.1 h
  have : Countable Char := hchar.countable
  have : Countable UInt64 := huint.countable
  let fields (e : MailSummary) := (e.id, e.from, e.to, e.subject, e.dateEpoch, e.read)
  have hfields : Function.Injective fields := by
    rintro ⟨⟩ ⟨⟩ h
    simpa [fields] using h
  exact hfields.countable

/-- A text of its own for every list of summaries, none of which is JSON. -/
noncomputable def otherText (entries : List MailSummary) : Bytes :=
  0 :: List.replicate ((exists_injective_nat (List MailSummary)).choose entries) 0

theorem otherText_injective : Function.Injective otherText := by
  intro es es' h
  have hlength := congrArg length h
  simp only [otherText, length_cons, length_replicate, Nat.add_right_cancel_iff] at hlength
  exact (exists_injective_nat (List MailSummary)).choose_spec hlength

/-- A library that writes the known lists as given. -/
noncomputable def jsonOf (known : List (List MailSummary × Bytes)) : JsonCrate where
  toVecPretty entries :=
    match known.find? (·.1 = entries) with
    | some k => .ok k.2
    | none => .ok (otherText entries)
  fromSlice bytes :=
    match known.find? (·.2 = bytes) with
    | some k => .ok k.1
    | none =>
      open Classical in
      if h : ∃ entries, otherText entries = bytes then .ok h.choose
      else .error "expected value"

theorem jsonOf_faithful {known : List (List MailSummary × Bytes)}
    (hnodup : (known.map Prod.snd).Nodup) (hjson : ∀ k ∈ known, k.2.head? ≠ some 0) :
    (jsonOf known).Faithful := by
  intro entries
  cases hfind : known.find? (·.1 = entries) with
  | some k =>
    obtain ⟨hk, hmem⟩ : k.1 = entries ∧ k ∈ known :=
      ⟨by simpa using find?_some hfind, mem_of_find?_eq_some hfind⟩
    refine ⟨k.2, by simp only [jsonOf, hfind], ?_⟩
    have hback : known.find? (·.2 = k.2) = some k :=
      (find?_eq_some_iff_of_nodup hnodup).2 ⟨hmem, rfl⟩
    simp only [jsonOf, hback, hk]
  | none =>
    refine ⟨otherText entries, by simp only [jsonOf, hfind], ?_⟩
    have hback : known.find? (·.2 = otherText entries) = none := by
      rw [find?_eq_none]
      intro k hk heq
      have heq : k.2 = otherText entries := by simpa using heq
      exact hjson k hk (by rw [heq]; rfl)
    have hex : ∃ entries', otherText entries' = otherText entries := ⟨entries, rfl⟩
    simp only [jsonOf, hback, dif_pos hex]
    exact congrArg Except.ok (otherText_injective hex.choose_spec)

/-! ## A run -/

def hello : Bytes := utf8 "From: a@b.c\r\nSubject: Hi\r\n\r\nbody\r\n"

/-- Reads that message, and rejects everything else. -/
def helloParser : MessageParser := fun raw =>
  if raw = hello then
    some { Message.default with
      «from» := some [⟨none, some "a@b.c"⟩], subject := some "Hi", bodyText := some "body\r\n"
      parts := [⟨none, none, none, utf8 "body\r\n"⟩] }
  else none

def helloEntry (read : Bool) : MailSummary := ⟨"000000", "a@b.c", [], "Hi", 0, read⟩

def helloText (read : String) : Bytes :=
  utf8 ("[\n  \x7b\n    \"id\": \"000000\",\n    \"from\": \"a@b.c\",\n    \"to\": [],\n" ++
    "    \"subject\": \"Hi\",\n    \"date_epoch\": 0,\n    \"read\": " ++ read ++ "\n  \x7d\n]")

noncomputable def helloJson : JsonCrate :=
  jsonOf [([], utf8 "[]"), ([helloEntry false], helloText "false"),
    ([helloEntry true], helloText "true")]

theorem helloJson_faithful : helloJson.Faithful :=
  jsonOf_faithful (by decide +kernel) (by decide +kernel)

/-- One message, received and read. -/
theorem run_shows_hello : ∃ r₀ r, openAt helloJson (.ofStr "/mail") 2 ∅ = .ok r₀ ∧
    r₀.calls helloJson helloParser [.append hello, .markRead ["000000".toList], .list] = .ok r ∧
    r.store.list = [helloEntry true] ∧ r.disk[emlFile "000000"]? = some hello := by
  obtain ⟨r₀, r, hopen, hrun, hiff⟩ := run_shows_iff helloJson_faithful helloParser (.ofStr "/mail")
    2 [.append hello, .markRead ["000000".toList], .list] (by decide)
  have hshows := hiff.2 (by decide +kernel)
  refine ⟨r₀, r, hopen, hrun, ?_, ?_⟩
  · rw [hshows.listed]
    decide +kernel
  · rw [hshows.files]
    exact ⟨⟨0, hello, true⟩, by decide +kernel, by decide +kernel, rfl⟩

/-- A message without headers. -/
def headless : Bytes := utf8 "Hi\r\n"

/-- It makes the call panic: its file is there, and it is not listed. -/
theorem run_hides_headless : helloJson.Faithful ∧
    ∃ r₀ r, openAt helloJson (.ofStr "/mail") 200 ∅ = .ok r₀ ∧
      ((r₀.store.call helloJson helloParser (.append headless)).result r₀.disk).1 = .panicked ∧
      r₀.calls helloJson helloParser [.append headless] = .ok r ∧
      r.store.list = [] ∧ r.disk[emlFile "000000"]? = some headless ∧
      ¬Shows helloJson helloParser 200 [.append headless] r := by
  have hrejected : helloParser.accepts headless = false := by decide +kernel
  obtain ⟨r₀, r, hopen, hrun, hholds⟩ := holds_run helloJson_faithful helloParser (.ofStr "/mail") 200
    [.append headless] (by decide)
  refine ⟨helloJson_faithful, r₀, r, hopen, ?_, hrun, ?_, ?_, ?_⟩
  · simp [Store.call, Store.append, Store.changed, summary, hrejected, Outcome.map]
  · rw [hholds.list]
    decide +kernel
  · exact (hholds.files "000000" headless).2 ⟨⟨0, headless, false⟩, by decide +kernel, by decide, rfl⟩
  · intro hshows
    have := hholds.accepted_of_shows hshows headless mem_cons_self
    rw [hrejected] at this
    cases this

end Orcker.Mail
