import Orcker.Mail.Ids

/-!
# Crashes of a store

A process may stop between any two file operations of a call. The index is replaced in one step, so
it always opens; but a call removes message files before it rewrites the index, and in between the
index lists messages that are gone. At most the file of a message that was just captured is there
and not listed.
-/

namespace Orcker.Mail

open Base List Store

variable {json : JsonCrate} {parser : MessageParser}

/-- The directory opens, and every message it lists can be read. -/
def Survives (json : JsonCrate) (parser : MessageParser) (d : Dir) : Prop :=
  ∀ dir cap, ∃ r, openAt json dir cap d = .ok r ∧
    ∀ e ∈ r.store.list, ∃ mail,
      (r.store.get parser e.id).result r.disk = .returned (.ok (some mail))

/-- How many files a call writes before it removes any. -/
def Call.captures : Call → Nat
  | .append _ => 1
  | _ => 0

/-- The listed entries whose files a call removes. A rejected message evicts none. -/
def Store.retires (parser : MessageParser) (s : Store) : Call → List MailSummary
  | .append raw =>
    if parser.accepts raw then
      s.inner.entries.take (evictCount (s.inner.entries.length + 1) s.cap)
    else []
  | .deleteMany ids => s.inner.entries.filter fun e => e.id ∈ ids
  | .clear => s.inner.entries
  | _ => []

/-- How many files a call removes: a store without room also removes the message
it just captured. -/
def Store.removals (parser : MessageParser) (s : Store) : Call → Nat
  | .append raw =>
    if parser.accepts raw then evictCount (s.inner.entries.length + 1) s.cap else 0
  | c => (s.retires parser c).length

/-- The call stops after `n` operations: some listed message's file is removed, and
the index is not replaced. -/
def Store.Torn (parser : MessageParser) (s : Store) (c : Call) (n : Nat) : Prop :=
  s.retires parser c ≠ [] ∧ c.captures < n ∧ n < c.captures + s.removals parser c + 2

instance (s : Store) (c : Call) (n : Nat) : Decidable (s.Torn parser c n) :=
  inferInstanceAs (Decidable (_ ∧ _))

/-- The directory was empty when first opened; since then calls (also such that
panicked), re-openings and crashes outside that window. Fewer than `2 ^ 64` messages
were captured. -/
inductive Reached (json : JsonCrate) (parser : MessageParser) : Running → Prop
  | first {r : Running} (dir : Path) (cap : Nat) (h : openAt json dir cap ∅ = .ok r) :
    Reached json parser r
  | call {r r' : Running} (hr : Reached json parser r) (c : Call)
      (h : r.call json parser c = .ok r') (hroom : r.store.inner.nextId + 1 < 2 ^ 64) :
    Reached json parser r'
  | crash {r r' : Running} (hr : Reached json parser r) (c : Call) (n cap : Nat)
      (hsafe : ¬r.store.Torn parser c n)
      (h : openAt json r.store.dir cap ((r.store.call json parser c).crash n r.disk) = .ok r')
      (hroom : r.store.inner.nextId + 1 < 2 ^ 64) :
    Reached json parser r'

variable {s : Store} {d : Dir} {m : Mailbox}

theorem OnDisk.survives (h : OnDisk json parser d m) : Survives json parser d := by
  intro dir cap
  exact ⟨_, openAt_eq dir cap d, fun e he => h.get h.index (mem_reverse.1 he)⟩

/-- What a re-opened store lists has a file. -/
theorem Survives.mem (h : Survives json parser d) {e : MailSummary} (he : e ∈ indexed json d) :
    emlFile e.id ∈ d := by
  obtain ⟨r, hr, hread⟩ := h (.ofStr "/") 0
  rw [openAt_eq] at hr
  obtain rfl := Except.ok.inj hr
  obtain ⟨mail, hmail⟩ := hread e (mem_reverse.2 he)
  have hlisted : ((indexed json d).any fun e' => e'.id = e.id) = true :=
    any_eq_true.2 ⟨e, he, by simp⟩
  rw [OrdMap.mem_iff_exists]
  cases hfile : d[emlFile e.id]? with
  | some raw => exact ⟨raw, rfl⟩
  | none => simp [Store.get, hlisted, Script.result_read_none hfile] at hmail

variable {c : Call} {r : Running}

theorem getElem?_crash_of_no_plan (hp : s.plan parser c = none) (n : Nat) (d : Dir) (name : Str) :
    ((s.call json parser c).crash n d)[name]? = d[name]? := by
  have hreads : ∀ op ∈ (s.call json parser c).trace d, op.touches = [] := by
    cases c with
    | append | deleteMany | clear => cases hp
    | markRead ids =>
      simp only [Store.plan, ite_eq_right_iff, reduceCtorEq, imp_false] at hp
      simp [Store.call, Store.markRead, hp]
    | list | count | counts => simp [Store.call]
    | get id =>
      simp only [Store.call, Store.get, Script.trace_bind, Script.trace_pure, append_nil]
      split
      · simp
      · cases hread : (Script.read (emlFile id)).result d with
        | error source => simp [hread, FileOp.touches]
        | ok raw => cases hdetail : detail parser id raw <;> simp [hread, hdetail, FileOp.touches]
  refine getElem?_play_of_notMem (fun op hop => ?_) d
  rw [hreads op (mem_of_mem_take hop)]
  exact not_mem_nil

variable {p : Store.Plan} {n : Nat}

theorem Store.Plan.length_ops (p : Store.Plan) (index : Bytes) : (p.ops index).length =
    p.captured.length + p.dropped.length + (if p.panics then 0 else 2) := by
  simp only [ops, reindex, length_append, length_map, Nat.add_assoc]
  cases p.panics <;> rfl

theorem getElem?_crash_of_plan {index : Bytes} (hp : s.plan parser c = some p)
    (hindex : json.toVecPretty p.inner.entries = .ok index)
    (hn : n < (p.ops index).length) (d : Dir) :
    ((s.call json parser c).crash n d)[indexFile]? = d[indexFile]? ∧
      ∀ id, ((s.call json parser c).crash n d)[emlFile id]? =
        if id ∈ (p.dropped.take (n - p.captured.length)).map (·.id) then none
        else (play ((p.captured.take n).map fun file => .write (emlFile file.1) file.2) d)[
          emlFile id]? := by
  have htrace := (call_of_plan hp hindex d).2
  have hops : (p.ops index).take n =
      (p.captured.take n).map (fun file => FileOp.write (emlFile file.1) file.2) ++
        (((p.dropped.take (n - p.captured.length)).map fun e => emlFile e.id).map .remove ++
          (p.reindex index).take (n - p.captured.length - p.dropped.length)) := by
    simp only [Store.Plan.ops, take_append, length_map, map_take, map_map]
    rfl
  -- The index is not replaced yet: at most the file beside it was written.
  have hlast : ∀ op ∈ (p.reindex index).take (n - p.captured.length - p.dropped.length),
      op.touches = [indexTmp] := by
    intro op hop
    rw [p.length_ops] at hn
    cases hpanics : p.panics with
    | true => simp [Store.Plan.reindex, hpanics] at hop
    | false =>
      rw [hpanics, if_neg Bool.false_ne_true] at hn
      rw [Store.Plan.reindex, hpanics, if_neg Bool.false_ne_true] at hop
      have hle : n - p.captured.length - p.dropped.length ≤ 1 := by omega
      have hop := take_subset_take_left _ hle hop
      rw [mem_singleton.1 hop]
      rfl
  unfold Script.crash
  rw [htrace, hops, play_append, play_append]
  refine ⟨?_, fun id => ?_⟩
  · rw [getElem?_play_of_notMem, getElem?_play_remove, if_neg, getElem?_play_of_notMem]
    · intro op hop
      obtain ⟨file, -, rfl⟩ := mem_map.1 hop
      simpa [FileOp.touches] using (emlFile_ne_indexFile file.1).symm
    · intro hmem
      obtain ⟨e, -, he⟩ := mem_map.1 hmem
      exact emlFile_ne_indexFile _ he
    · intro op hop
      rw [hlast op hop]
      decide
  · rw [getElem?_play_of_notMem, getElem?_play_remove]
    · simp only [mem_map, emlFile_inj]
    · intro op hop
      rw [hlast op hop]
      simpa using emlFile_ne_indexTmp id

/-- What a call's plan has to do with the entries listed before it. -/
structure Store.Follows (parser : MessageParser) (s : Store) (c : Call) (p : Store.Plan) :
    Prop where
  captures : p.captured.length = c.captures
  removals : p.dropped.length = s.removals parser c
  /-- Listed entries go first, then possibly the message just captured. -/
  dropped : ∃ rest, p.dropped = s.retires parser c ++ rest ∧
    ∀ e ∈ rest, e.id = idText s.inner.nextId
  retired : ∀ e ∈ s.retires parser c, e ∈ s.inner.entries
  captured : ∀ file ∈ p.captured, file.1 = idText s.inner.nextId
  panics : p.panics = true → s.retires parser c = []

theorem retires_of_no_plan (hp : s.plan parser c = none) : s.retires parser c = [] := by
  cases c with
  | append | deleteMany | clear => cases hp
  | _ => rfl

theorem follows_of_plan (hp : s.plan parser c = some p) : s.Follows parser c p := by
  cases c with
  | append raw =>
    obtain rfl := Option.some.inj hp
    cases hraw : parser.accepts raw with
    | false =>
      have hplan : s.planAppend parser raw = _ := if_neg (Bool.eq_false_iff.1 hraw)
      rw [hplan]
      have hretires : s.retires parser (.append raw) = [] := if_neg (Bool.eq_false_iff.1 hraw)
      exact ⟨rfl, (if_neg (Bool.eq_false_iff.1 hraw)).symm, ⟨[], by rw [hretires]; rfl, by simp⟩,
        by simp [hretires], by simp, fun _ => hretires⟩
    | true =>
      have hplan : s.planAppend parser raw = _ := if_pos hraw
      have hretires : s.retires parser (.append raw) =
        s.inner.entries.take (evictCount (s.inner.entries.length + 1) s.cap) := if_pos hraw
      have hlength : (s.inner.entries ++ [(parser.parse raw).summary (idText s.inner.nextId)]).length =
          s.inner.entries.length + 1 := length_append
      rw [hplan]
      refine ⟨rfl, ?_, ⟨[(parser.parse raw).summary (idText s.inner.nextId)].take
        (evictCount (s.inner.entries.length + 1) s.cap - s.inner.entries.length), ?_, ?_⟩, ?_, ?_,
        by simp⟩
      · show (take (evictCount _ s.cap) _).length = ite _ _ _
        rw [if_pos hraw, hlength, length_take, hlength, evictCount]
        omega
      · show take (evictCount _ s.cap) _ = _ ++ _
        rw [hretires, hlength, take_append]
      · intro e he
        rw [mem_singleton.1 (mem_of_mem_take he)]
        rfl
      · intro e he
        exact mem_of_mem_take (hretires ▸ he)
      · intro file hfile
        rw [mem_singleton.1 hfile]
  | deleteMany ids =>
    obtain rfl := Option.some.inj hp
    exact ⟨rfl, rfl, ⟨[], (append_nil _).symm, by simp⟩, fun e he => mem_of_mem_filter he,
      by rintro _ ⟨⟩, by rintro ⟨⟩⟩
  | markRead ids =>
    simp only [plan, Option.ite_none_right_eq_some, Option.some.injEq] at hp
    obtain ⟨-, rfl⟩ := hp
    exact ⟨rfl, rfl, ⟨[], rfl, by simp⟩, by simp [retires], by rintro _ ⟨⟩,
      by rintro ⟨⟩⟩
  | clear =>
    obtain rfl := Option.some.inj hp
    exact ⟨rfl, rfl, ⟨[], (append_nil _).symm, by simp⟩, fun e he => he, by rintro _ ⟨⟩,
      by rintro ⟨⟩⟩
  | list | count | counts | get => cases hp

/-- With nothing changed but the file of the next message, which may be there now. -/
theorem OnDisk.of_next {d' : Dir} (h : OnDisk json parser d m)
    (hindex : d'[indexFile]? = d[indexFile]?)
    (hfiles : ∀ id, id ≠ idText m.received → d'[emlFile id]? = d[emlFile id]?) :
    ∃ m', OnDisk json parser d' m' ∧ m'.received ≤ m.received + 1 := by
  have hindex := (indexed_congr hindex).trans h.index
  cases hnew : d'[emlFile (idText m.received)]? with
  | none =>
    refine ⟨m, ⟨hindex, fun id data => ?_, h.readable⟩, Nat.le_succ _⟩
    by_cases hid : id = idText m.received
    · subst hid
      rw [hnew]
      refine iff_of_false (Option.some_ne_none data).symm ?_
      rintro ⟨l, hl, hno, -⟩
      exact (m.numbered l hl).ne (idText_injective hno)
    · rw [hfiles id hid, h.files]
  | some raw =>
    refine ⟨m.miss raw, ⟨hindex, fun id data => ?_, h.readable⟩, le_rfl⟩
    have hstray : Stored _ (m.miss raw).files :=
      (h.files.write (m.newest raw) m.numbered).congr fun l => perm_middle.mem_iff
    rw [← hstray id data, OrdMap.getElem?_insert]
    simp only [emlFile_inj]
    split
    · rename_i hid
      rw [hid]
      exact hnew ▸ Iff.rfl
    · rename_i hid
      rw [hfiles id hid]

section Stop

variable {r : Running} (hjson : json.Faithful) (h : Holds json parser r.store r.disk m)
  (hroom : m.received < 2 ^ 64)

include hjson h hroom

theorem Holds.crash {n : Nat} (hsafe : ¬r.store.Torn parser c n) :
    ∃ m', OnDisk json parser ((r.store.call json parser c).crash n r.disk) m' ∧
      m'.received ≤ m.received + 1 := by
  cases hp : r.store.plan parser c with
  | none =>
    have hsame (name : Str) := @getElem?_crash_of_no_plan json parser r.store c hp n r.disk name
    exact h.toOnDisk.of_next (hsame _) fun id _ => hsame _
  | some p =>
    obtain ⟨index, hindex, -⟩ := hjson p.inner.entries
    by_cases hn : n < (p.ops index).length
    · obtain ⟨hsame, hfiles⟩ := getElem?_crash_of_plan hp hindex hn r.disk
      refine h.toOnDisk.of_next hsame fun id hid => ?_
      have hf := follows_of_plan hp
      rw [← h.next_eq hroom] at hid
      -- Only the message just captured can have been removed.
      have hgone : id ∉ (p.dropped.take (n - p.captured.length)).map (·.id) := by
        intro hmem
        obtain ⟨e, he, rfl⟩ := mem_map.1 hmem
        obtain ⟨rest, hdropped, hrest⟩ := hf.dropped
        have hretires : r.store.retires parser c = [] := by
          by_contra hne
          refine hsafe ⟨hne, ?_, ?_⟩
          · by_contra hle
            rw [hf.captures, Nat.sub_eq_zero_of_le (not_lt.1 hle)] at he
            cases he
          · rw [p.length_ops, hf.captures, hf.removals] at hn
            split at hn <;> omega
        rw [hdropped, hretires] at he
        exact hid (hrest e (mem_of_mem_take he))
      rw [hfiles, if_neg hgone]
      refine getElem?_play_of_notMem (fun op hop => ?_) r.disk
      obtain ⟨file, hfile, rfl⟩ := mem_map.1 hop
      have hnew := hf.captured file (mem_of_mem_take hfile)
      simpa [FileOp.touches, emlFile_inj, hnew] using hid
    · obtain ⟨r', -, -, hdisk, hholds⟩ := h.call hjson c hroom
      have hfinal : (r.store.call json parser c).crash n r.disk = r'.disk := by
        rw [hdisk, Script.crash_of_length_le]
        rw [(call_of_plan hp hindex r.disk).2]
        exact not_lt.1 hn
      exact ⟨_, hfinal ▸ hholds.toOnDisk, m.received_apply_le _ _ c⟩

theorem Holds.survives_iff (c : Call) (n : Nat) :
    Survives json parser ((r.store.call json parser c).crash n r.disk) ↔
      ¬r.store.Torn parser c n := by
  constructor
  · rintro hsurvives ⟨hretires, hstart, hend⟩
    cases hp : r.store.plan parser c with
    | none => exact hretires (retires_of_no_plan hp)
    | some p =>
      have hf := follows_of_plan hp
      obtain ⟨index, hindex, -⟩ := hjson p.inner.entries
      have hpanics : p.panics = false := Bool.eq_false_iff.2 fun hpanics => hretires (hf.panics hpanics)
      have hn : n < (p.ops index).length := by
        rw [p.length_ops, hpanics, hf.captures, hf.removals]
        exact hend
      obtain ⟨hsame, hfiles⟩ := getElem?_crash_of_plan hp hindex hn r.disk
      -- The first file removed is that of a listed message.
      obtain ⟨e, retired, heq⟩ := exists_cons_of_ne_nil hretires
      have he : e ∈ indexed json ((r.store.call json parser c).crash n r.disk) := by
        rw [indexed_congr hsame, h.index, ← h.entries]
        exact hf.retired e (heq ▸ mem_cons_self)
      have hgone : e.id ∈ (p.dropped.take (n - p.captured.length)).map (·.id) := by
        obtain ⟨rest, hdropped, -⟩ := hf.dropped
        obtain ⟨k, hk⟩ := Nat.exists_eq_add_of_lt hstart
        rw [hdropped, heq, hf.captures, hk, Nat.add_assoc, Nat.add_sub_cancel_left]
        exact mem_map_of_mem mem_cons_self
      have hfile := hsurvives.mem he
      rw [OrdMap.mem_iff_exists, hfiles, if_pos hgone] at hfile
      obtain ⟨raw, hraw⟩ := hfile
      cases hraw
  · intro hsafe
    obtain ⟨m', hdisk, -⟩ := h.crash hjson hroom hsafe
    exact hdisk.survives

end Stop

theorem Reached.holds (hjson : json.Faithful) {r : Running} (hr : Reached json parser r) :
    ∃ m, Holds json parser r.store r.disk m ∧ m.received < 2 ^ 64 := by
  induction hr with
  | first dir cap h =>
    obtain rfl := Except.ok.inj h
    exact ⟨.empty, holds_empty dir cap, by decide⟩
  | @call r r' hr c h hroom ih =>
    obtain ⟨m, hholds, hlt⟩ := ih
    obtain ⟨r'', hcall, -, -, hholds'⟩ := hholds.call hjson c hlt
    obtain rfl := Except.ok.inj (h.symm.trans hcall)
    rw [hholds.next_eq hlt] at hroom
    exact ⟨_, hholds', (m.received_apply_le _ _ c).trans_lt hroom⟩
  | @crash r r' hr c n cap hsafe h hroom ih =>
    obtain ⟨m, hholds, hlt⟩ := ih
    obtain ⟨m', hdisk, hle⟩ := hholds.crash hjson hlt hsafe
    rw [hholds.next_eq hlt] at hroom
    obtain ⟨r'', hopen, hholds'⟩ := hdisk.reopen (hle.trans_lt hroom) r.store.dir cap
    obtain rfl := Except.ok.inj (h.symm.trans hopen)
    exact ⟨_, hholds', m'.nextAfter_le.trans_lt (hle.trans_lt hroom)⟩

/-- For every state a store can be in, every call and every number of its file
operations after which the process stops: the directory opens again and all it
lists can be read, exactly if the call was not stopped between removing a listed
message's file and replacing the index. -/
theorem crash_survived_iff {json : JsonCrate} (hjson : json.Faithful) {parser : MessageParser}
    {r : Running} (hr : Reached json parser r) (c : Call) (n : Nat) :
    Survives json parser ((r.store.call json parser c).crash n r.disk) ↔
      ¬r.store.Torn parser c n := by
  obtain ⟨m, hholds, hroom⟩ := hr.holds hjson
  exact hholds.survives_iff hjson hroom c n

theorem reached_hello : ∃ r, Reached helloJson helloParser r ∧
    r.store.inner = ⟨[helloEntry false], 1⟩ ∧ r.store.cap = 200 := by
  have hrun : (openAt helloJson (.ofStr "/mail") 200 ∅ >>= fun r =>
      (r.call helloJson helloParser (.append hello)).map fun r' =>
        (r.store.inner.nextId, r'.store.inner, r'.store.cap)) =
      .ok (0, ⟨[helloEntry false], 1⟩, 200) := by decide +kernel
  obtain ⟨r₀, hopen, hrun⟩ := bind_eq_ok_iff.1 hrun
  obtain ⟨r, hcall, heq⟩ := map_eq_ok_iff.1 hrun
  simp only [Prod.mk.injEq] at heq
  have hroom : r₀.store.inner.nextId + 1 < 2 ^ 64 := by
    rw [heq.1]
    decide
  exact ⟨r, .call (.first _ _ hopen) (.append hello) hcall hroom, heq.2.1, heq.2.2⟩

/-- A second message, stopped when its file is written and the index is not. -/
theorem crash_survived_hello : ∃ r, Reached helloJson helloParser r ∧
    r.store.list = [helloEntry false] ∧
    Survives helloJson helloParser
      ((r.store.call helloJson helloParser (.append hello)).crash 2 r.disk) := by
  obtain ⟨r, hr, hinner, hcap⟩ := reached_hello
  refine ⟨r, hr, by rw [list, hinner]; rfl, ?_⟩
  refine (crash_survived_iff helloJson_faithful hr (.append hello) 2).2 ?_
  rintro ⟨hretires, -, -⟩
  rw [retires, hinner, hcap] at hretires
  exact hretires (by decide +kernel)

/-- Clearing one message, stopped after its file is removed: the index still lists
it. -/
theorem crash_loses_hello : helloJson.Faithful ∧ ∃ r, Reached helloJson helloParser r ∧
    ¬Survives helloJson helloParser
      ((r.store.call helloJson helloParser .clear).crash 1 r.disk) := by
  obtain ⟨r, hr, hinner, -⟩ := reached_hello
  refine ⟨helloJson_faithful, r, hr, ?_⟩
  obtain ⟨m, hholds, hroom⟩ := hr.holds helloJson_faithful
  rw [hholds.survives_iff helloJson_faithful hroom, not_not]
  refine ⟨?_, by decide, ?_⟩
  · rw [retires, hinner]
    decide
  · show 1 < 0 + r.store.inner.entries.length + 2
    rw [hinner]
    decide

end Orcker.Mail
