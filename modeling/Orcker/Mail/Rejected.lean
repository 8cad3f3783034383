import Orcker.Mail.Contents

/-!
# Messages the store rejects

Capturing a message writes its file, takes it into the list, removes the files of the oldest
messages and replaces the index, in this order; each of these can fail. After the first the message
is listed, and old ones are gone, whatever becomes of the index. On bytes that are no message the
call panics in between, and so never fails.
-/

namespace Orcker.Mail

open Base Script List Store

variable {json : JsonCrate} {parser : MessageParser}

section Index

variable {s : Store} {entries : List MailSummary} {index : Bytes}

theorem writeIndex_attempt (h : json.toVecPretty entries = .ok index) (faults : Nat → Fate)
    (n : Nat) (d : Dir) :
    (((s.writeIndex json entries).attempt faults n d).1 = .ok () ↔
        faults n = .performed ∧ faults (n + 1) = .performed) ∧
      ∀ id, ((s.writeIndex json entries).attempt faults n d).2.2[emlFile id]? =
        d[emlFile id]? := by
  have htmp : ∀ fault id, ((FileOp.write indexTmp index).attempt fault d).2[emlFile id]? =
      d[emlFile id]? := fun fault id =>
    FileOp.getElem?_attempt_of_notMem (by simp [FileOp.touches, emlFile_ne_indexTmp]) fault d
  have hmoved : ∀ fault d id, ((FileOp.rename indexTmp indexFile).attempt fault d).2[emlFile id]? =
      d[emlFile id]? := fun fault d id =>
    FileOp.getElem?_attempt_of_notMem
      (by simp [FileOp.touches, emlFile_ne_indexTmp, emlFile_ne_indexFile]) fault d
  simp only [writeIndex, h, attempt_bind, attempt_write]
  cases hwrite : faults n with
  | refused e => exact ⟨by simp [FileOp.attempt, attempt_pure], fun id => rfl⟩
  | broken e written =>
    exact ⟨by simp [FileOp.attempt, attempt_pure], fun id => htmp (.broken e written) id⟩
  | performed =>
    have hthere : indexTmp ∈ (FileOp.write indexTmp index).effect d := by simp [FileOp.effect]
    have hwritten := htmp .performed
    simp only [FileOp.attempt, FileOp.answer, attempt_bind, attempt_rename] at hwritten ⊢
    cases hrename : faults (n + 1) with
    | refused | broken => exact ⟨by simp [attempt_pure], fun id => hwritten id⟩
    | performed =>
      simp only [if_pos hthere, attempt_pure, true_and, and_self]
      exact fun id => (hmoved .performed _ id).trans (hwritten id)

end Index

theorem drop_concat_eq_iff {α : Type} {l : List α} {a : α} {n : Nat} :
    (l ++ [a]).drop (l.length + 1 - n) = l ↔ n = l.length ∧ ∀ x ∈ l, x = a := by
  constructor
  · intro h
    have hlength := congrArg length h
    rw [length_drop, length_append, length_singleton] at hlength
    obtain rfl : n = l.length := by omega
    refine ⟨rfl, ?_⟩
    rw [Nat.add_sub_cancel_left] at h
    clear hlength
    -- Shifting the list by one leaves it as it is, so each element equals the next one.
    induction l with
    | nil => simp
    | cons y l ih =>
      have htail : l ++ [a] = y :: l := by simpa using h
      have hrest : ∀ x ∈ l, x = a := ih (by rw [htail]; rfl)
      refine forall_mem_cons.2 ⟨?_, hrest⟩
      cases l with
      | nil => exact (cons.inj htail).1.symm
      | cons z l => exact (cons.inj htail).1 ▸ hrest z mem_cons_self
  · rintro ⟨rfl, hall⟩
    have hl : l = replicate l.length a := eq_replicate_of_mem hall
    have hl' : l ++ [a] = a :: l := by
      rw [hl, ← replicate_succ', replicate_succ]
    rw [Nat.add_sub_cancel_left, hl']
    rfl

namespace Store

variable (s : Store) (faults : Nat → Fate) (d : Dir) (raw : Bytes)

def newId : Str := idText s.inner.nextId

/-- How many messages have to go. -/
def evicted : Nat := evictCount (s.inner.entries.length + 1) s.cap

/-- The call under a schedule of faults: its answer, the store and the directory left. -/
def appendUnder (json : JsonCrate) (parser : MessageParser) :
    Outcome Unit × Store × Dir :=
  let r := (s.append json parser raw).attempt faults 0 d
  (r.1.1, { s with inner := r.1.2 }, r.2.2)

/-- The lists, the counts and the message files are what they were. -/
def Unchanged (s' : Store) (d' : Dir) : Prop :=
  s'.list = s.list ∧ s'.counts = s.counts ∧ ∀ id, d'[emlFile id]? = d[emlFile id]?

theorem unchanged_iff {s' : Store} {d' : Dir} :
    s.Unchanged d s' d' ↔
      s'.inner.entries = s.inner.entries ∧ ∀ id, d'[emlFile id]? = d[emlFile id]? := by
  constructor
  · rintro ⟨hlist, -, hfiles⟩
    exact ⟨reverse_injective hlist, hfiles⟩
  · rintro ⟨hentries, hfiles⟩
    refine ⟨?_, ?_, hfiles⟩
    · rw [list, hentries, list]
    · rw [counts, hentries, counts]

/-- The files of the messages that go are removed, as far as that succeeds. -/
def afterRemoval (parser : MessageParser) : Dir :=
  ((removeFiles ((s.inner.entries ++ [(parser.parse raw).summary s.newId]).take s.evicted)).attempt
    faults 1 (d.insert (emlFile s.newId) raw)).2.2

variable {s} {faults} {d} {raw}

/-- Without faults it is the call on a directory that never fails. -/
theorem appendUnder_of_performed (json : JsonCrate) (parser : MessageParser) (s : Store) (d : Dir)
    (raw : Bytes) (h : ∀ n, faults n = .performed) :
    s.appendUnder faults d raw json parser =
      (((s.append json parser raw).result d).1,
        { s with inner := ((s.append json parser raw).result d).2 },
        (s.append json parser raw).final d) := by
  obtain ⟨hresult, hfinal⟩ := attempt_performed h (s.append json parser raw) 0 d
  rw [appendUnder, hresult, hfinal]

theorem appendUnder_failed (json : JsonCrate) (parser : MessageParser) (s : Store) (d : Dir)
    (raw : Bytes) (h : faults 0 ≠ .performed) :
    (∃ e, (s.appendUnder faults d raw json parser).1 = .returned (.error e)) ∧
      (s.appendUnder faults d raw json parser).2.1.inner.entries = s.inner.entries ∧
      (s.appendUnder faults d raw json parser).2.2 =
        ((FileOp.write (emlFile s.newId) raw).attempt (faults 0) d).2 := by
  obtain ⟨e, he⟩ : ∃ e, ((FileOp.write (emlFile s.newId) raw).attempt (faults 0) d).1 =
      .error e := by
    cases hfault : faults 0 with
    | performed => exact absurd hfault h
    | refused e | broken e => exact ⟨e, rfl⟩
  rw [newId] at he ⊢
  simp only [appendUnder, append, attempt_bind, attempt_write, he, attempt_pure, and_true]
  exact ⟨_, rfl⟩

theorem appendUnder_panics (json : JsonCrate) (s : Store) (d : Dir) (h : faults 0 = .performed)
    (hraw : parser.accepts raw = false) :
    (s.appendUnder faults d raw json parser).1 = .panicked := by
  simp [appendUnder, append, attempt_bind, attempt_write, h, FileOp.attempt, FileOp.answer,
    attempt_pure, summary, hraw]

theorem appendUnder_performed (hjson : json.Faithful) (s : Store) (d : Dir)
    (h : faults 0 = .performed) (hraw : parser.accepts raw = true) :
    ((∃ e, (s.appendUnder faults d raw json parser).1 = .returned (.error e)) ↔
        ¬(faults (s.evicted + 1) = .performed ∧ faults (s.evicted + 2) = .performed)) ∧
      (s.appendUnder faults d raw json parser).2.1.inner.entries =
        (s.inner.entries ++ [(parser.parse raw).summary s.newId]).drop s.evicted ∧
      ∀ id, (s.appendUnder faults d raw json parser).2.2[emlFile id]? =
        (s.afterRemoval faults d raw parser)[emlFile id]? := by
  obtain ⟨index, hindex, -⟩ :=
    hjson ((s.inner.entries ++ [(parser.parse raw).summary s.newId]).drop s.evicted)
  have hnumber : ((removeFiles ((s.inner.entries ++ [(parser.parse raw).summary s.newId]).take
      s.evicted)).attempt faults 1 (d.insert (emlFile s.newId) raw)).2.1 = s.evicted + 1 := by
    rw [removeFiles, attempt_each_number, length_map, length_take, length_append,
      length_singleton, evicted, evictCount]
    omega
  obtain ⟨hok, hfiles⟩ := writeIndex_attempt (s := s) hindex faults (s.evicted + 1)
    (s.afterRemoval faults d raw parser)
  let kept := (s.inner.entries ++ [(parser.parse raw).summary s.newId]).drop s.evicted
  let saved := (s.writeIndex json kept).attempt faults (s.evicted + 1)
    (s.afterRemoval faults d raw parser)
  have hcall : s.appendUnder faults d raw json parser =
      (.returned saved.1, { s with inner := ⟨kept, (s.inner.nextId + 1) % 2 ^ 64⟩ }, saved.2.2) := by
    have hevicted : evictCount (s.inner.entries ++ [(parser.parse raw).summary s.newId]).length s.cap =
        s.evicted := by rw [length_append, length_singleton, evicted]
    simp only [saved, kept]
    rw [← hnumber, afterRemoval]
    simp only [← hevicted, newId]
    simp only [appendUnder, append, attempt_bind, attempt_write, h, FileOp.attempt, FileOp.answer,
      FileOp.effect, attempt_pure, zero_add, summary, hraw, ↓reduceIte]
  rw [hcall]
  refine ⟨?_, rfl, hfiles⟩
  rw [← hok]
  cases saved.1 <;> simp

/-- The message's own file cannot be written, and nothing was written of it that was not there; or
the call panics, or does not fail. And there is a store that a message passes through: its list is
full of entries like the new one, which goes again at once, and the new file leaves no trace. -/
def Spared (parser : MessageParser) (s : Store) (faults : Nat → Fate) (d : Dir) (raw : Bytes) :
    Prop :=
  match faults 0 with
  | .refused _ => True
  | .broken _ written => d[emlFile s.newId]? = some (raw.take written)
  | .performed => parser.accepts raw = false ∨
    (faults (s.evicted + 1) = .performed ∧ faults (s.evicted + 2) = .performed) ∨
      (s.cap = s.inner.entries.length ∧
        (∀ e ∈ s.inner.entries, e = (parser.parse raw).summary s.newId) ∧
        d[emlFile s.newId]? = if faults 1 = .performed then none else some raw)

theorem forall_insert_iff {id : Str} {data : Bytes} :
    (∀ id', (d.insert (emlFile id) data)[emlFile id']? = d[emlFile id']?) ↔
      d[emlFile id]? = some data := by
  constructor
  · intro h
    rw [← h id, OrdMap.getElem?_insert, if_pos rfl]
  · intro h id'
    rw [OrdMap.getElem?_insert]
    split_ifs with hid
    · rw [hid, h]
    · rfl

theorem afterRemoval_unchanged_iff (hcap : s.cap = s.inner.entries.length)
    (hall : ∀ e ∈ s.inner.entries, e = (parser.parse raw).summary s.newId) :
    (∀ id, (s.afterRemoval faults d raw parser)[emlFile id]? = d[emlFile id]?) ↔
      d[emlFile s.newId]? = if faults 1 = .performed then none else some raw := by
  have hevicted : s.evicted = 1 := by
    rw [evicted, evictCount, hcap, Nat.add_sub_cancel_left]
  have hgone : (s.inner.entries ++ [(parser.parse raw).summary s.newId]).take s.evicted =
      [(parser.parse raw).summary s.newId] := by
    rw [hevicted]
    cases hentries : s.inner.entries with
    | nil => rfl
    | cons e entries =>
      rw [hall e (hentries ▸ mem_cons_self)]
      rfl
  have hdir : s.afterRemoval faults d raw parser =
      ((FileOp.remove (emlFile s.newId)).attempt (faults 1)
        (d.insert (emlFile s.newId) raw)).2 := by
    rw [afterRemoval, hgone]
    rfl
  rw [hdir]
  by_cases hremoved : faults 1 = .performed
  · rw [if_pos hremoved, hremoved]
    simp only [FileOp.attempt, FileOp.effect, OrdMap.getElem?_erase, OrdMap.getElem?_insert]
    constructor
    · intro h
      rw [← h s.newId, if_pos rfl]
    · intro h id
      split_ifs with hid
      · rw [hid, h]
      · rfl
  · have hkept : ((FileOp.remove (emlFile s.newId)).attempt (faults 1)
        (d.insert (emlFile s.newId) raw)).2 = d.insert (emlFile s.newId) raw := by
      cases hfault : faults 1 with
      | performed => exact absurd hfault hremoved
      | refused | broken => rfl
    rw [if_neg hremoved, hkept]
    exact forall_insert_iff

end Store

/-- A call that fails leaves the list, the counts and the message files as they were, exactly if
`Spared`. -/
theorem rejected_unchanged_iff (hjson : json.Faithful) (parser : MessageParser) (s : Store)
    (faults : Nat → Fate) (d : Dir) (raw : Bytes) :
    ((∃ e, (s.appendUnder faults d raw json parser).1 = .returned (.error e)) →
        s.Unchanged d (s.appendUnder faults d raw json parser).2.1
          (s.appendUnder faults d raw json parser).2.2) ↔
      Store.Spared parser s faults d raw := by
  rw [unchanged_iff, Store.Spared]
  by_cases hfile : faults 0 = .performed
  · cases hraw : parser.accepts raw with
    | false =>
      have hpanics := appendUnder_panics json s d hfile hraw
      simp [hpanics, hfile]
    | true =>
      obtain ⟨hfails, hentries, hfiles⟩ := appendUnder_performed hjson s d hfile hraw
      have hlist : (s.inner.entries ++ [(parser.parse raw).summary s.newId]).drop s.evicted =
          s.inner.entries ↔ s.cap = s.inner.entries.length ∧
            ∀ e ∈ s.inner.entries, e = (parser.parse raw).summary s.newId := drop_concat_eq_iff
      simp only [hfails, hentries, hfiles, hfile, hlist, Bool.true_eq_false, false_or]
      constructor
      · intro h
        by_cases hindex : faults (s.evicted + 1) = .performed ∧ faults (s.evicted + 2) = .performed
        · exact Or.inl hindex
        · obtain ⟨⟨hcap, hall⟩, hsame⟩ := h hindex
          exact Or.inr ⟨hcap, hall, (afterRemoval_unchanged_iff hcap hall).1 hsame⟩
      · rintro (hindex | ⟨hcap, hall, hsame⟩) hfail
        · exact absurd hindex hfail
        · exact ⟨⟨hcap, hall⟩, (afterRemoval_unchanged_iff hcap hall).2 hsame⟩
  · obtain ⟨hfails, hentries, hdir⟩ := appendUnder_failed json parser s d raw hfile
    simp only [hfails, hentries, hdir, true_implies, true_and]
    cases hfault : faults 0 with
    | performed => exact absurd hfault hfile
    | refused e => exact ⟨fun _ => trivial, fun _ id => rfl⟩
    | broken e written => exact forall_insert_iff

/-- One message, and no room for another one. -/
def fullStore : Store := ⟨.ofStr "/mail", 1, [helloEntry false], 1⟩

def fullDir : Dir := (∅ : Dir).insert (emlFile "000000") hello

/-- The operation with this number fails. -/
def failsAt (number n : Nat) : Fate :=
  if n = number then .refused (.other "No space left on device") else .performed

/-- The message's file cannot be written: nothing changes. -/
theorem rejected_unchanged_full :
    fullStore.Unchanged fullDir
      (fullStore.appendUnder (failsAt 0) fullDir hello helloJson helloParser).2.1
      (fullStore.appendUnder (failsAt 0) fullDir hello helloJson helloParser).2.2 :=
  (rejected_unchanged_iff helloJson_faithful helloParser fullStore (failsAt 0) fullDir hello).2
    trivial (appendUnder_failed helloJson helloParser fullStore fullDir hello (by decide)).1

/-- The index cannot be replaced: the call fails, and the store now lists the message that was
rejected and has lost the one it held. -/
theorem rejected_message_captured :
    helloJson.Faithful ∧
      (∃ e, (fullStore.appendUnder (failsAt 3) fullDir hello helloJson helloParser).1 =
        .returned (.error e)) ∧
      fullStore.list = [helloEntry false] ∧
      (fullStore.appendUnder (failsAt 3) fullDir hello helloJson helloParser).2.1.list =
        [{ helloEntry false with id := "000001" }] ∧
      fullDir[emlFile "000000"]? = some hello ∧
      (fullStore.appendUnder (failsAt 3) fullDir hello helloJson helloParser).2.2[
        emlFile "000000"]? = none := by
  obtain ⟨hfails, hentries, hfiles⟩ := appendUnder_performed helloJson_faithful fullStore
    fullDir (show failsAt 3 0 = .performed from rfl)
    (show helloParser.accepts hello = true by decide +kernel)
  refine ⟨helloJson_faithful, hfails.2 (by decide +kernel), rfl, ?_, by decide +kernel, ?_⟩
  · rw [list, hentries]
    decide +kernel
  · rw [hfiles]
    decide +kernel

end Orcker.Mail
