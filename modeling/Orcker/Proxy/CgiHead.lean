import Orcker.Base.Chunks
import Orcker.Proxy.Http

/-!
# Incremental CGI response heads

PHP-FPM answers with STDOUT records whose leading bytes are a CGI header block ending at a blank
line.
-/

namespace Orcker.Proxy

open Base List

/-- A CGI `Status:` value, `200 OK` or a bare `200`. -/
def parseCgiStatus (value : Str) : Option StatusCode :=
  let code := match splitOnce ' ' value with
    | some (code, _) => code
    | none => value
  (parseUInt 65535 code).bind StatusCode.fromU16

/-- Status and headers collected so far, and one more line of the block. -/
def parseLine (found : StatusCode × List (Str × Str)) (rawLine : Bytes) :
    StatusCode × List (Str × Str) :=
  let line := (lossy rawLine).rdropWhile (· = '\r')
  if line.isEmpty then found
  else
    match splitOnce ':' line with
    | none => found
    | some (name, value) =>
      let name := trim name
      let value := trim value
      if lower name = lower "Status".toList then
        match parseCgiStatus value with
        | some code => (code, found.2)
        | none => found
      else (found.1, found.2 ++ [(name, value)])

/-- A header block: `Status:` drives the code, every other line with a colon is
a header, decoded on its own so that a bad byte costs only that line. -/
def parseHead (head : Bytes) : StatusCode × List (Str × Str) :=
  (head.splitOn 10).foldl parseLine (StatusCode.ok, [])

def maxHeadBytes : Nat := 64 * 1024

/-- Bytes a rescan revisits: one less than the longest terminator. -/
def terminatorOverlap : Nat := 3

def crlfBlank : Bytes := [13, 10, 13, 10]

def lfBlank : Bytes := [10, 10]

/-- The terminator at offset `i`, if one starts there, as `(offset, length)`. -/
def terminatorHere (buf : Bytes) (i : Nat) : Option (Nat × Nat) :=
  if slice? buf i (i + 4) = some crlfBlank then some (i, 4)
  else if slice? buf i (i + 2) = some lfBlank then some (i, 2)
  else none

/-- The first terminator at offset `start` or later. -/
def findHeaderTerminator (buf : Bytes) (start : Nat) : Option (Nat × Nat) :=
  (List.range' start (buf.length - start)).findSome? (terminatorHere buf)

structure Head where
  status : StatusCode
  headers : List (Str × Str)
  bodyRemainder : Bytes
  deriving DecidableEq

/-- What is known after one more record. -/
inductive HeadFeed where
  | pending
  | complete (head : Head)
  | tooLarge
  deriving DecidableEq

/-- Buffers the records until the blank line is found, rescanning only the last three bytes of what
it already held. -/
structure HeadAccumulator where
  buf : Bytes

namespace HeadAccumulator

def new : HeadAccumulator := ⟨[]⟩

/-- Add `chunk` and rescan for the terminator. -/
def feed (acc : HeadAccumulator) (chunk : Bytes) : HeadAccumulator × HeadFeed :=
  let scanFrom := acc.buf.length - terminatorOverlap
  let buf := acc.buf ++ chunk
  let outcome := match findHeaderTerminator buf scanFrom with
    | some (offset, terminatorLen) =>
      let parsed := parseHead (buf.take offset)
      .complete
        { status := parsed.1
          headers := parsed.2
          bodyRemainder := (buf.drop offset).drop terminatorLen }
    | none => if buf.length > maxHeadBytes then .tooLarge else .pending
  (⟨buf⟩, outcome)

/-- The response ended without a blank line: everything buffered is the head. -/
def finish (acc : HeadAccumulator) : Head :=
  let parsed := parseHead acc.buf
  { status := parsed.1, headers := parsed.2, bodyRemainder := [] }

/-- The answers to a sequence of feeds, in order. -/
def outcomes (acc : HeadAccumulator) : List Bytes → List HeadFeed
  | [] => []
  | chunk :: chunks => (acc.feed chunk).2 :: (acc.feed chunk).1.outcomes chunks

end HeadAccumulator

/-- A terminator of length `n` starts at offset `i` of the stream. -/
def TerminatorAt (s : Bytes) (i n : Nat) : Prop :=
  (n = 4 ∧ crlfBlank <+: s.drop i) ∨ (n = 2 ∧ lfBlank <+: s.drop i)

/-- The terminator with the smallest starting offset. -/
def FirstTerminator (s : Bytes) (i n : Nat) : Prop :=
  TerminatorAt s i n ∧ ∀ j m, TerminatorAt s j m → i ≤ j

namespace TerminatorAt

variable {s t : Bytes} {i j n m : Nat}

theorem length_bounds (h : TerminatorAt s i n) : 2 ≤ n ∧ n ≤ 4 ∧ i + n ≤ s.length := by
  have hlen : ∀ p : Bytes, p ≠ [] → p <+: s.drop i → i + p.length ≤ s.length := by
    intro p hp hpre
    have hpos := length_pos_iff.2 hp
    have hle := hpre.length_le
    rw [length_drop] at hle
    omega
  rcases h with ⟨rfl, h⟩ | ⟨rfl, h⟩
  · exact ⟨by omega, by omega, hlen crlfBlank (by decide) h⟩
  · exact ⟨by omega, by omega, hlen lfBlank (by decide) h⟩

theorem append (h : TerminatorAt s i n) (t : Bytes) : TerminatorAt (s ++ t) i n := by
  have hi : i ≤ s.length := by
    have := h.length_bounds
    omega
  rcases h with ⟨hn, h⟩ | ⟨hn, h⟩
  · exact Or.inl ⟨hn, isPrefix_drop_append t hi h⟩
  · exact Or.inr ⟨hn, isPrefix_drop_append t hi h⟩

theorem of_append (h : TerminatorAt (s ++ t) i n) (hle : i + n ≤ s.length) :
    TerminatorAt s i n := by
  rcases h with ⟨rfl, h⟩ | ⟨rfl, h⟩
  · exact Or.inl ⟨rfl, isPrefix_drop_of_append hle h⟩
  · exact Or.inr ⟨rfl, isPrefix_drop_of_append hle h⟩

theorem getElem? (h : TerminatorAt s i n) :
    (n = 4 ∧ s[i]? = some 13 ∧ s[i + 1]? = some 10 ∧ s[i + 2]? = some 13 ∧ s[i + 3]? = some 10) ∨
      (n = 2 ∧ s[i]? = some 10 ∧ s[i + 1]? = some 10) := by
  rcases h with ⟨hn, rest, h⟩ | ⟨hn, rest, h⟩
  · left
    refine ⟨hn, ?_, ?_, ?_, ?_⟩
    all_goals
      first
      | rw [← Nat.add_zero i, ← getElem?_drop, ← h]; rfl
      | rw [← getElem?_drop, ← h]; rfl
  · right
    refine ⟨hn, ?_, ?_⟩
    · rw [← Nat.add_zero i, ← getElem?_drop, ← h]
      rfl
    · rw [← getElem?_drop, ← h]
      rfl

theorem end_le (h : TerminatorAt s i n) (h' : TerminatorAt s j m) (hij : i ≤ j) :
    i + n ≤ j + m ∧ (i = j → n = m) := by
  rcases h.getElem? with ⟨rfl, h0, h1, h2, -⟩ | ⟨rfl, h0, h1⟩
  · rcases h'.getElem? with ⟨rfl, -⟩ | ⟨rfl, g0, g1⟩
    · exact ⟨by omega, fun _ => rfl⟩
    · -- `\n\n` cannot start inside the first three bytes of `\r\n\r\n`
      have hne : i ≠ j := by
        rintro rfl
        rw [h0] at g0
        cases g0
      have hne' : i + 1 ≠ j := by
        rintro rfl
        rw [h2] at g1
        cases g1
      exact ⟨by omega, fun heq => absurd heq hne⟩
  · rcases h'.getElem? with ⟨rfl, g0, -⟩ | ⟨rfl, -⟩
    · refine ⟨by omega, ?_⟩
      rintro rfl
      rw [h0] at g0
      cases g0
    · exact ⟨by omega, fun _ => rfl⟩

end TerminatorAt

variable {buf : Bytes} {i start n : Nat}

theorem terminatorHere_eq_some_iff {p : Nat × Nat} :
    terminatorHere buf i = some p ↔ p.1 = i ∧ TerminatorAt buf i p.2 := by
  have hcrlf : slice? buf i (i + 4) = some crlfBlank ↔ crlfBlank <+: buf.drop i :=
    slice?_eq_some_iff (p := crlfBlank) (by decide)
  have hlf : slice? buf i (i + 2) = some lfBlank ↔ lfBlank <+: buf.drop i :=
    slice?_eq_some_iff (p := lfBlank) (by decide)
  obtain ⟨k, n⟩ := p
  unfold terminatorHere
  constructor
  · intro h
    split at h
    · rename_i hc
      cases h
      exact ⟨rfl, Or.inl ⟨rfl, hcrlf.1 hc⟩⟩
    · split at h
      · rename_i hl
        cases h
        exact ⟨rfl, Or.inr ⟨rfl, hlf.1 hl⟩⟩
      · cases h
  · rintro ⟨rfl, h⟩
    by_cases hc : crlfBlank <+: buf.drop k
    · have hn : n = 4 := (h.end_le (Or.inl ⟨rfl, hc⟩) le_rfl).2 rfl
      rw [if_pos (hcrlf.2 hc), hn]
    · rcases h with ⟨-, h⟩ | ⟨hn, h⟩
      · exact absurd h hc
      · cases hn
        rw [if_neg (fun hs => hc (hcrlf.1 hs)), if_pos (hlf.2 h)]

theorem terminatorHere_eq_none_iff : terminatorHere buf i = none ↔ ∀ n, ¬TerminatorAt buf i n := by
  rw [Option.eq_none_iff_forall_ne_some]
  constructor
  · intro h n hn
    exact h (i, n) (terminatorHere_eq_some_iff.2 ⟨rfl, hn⟩)
  · intro h p hp
    exact h p.2 (terminatorHere_eq_some_iff.1 hp).2

theorem findHeaderTerminator_eq_none_iff :
    findHeaderTerminator buf start = none ↔ ∀ i n, start ≤ i → ¬TerminatorAt buf i n := by
  unfold findHeaderTerminator
  rw [findSome?_eq_none_iff]
  constructor
  · intro h i n hi hat
    have hbound := hat.length_bounds
    refine terminatorHere_eq_none_iff.1 (h i ?_) n hat
    rw [mem_range'_1]
    omega
  · intro h i hi
    rw [mem_range'_1] at hi
    exact terminatorHere_eq_none_iff.2 fun n => h i n hi.1

theorem findHeaderTerminator_eq_some (h : findHeaderTerminator buf start = some (i, n)) :
    start ≤ i ∧ TerminatorAt buf i n ∧ ∀ j m, start ≤ j → TerminatorAt buf j m → i ≤ j := by
  unfold findHeaderTerminator at h
  obtain ⟨before, k, after, hsplit, hk, hbefore⟩ := findSome?_eq_some_iff.1 h
  obtain ⟨rfl, hat⟩ := terminatorHere_eq_some_iff.1 hk
  -- the offsets scanned before `i` are exactly those from `start` on
  obtain ⟨len, -, rfl, hafter⟩ := range'_eq_append_iff.1 hsplit
  have hi : i = start + len := by
    have hhead := congrArg head? hafter
    rw [head?_cons, head?_range'] at hhead
    split at hhead
    · cases hhead
    · have := Option.some.inj hhead
      omega
  refine ⟨by omega, hat, ?_⟩
  intro j m hj hjat
  by_contra hlt
  refine terminatorHere_eq_none_iff.1 (hbefore j ?_) m hjat
  rw [mem_range'_1]
  omega

theorem findHeaderTerminator_of_first (hstart : start ≤ i) (hat : TerminatorAt buf i n)
    (hfirst : ∀ j m, start ≤ j → TerminatorAt buf j m → i ≤ j) :
    findHeaderTerminator buf start = some (i, n) := by
  cases hfind : findHeaderTerminator buf start with
  | none => exact absurd hat (findHeaderTerminator_eq_none_iff.1 hfind i n hstart)
  | some p =>
    obtain ⟨hk, hkat, hkfirst⟩ := findHeaderTerminator_eq_some (i := p.1) (n := p.2) hfind
    have hik : i = p.1 := Nat.le_antisymm (hfirst _ _ hk hkat) (hkfirst _ _ hstart hat)
    have hn : n = p.2 := (hat.end_le hkat hik.le).2 hik
    rw [hik, hn]

/-- The head of a stream whose terminator of length `n` starts at `i`. -/
def headAt (s : Bytes) (i n : Nat) : Head :=
  { status := (parseHead (s.take i)).1
    headers := (parseHead (s.take i)).2
    bodyRemainder := s.drop (i + n) }

theorem headAt_append {s : Bytes} (h : i + n ≤ s.length) (t : Bytes) :
    headAt (s ++ t) i n =
      { headAt s i n with bodyRemainder := (headAt s i n).bodyRemainder ++ t } := by
  unfold headAt
  rw [take_append_of_le_length (by omega), drop_append_of_le_length h]

variable {acc : HeadAccumulator} {chunks : List Bytes}

namespace HeadAccumulator

theorem feed_buf (acc : HeadAccumulator) (chunk : Bytes) :
    (acc.feed chunk).1.buf = acc.buf ++ chunk := rfl

/-- Rescanning three bytes back is rescanning everything: a terminator that the
old buffer did not hold ends beyond it, and is at most four bytes long. -/
theorem feed_resumes (h : ∀ i n, ¬TerminatorAt acc.buf i n) (chunk : Bytes) :
    (acc.feed chunk).2 = (new.feed (acc.buf ++ chunk)).2 := by
  have hlate : ∀ i n, TerminatorAt (acc.buf ++ chunk) i n →
      acc.buf.length - terminatorOverlap ≤ i := by
    intro i n hat
    have hbound := hat.length_bounds
    by_contra hlt
    refine h i n (hat.of_append ?_)
    unfold terminatorOverlap at hlt
    omega
  have hscan : findHeaderTerminator (acc.buf ++ chunk) (acc.buf.length - terminatorOverlap) =
      findHeaderTerminator (acc.buf ++ chunk) 0 := by
    cases hfind : findHeaderTerminator (acc.buf ++ chunk) 0 with
    | none =>
      rw [findHeaderTerminator_eq_none_iff] at hfind ⊢
      exact fun i n _ => hfind i n (Nat.zero_le i)
    | some p =>
      obtain ⟨-, hat, hfirst⟩ := findHeaderTerminator_eq_some (i := p.1) (n := p.2) hfind
      exact findHeaderTerminator_of_first (hlate _ _ hat) hat
        fun j m _ => hfirst j m (Nat.zero_le j)
  unfold feed
  simp only [hscan]
  rfl

theorem feed_of_first {s : Bytes} {i n : Nat} (h : FirstTerminator s i n) :
    (new.feed s).2 = .complete (headAt s i n) := by
  have hfind : findHeaderTerminator s 0 = some (i, n) :=
    findHeaderTerminator_of_first (Nat.zero_le i) h.1 fun j m _ => h.2 j m
  show (match findHeaderTerminator s 0 with | some (offset, terminatorLen) => _ | none => _) = _
  rw [hfind, headAt, ← drop_drop]
  rfl

theorem feed_of_none {s : Bytes} (h : ∀ i n, ¬TerminatorAt s i n) :
    (new.feed s).2 = if maxHeadBytes < s.length then .tooLarge else .pending := by
  have hfind : findHeaderTerminator s 0 = none :=
    findHeaderTerminator_eq_none_iff.2 fun i n _ => h i n
  show (match findHeaderTerminator s 0 with | some (offset, terminatorLen) => _ | none => _) = _
  rw [hfind]
  rfl

theorem outcomes_append (acc : HeadAccumulator) (xs ys : List Bytes) :
    acc.outcomes (xs ++ ys) = acc.outcomes xs ++ outcomes ⟨acc.buf ++ xs.flatten⟩ ys := by
  induction xs generalizing acc with
  | nil => rw [flatten_nil, append_nil]; rfl
  | cons x xs ih =>
    show (acc.feed x).2 :: (acc.feed x).1.outcomes (xs ++ ys) = _
    rw [ih, feed_buf, flatten_cons, append_assoc]
    rfl

theorem outcomes_of_none (h : ∀ i n, ¬TerminatorAt (acc.buf ++ chunks.flatten) i n) {k : Nat}
    (hk : k < chunks.length) :
    (acc.outcomes chunks)[k]? = some
      (if maxHeadBytes < (acc.buf ++ (chunks.take (k + 1)).flatten).length then .tooLarge
        else .pending) := by
  induction chunks generalizing acc k with
  | nil => cases hk
  | cons c cs ih =>
    have hacc : ∀ i n, ¬TerminatorAt acc.buf i n :=
      fun i n hat => h i n (hat.append _)
    have hfed : ∀ i n, ¬TerminatorAt (acc.buf ++ c) i n := by
      intro i n hat
      refine h i n ?_
      rw [flatten_cons, ← append_assoc]
      exact hat.append _
    cases k with
    | zero =>
      show some (acc.feed c).2 = _
      rw [feed_resumes hacc, feed_of_none hfed]
      simp
    | succ k =>
      show ((acc.feed c).1.outcomes cs)[k]? = _
      rw [ih (by rwa [feed_buf, append_assoc, ← flatten_cons])
        (Nat.lt_of_succ_lt_succ hk)]
      rw [feed_buf, take_succ_cons, flatten_cons, append_assoc]

theorem length_outcomes (acc : HeadAccumulator) (chunks : List Bytes) :
    (acc.outcomes chunks).length = chunks.length := by
  induction chunks generalizing acc with
  | nil => rfl
  | cons c cs ih =>
    show ((acc.feed c).1.outcomes cs).length + 1 = cs.length + 1
    rw [ih]

theorem outcomes_of_pending (h : ∀ i n, ¬TerminatorAt chunks.flatten i n)
    (hcap : chunks.flatten.length ≤ maxHeadBytes) :
    new.outcomes chunks = List.replicate chunks.length .pending := by
  refine ext_getElem? fun k => ?_
  by_cases hk : k < chunks.length
  · -- every initial part of the stream is at most as long as the whole
    have hle : (chunks.take (k + 1)).flatten.length ≤ chunks.flatten.length := by
      conv_rhs => rw [← take_append_drop (k + 1) chunks, flatten_append]
      rw [length_append]
      omega
    rw [@outcomes_of_none new chunks h k hk, getElem?_replicate, if_pos hk, if_neg]
    show ¬maxHeadBytes < (chunks.take (k + 1)).flatten.length
    omega
  · rw [getElem?_eq_none (by rw [length_outcomes]; omega),
      getElem?_eq_none (by rw [length_replicate]; omega)]

end HeadAccumulator

/-- However a stream is cut into chunks, feeding them finds the head of the
whole stream, and what the feeds and the chunks not yet fed leave is its body;
a stream without a terminator is refused once it passes the cap. -/
theorem feed_chunks (chunks : List Bytes) :
    (∀ i n, FirstTerminator chunks.flatten i n → i + n ≤ maxHeadBytes →
      ∃ before chunk after head remainder,
        chunks = before ++ chunk :: after ∧
        HeadAccumulator.new.outcomes (before ++ [chunk]) =
          List.replicate before.length .pending ++ [.complete head] ∧
        (HeadAccumulator.new.feed chunks.flatten).2 =
          .complete { head with bodyRemainder := remainder } ∧
        head.bodyRemainder ++ after.flatten = chunks.flatten.drop (i + n)) ∧
    ((∀ i n, ¬TerminatorAt chunks.flatten i n) →
      ∀ k, k < chunks.length →
        (HeadAccumulator.new.outcomes chunks)[k]? = some
          (if maxHeadBytes < (chunks.take (k + 1)).flatten.length then .tooLarge
            else .pending)) := by
  constructor
  · intro i n hfirst hcap
    have hbound := hfirst.1.length_bounds
    obtain ⟨before, chunk, after, rfl, hlt, hle⟩ := exists_crossing (by omega) hbound.2.2
    have hcut : (before ++ chunk :: after).flatten = (before.flatten ++ chunk) ++ after.flatten := by
      simp
    rw [hcut] at hfirst ⊢
    -- the buffer up to `chunk` has the terminator, the one before it has none
    have hhere : FirstTerminator (before.flatten ++ chunk) i n :=
      ⟨hfirst.1.of_append hle, fun j m hat => hfirst.2 j m (hat.append _)⟩
    have hnone : ∀ j m, ¬TerminatorAt before.flatten j m := by
      intro j m hat
      have hend := (hhere.1.end_le (hat.append chunk) (hhere.2 j m (hat.append chunk))).1
      have hlen := hat.length_bounds
      omega
    have hpending := HeadAccumulator.outcomes_of_pending hnone (by omega)
    refine ⟨before, chunk, after, headAt (before.flatten ++ chunk) i n,
      (headAt (before.flatten ++ chunk) i n).bodyRemainder ++ after.flatten, rfl, ?_, ?_, ?_⟩
    · rw [HeadAccumulator.outcomes_append, hpending]
      show _ ++ [(HeadAccumulator.feed ⟨before.flatten⟩ chunk).2] = _
      rw [HeadAccumulator.feed_resumes hnone, HeadAccumulator.feed_of_first hhere]
    · rw [HeadAccumulator.feed_of_first hfirst, headAt_append hle]
    · exact (drop_append_of_le_length hle).symm
  · intro hnone k hk
    exact @HeadAccumulator.outcomes_of_none HeadAccumulator.new chunks hnone k hk

end Orcker.Proxy
