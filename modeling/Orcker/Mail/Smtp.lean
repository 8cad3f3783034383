import Orcker.Base.Lines
import Orcker.Base.Path

/-!
# Receiving a message

A sender doubles the dot at the start of a line, so that no line of a message is taken for the dot
that ends it.
-/

namespace Orcker.Mail

open Base List

structure RawMessage where
  envelopeFrom : Str
  recipients : List Str
  raw : Bytes
  deriving DecidableEq

/-- What is answered to a command. -/
inductive Reply where
  | line (text : Str)
  | startData (text : Str)
  | close (text : Str)
  deriving DecidableEq

/-- The envelope of the next message. -/
structure Session where
  sender : Option Str
  recipients : List Str
  deriving DecidableEq

namespace Session

def new : Session := ⟨none, []⟩

def greeting : Str := "220 orcker mail capture ready\r\n"

/-- What stands in angle brackets, or else behind the first colon. -/
def extractAddress (line : Str) : Str :=
  let afterColon : Str :=
    match splitOnce ':' line with
    | some (_, rest) => trim rest
    | none => []
  match splitOnce '<' line, rsplitOnce '>' line with
  | some (before, _), some (upTo, _) =>
    -- The last `>` may stand before the first `<`.
    if before.length + 1 ≤ upTo.length then trim (upTo.drop (before.length + 1)) else afterColon
  | _, _ => afterColon

/-- One command of the exchange. -/
def command (s : Session) (line : Str) : Reply × Session :=
  let trimmed := (line.reverse.dropWhile fun c => c = '\r' || c = '\n').reverse
  let verb := ((splitWhitespace trimmed).head?.getD []).map Char.toUpper
  if verb = "HELO" ∨ verb = "EHLO" then (.line "250 orcker\r\n", s)
  else if verb = "MAIL" then
    (.line "250 OK\r\n", { recipients := [], sender := some (extractAddress trimmed) })
  else if verb = "RCPT" then
    (.line "250 OK\r\n", { s with recipients := s.recipients ++ [extractAddress trimmed] })
  else if verb = "DATA" then
    if s.recipients.isEmpty then (.line "503 RCPT first\r\n", s)
    else (.startData "354 End data with <CR><LF>.<CR><LF>\r\n", s)
  else if verb = "RSET" then (.line "250 OK\r\n", new)
  else if verb = "NOOP" then (.line "250 OK\r\n", s)
  else if verb = "QUIT" then (.close "221 Bye\r\n", s)
  else if verb = [] then (.line "500 Syntax error\r\n", s)
  else (.line "250 OK\r\n", s)

end Session

def carriageReturn : UInt8 := 13

def unstuffFrom (atLineStart : Bool) : Bytes → Bytes
  | [] => []
  | b :: s =>
    if atLineStart && b == dot then unstuffFrom false s else b :: unstuffFrom (b == newline) s

def unstuff (data : Bytes) : Bytes := unstuffFrom true data

/-- Takes the message and the envelope, which starts anew. -/
def Session.finishData (s : Session) (data : Bytes) : RawMessage × Session :=
  (⟨s.sender.getD [], s.recipients, unstuff data⟩, new)

/-- What a sender makes of a message: a line that starts with a dot gets another one. -/
def stuffFrom (atLineStart : Bool) : Bytes → Bytes
  | [] => []
  | b :: s =>
    if atLineStart && b == dot then dot :: dot :: stuffFrom false s
    else b :: stuffFrom (b == newline) s

def stuff (m : Bytes) : Bytes := stuffFrom true m

theorem unstuffFrom_stuffFrom (start : Bool) (m : Bytes) :
    unstuffFrom start (stuffFrom start m) = m := by
  induction m generalizing start with
  | nil => rfl
  | cons b m ih =>
    unfold stuffFrom
    split_ifs with h
    · obtain ⟨rfl, hb⟩ : start = true ∧ b = dot := by simpa using h
      rw [hb]
      simp [unstuffFrom, ih, show (dot == newline) = false from rfl]
    · rw [unstuffFrom, if_neg h, ih]

/-- The receiver takes the doubled dots out again. -/
theorem unstuff_stuff (m : Bytes) : unstuff (stuff m) = m := unstuffFrom_stuffFrom true m

/-- Dots are taken out as the bytes come in. -/
theorem unstuffFrom_take (start : Bool) (s : Bytes) (n : Nat) :
    unstuffFrom start (s.take n) <+: unstuffFrom start s := by
  induction s generalizing start n with
  | nil => simp
  | cons b s ih =>
    cases n with
    | zero => exact nil_prefix
    | succ n =>
      rw [take_succ_cons]
      unfold unstuffFrom
      split_ifs
      · exact ih false n
      · exact cons_prefix_cons.2 ⟨rfl, ih _ n⟩

theorem getLast?_stuffFrom (start : Bool) (m : Bytes) :
    (stuffFrom start m).getLast? = m.getLast? := by
  induction m generalizing start with
  | nil => rfl
  | cons b m ih =>
    unfold stuffFrom
    split_ifs with h
    · obtain ⟨-, rfl⟩ : start = true ∧ b = dot := by simpa using h
      rw [getLast?_cons_cons, getLast?_cons, getLast?_cons, ih]
    · rw [getLast?_cons, getLast?_cons, ih]

theorem stuffFrom_false (m : Bytes) :
    takeLine (stuffFrom false m) = takeLine m ∧
      dropLine (stuffFrom false m) = stuff (dropLine m) := by
  induction m with
  | nil => exact ⟨rfl, rfl⟩
  | cons b m ih =>
    simp only [stuffFrom, Bool.false_and, Bool.false_eq_true, if_false, takeLine, dropLine]
    by_cases hb : b = newline
    · subst hb
      exact ⟨rfl, rfl⟩
    · simp only [if_neg hb, beq_eq_false_iff_ne.2 hb, ih]
      exact ⟨trivial, trivial⟩

def maxMessageBytes : Nat := 25 * 1024 * 1024

/-- How the client's side ends: it is closed, or reading it fails. -/
inductive Ending where
  | closed
  | failed
  deriving DecidableEq

def IsTerminator (line : Bytes) : Prop :=
  line = [dot, carriageReturn, newline] ∨ line = [dot, newline]

instance (line : Bytes) : Decidable (IsTerminator line) := inferInstanceAs (Decidable (_ ∨ _))

/-- The data, still with its doubled dots, and the lines behind it; `none` when reading fails. -/
def readData (ending : Ending) (data : Bytes) (capped : Bool) :
    List Bytes → Option (Bytes × List Bytes)
  | [] =>
    match ending with
    | .closed => some (data, [])
    | .failed => none
  | line :: rest =>
    if IsTerminator line then some (data, rest)
    else if capped then readData ending data capped rest
    else if maxMessageBytes < data.length + line.length then
      readData ending (data ++ line.take (maxMessageBytes - data.length)) true rest
    else readData ending (data ++ line) false rest

variable {ls : List Bytes}

section ReadData

variable {ending : Ending} {data : Bytes} {capped : Bool}

theorem take_take_append (a b : Bytes) (n : Nat) : (a.take n ++ b).take n = (a ++ b).take n := by
  rw [take_append, take_append, take_take, Nat.min_self, length_take]
  congr 2
  omega

/-- A message that is too long is cut, and its lines are still read up to the end. -/
theorem readData_append (hls : ∀ line ∈ ls, ¬IsTerminator line)
    (hroom : data.length ≤ maxMessageBytes) (hcapped : capped → data.length = maxMessageBytes)
    (rest : List Bytes) : ∃ capped' : Bool,
      (capped' → ((data ++ ls.flatten).take maxMessageBytes).length = maxMessageBytes) ∧
      readData ending data capped (ls ++ rest) =
        readData ending ((data ++ ls.flatten).take maxMessageBytes) capped' rest := by
  induction ls generalizing data capped with
  | nil =>
    have htake : (data ++ ([] : List Bytes).flatten).take maxMessageBytes = data := by
      rw [flatten_nil, append_nil, take_of_length_le hroom]
    exact ⟨capped, by rwa [htake], by rw [htake, nil_append]⟩
  | cons line ls ih =>
    obtain ⟨hline, hls⟩ := forall_mem_cons.1 hls
    -- What is kept of the line, and whether the rest of the data is passed over.
    have hstep : ∀ {kept : Bytes} {full : Bool},
        readData ending data capped (line :: (ls ++ rest)) =
          readData ending kept full (ls ++ rest) →
        kept = (data ++ line).take maxMessageBytes →
        (full → kept.length = maxMessageBytes) → ∃ capped' : Bool,
          (capped' → ((data ++ (line :: ls).flatten).take maxMessageBytes).length =
            maxMessageBytes) ∧
          readData ending data capped (line :: ls ++ rest) =
            readData ending ((data ++ (line :: ls).flatten).take maxMessageBytes) capped' rest := by
      intro kept full hread hkept hfull
      obtain ⟨capped', hlen, heq⟩ := ih hls (hkept ▸ length_take_le _ _) hfull
      have htake : (kept ++ ls.flatten).take maxMessageBytes =
          (data ++ (line :: ls).flatten).take maxMessageBytes := by
        rw [hkept, flatten_cons, ← append_assoc]
        exact take_take_append ..
      rw [htake] at hlen heq
      exact ⟨capped', hlen, hread.trans heq⟩
    by_cases hc : capped = true
    · refine hstep (by rw [readData, if_neg hline, if_pos hc]) ?_ hcapped
      rw [← hcapped hc, take_left]
    · by_cases hlong : maxMessageBytes < data.length + line.length
      · refine hstep (by rw [readData, if_neg hline, if_neg hc, if_pos hlong]) ?_ fun _ => ?_
        · rw [take_append, take_of_length_le hroom]
        · rw [length_append, length_take]
          omega
      · refine hstep (by rw [readData, if_neg hline, if_neg hc, if_neg hlong]) ?_ (by simp)
        rw [take_of_length_le (by rw [length_append]; omega)]

theorem readData_start (hls : ∀ line ∈ ls, ¬IsTerminator line) (rest : List Bytes) :
    ∃ capped : Bool, readData ending [] false (ls ++ rest) =
      readData ending (ls.flatten.take maxMessageBytes) capped rest := by
  have hroom : ([] : Bytes).length ≤ maxMessageBytes := Nat.zero_le _
  have hopen : false = true → ([] : Bytes).length = maxMessageBytes := fun h => by cases h
  obtain ⟨capped, -, hread⟩ := readData_append hls hroom hopen rest
  exact ⟨capped, hread⟩

theorem readData_terminated (hls : ∀ line ∈ ls, ¬IsTerminator line) {last : Bytes}
    (hlast : IsTerminator last) (rest : List Bytes) :
    readData ending [] false (ls ++ last :: rest) =
      some (ls.flatten.take maxMessageBytes, rest) := by
  obtain ⟨capped, hread⟩ := readData_start hls (last :: rest)
  rw [hread, readData, if_pos hlast]

/-- Data that is not ended: a closed connection ends it like a dot does. -/
theorem readData_open (hls : ∀ line ∈ ls, ¬IsTerminator line) :
    readData ending [] false ls =
      match ending with
      | .closed => some (ls.flatten.take maxMessageBytes, [])
      | .failed => none := by
  obtain ⟨capped, hread⟩ := readData_start hls []
  rw [append_nil] at hread
  rw [hread]
  cases ending <;> rfl

end ReadData

/-- A message of lines that end in CRLF: nothing stands behind the last of them, and every line feed
stands behind a carriage return. -/
structure CrlfText (m : Bytes) : Prop where
  ended : m = [] ∨ [carriageReturn, newline] <:+ m
  paired : List.IsChain (fun a b => b = newline → a = carriageReturn) (0 :: m)

theorem not_isTerminator_of_head? {line : Bytes} (h : line.head? ≠ some dot) :
    ¬IsTerminator line := by
  rintro (rfl | rfl) <;> exact h rfl

theorem takeLine_stuff {m : Bytes} (hm : m ≠ []) :
    ¬IsTerminator (takeLine (stuff m)) ∧ dropLine (stuff m) = stuff (dropLine m) := by
  cases m with
  | nil => exact absurd rfl hm
  | cons b m =>
    obtain ⟨htake, hdrop⟩ := stuffFrom_false m
    by_cases hdot : b = dot
    · -- Behind the first dot comes another one.
      subst hdot
      have hstuff : stuff (dot :: m) = dot :: dot :: stuffFrom false m := rfl
      have hne : dot ≠ newline := by decide
      simp only [hstuff, takeLine, dropLine, if_neg hne, hdrop, and_true]
      rintro (h | h) <;> simp [dot, carriageReturn, newline] at h
    · have hstuff : stuff (b :: m) = b :: stuffFrom (b == newline) m := by
        simp [stuff, stuffFrom, hdot]
      by_cases hb : b = newline
      · subst hb
        rw [hstuff, takeLine, if_pos rfl]
        exact ⟨not_isTerminator_of_head? (by decide), rfl⟩
      · simp only [hstuff, takeLine, dropLine, if_neg hb, beq_eq_false_iff_ne.2 hb, hdrop, and_true]
        exact not_isTerminator_of_head? (by simpa using hdot)

theorem not_isTerminator_stuff (m : Bytes) : ∀ line ∈ linesOf (stuff m), ¬IsTerminator line := by
  induction hn : m.length using Nat.strong_induction_on generalizing m with
  | _ n ih =>
    by_cases hm : m = []
    · subst hm
      simp [stuff, stuffFrom, linesOf]
    · obtain ⟨hfirst, hrest⟩ := takeLine_stuff hm
      have hne : stuff m ≠ [] := by
        intro hnil
        have := unstuff_stuff m
        rw [hnil] at this
        exact hm this.symm
      rw [linesOf_eq_cons hne, hrest]
      exact forall_mem_cons.2
        ⟨hfirst, ih _ (hn ▸ length_dropLine_lt hm) (dropLine m) rfl⟩

/-- Reading a message that was sent with doubled dots and a dot behind it stops right behind that
dot's line. A message that fits is received as it was; of a longer one, the front that fits. -/
theorem data_transparent (ending : Ending) (session : Session) {m : Bytes} (hm : CrlfText m)
    (t : Bytes) :
    ∃ data, readData ending [] false
        (linesOf (stuff m ++ [dot, carriageReturn, newline] ++ t)) = some (data, linesOf t) ∧
      ((stuff m).length ≤ maxMessageBytes → (session.finishData data).1.raw = m) ∧
      data.length ≤ maxMessageBytes ∧ data <+: stuff m ∧
      (session.finishData data).1.raw <+: m := by
  have hend : stuff m = [] ∨ (stuff m).getLast? = some newline := by
    rcases hm.ended with rfl | ⟨front, rfl⟩
    · exact Or.inl rfl
    · right
      rw [stuff, getLast?_stuffFrom]
      simp
  have hlines : linesOf (stuff m ++ [dot, carriageReturn, newline] ++ t) =
      linesOf (stuff m) ++ [dot, carriageReturn, newline] :: linesOf t := by
    rw [append_assoc, linesOf_append hend, linesOf_append (Or.inr rfl)]
    rfl
  refine ⟨(stuff m).take maxMessageBytes, ?_, ?_, ?_, ?_, ?_⟩
  · rw [hlines, readData_terminated (not_isTerminator_stuff m) (Or.inl rfl), flatten_linesOf]
  · intro hfits
    rw [take_of_length_le hfits]
    exact unstuff_stuff m
  · exact length_take_le _ _
  · exact take_prefix _ _
  · have hfront := unstuffFrom_take true (stuff m) maxMessageBytes
    rw [show unstuffFrom true (stuff m) = m from unstuff_stuff m] at hfront
    exact hfront

/-- A message whose second line is a lone dot. -/
theorem data_transparent_dot :
    CrlfText [72, 105, 13, 10, 46, 13, 10] ∧ ∃ data,
      readData .closed [] false
        (linesOf (stuff [72, 105, 13, 10, 46, 13, 10] ++ [dot, carriageReturn, newline] ++
          [81, 85, 73, 84])) = some (data, linesOf [81, 85, 73, 84]) ∧
        (Session.new.finishData data).1.raw = [72, 105, 13, 10, 46, 13, 10] := by
  have htext : CrlfText [72, 105, 13, 10, 46, 13, 10] := ⟨by decide, by decide⟩
  obtain ⟨data, hread, hraw, -⟩ := data_transparent .closed .new htext [81, 85, 73, 84]
  exact ⟨htext, data, hread, hraw (by decide)⟩

end Orcker.Mail
