import Orcker.Mail.Contents
import Orcker.Mail.Smtp

/-!
# Serving a connection

A connection is read line by line, and each message that is read is handed to the store. A store
that panics takes the handler with it, so that nothing behind that message is handed over.
-/

namespace Orcker.Mail

open Base List

/-- What a connection has done: the store it leaves, the messages it handed over, the replies it
wrote, and whether it ended in a panic of the store. -/
structure Served (σ : Type) where
  store : σ
  appended : List Bytes
  replies : List Str
  panicked : Bool

variable {ls : List Bytes}

section Handler

variable {σ : Type} (append : Bytes → σ → Outcome Unit × σ) (canWrite : Nat → Bool)
  (ending : Ending)

/-- Writes a reply, if the client still takes it. -/
def Served.reply (out : Served σ) (text : Str) : Option (Served σ) :=
  if canWrite out.replies.length then some { out with replies := out.replies ++ [text] } else none

/-- Hands a message to the store; the reply to give, if any, is about what became of it. -/
def Served.capture (out : Served σ) (raw : Bytes) : Served σ × Option Str :=
  let stored := append raw out.store
  let out := { out with store := stored.2, appended := out.appended ++ [raw] }
  match stored.1 with
  | .returned (.ok ()) => (out, some "250 OK: queued\r\n")
  | .returned (.error _) => (out, some "451 storage error\r\n")
  | .panicked => ({ out with panicked := true }, none)

theorem length_le_of_readData {data data' : Bytes} {capped : Bool} {rest : List Bytes}
    (h : readData ending data capped ls = some (data', rest)) : rest.length ≤ ls.length := by
  induction ls generalizing data capped with
  | nil =>
    cases ending with
    | closed =>
      simp only [readData, Option.some.injEq, Prod.mk.injEq] at h
      simp [← h.2]
    | failed => simp [readData] at h
  | cons line ls ih =>
    rw [readData] at h
    split_ifs at h
    · simp only [Option.some.injEq, Prod.mk.injEq] at h
      simp [h.2]
    all_goals exact (ih h).trans (Nat.le_succ _)

/-- Commands until the client quits, its lines are over, a reply cannot be written or the store
panics. -/
def handleLines (session : Session) (out : Served σ) (ls : List Bytes) : Served σ :=
  match ls with
  | [] => out
  | line :: rest =>
    match session.command (lossy line) with
    | (.line text, session) =>
      match out.reply canWrite text with
      | none => out
      | some out => handleLines session out rest
    | (.close text, _) => (out.reply canWrite text).getD out
    | (.startData text, session) =>
      match out.reply canWrite text with
      | none => out
      | some out =>
        match _h : readData ending [] false rest with
        | none => out
        | some (data, rest') =>
          let (msg, session) := session.finishData data
          match out.capture append msg.raw with
          | (out, none) => out
          | (out, some text) =>
            match out.reply canWrite text with
            | none => out
            | some out => handleLines session out rest'
  termination_by ls.length
  decreasing_by
    · simp
    · have := length_le_of_readData ending _h
      simp only [List.length_cons]
      omega

/-- The lines a reader gets of what the client sent: without its end, when reading fails. -/
def receivedLines (ending : Ending) (sent : Bytes) : List Bytes :=
  match ending with
  | .closed => linesOf sent
  | .failed => (linesOf sent).filter fun line => line.getLast? = some newline

/-- A connection over which these bytes come. -/
def handleConn (store : σ) (sent : Bytes) : Served σ :=
  match Served.reply canWrite ⟨store, [], [], false⟩ Session.greeting with
  | none => ⟨store, [], [], false⟩
  | some out => handleLines append canWrite ending .new out (receivedLines ending sent)

end Handler

/-- Where a client is in the exchange: giving commands, in the middle of a message whose lines so
far are `ls`, or finished. -/
inductive Phase where
  | commands (session : Session)
  | data (ls : List Bytes)
  | finished

/-- The message that lines of data are. -/
def payload (ls : List Bytes) : Bytes := unstuff (ls.flatten.take maxMessageBytes)

/-- A line takes the client on, and may complete a message. -/
def Phase.next : Phase → Bytes → Phase × Option Bytes
  | .commands session, line =>
    match session.command (lossy line) with
    | (.line _, session) => (.commands session, none)
    | (.close _, _) => (.finished, none)
    | (.startData _, _) => (.data [], none)
  | .data ls, line =>
    if IsTerminator line then (.commands .new, some (payload ls))
    else (.data (ls ++ [line]), none)
  | .finished, _ => (.finished, none)

/-- The messages whose last line, a dot, is among the lines. -/
def completed : Phase → List Bytes → List Bytes
  | _, [] => []
  | phase, line :: rest => (phase.next line).2.toList ++ completed (phase.next line).1 rest

/-- Where the client is behind the lines. -/
def Phase.after (phase : Phase) (ls : List Bytes) : Phase :=
  ls.foldl (fun phase line => (phase.next line).1) phase

/-- The front of a message whose connection was closed on the way. -/
def Phase.cutOff (ending : Ending) : Phase → List Bytes
  | .data ls => if ending = .closed then [payload ls] else []
  | _ => []

/-- All that is handed over: the completed messages, and what was cut off. -/
def due (ending : Ending) (phase : Phase) (ls : List Bytes) : List Bytes :=
  completed phase ls ++ (phase.after ls).cutOff ending

section Due

variable {ending : Ending}

theorem due_cons (phase : Phase) (line : Bytes) (rest : List Bytes) :
    due ending phase (line :: rest) =
      (phase.next line).2.toList ++ due ending (phase.next line).1 rest := by
  rw [due, completed, due, append_assoc]
  rfl

theorem due_finished (ls : List Bytes) : due ending .finished ls = [] := by
  induction ls with
  | nil => rfl
  | cons line ls ih =>
    rw [due_cons]
    exact ih

theorem due_data_append {front : List Bytes} (hfront : ∀ line ∈ front, ¬IsTerminator line)
    (ls rest : List Bytes) :
    due ending (.data ls) (front ++ rest) = due ending (.data (ls ++ front)) rest := by
  induction front generalizing ls with
  | nil => rw [nil_append, append_nil]
  | cons line front ih =>
    obtain ⟨hline, hfront⟩ := forall_mem_cons.1 hfront
    have hnext : Phase.next (.data ls) line = (.data (ls ++ [line]), none) := if_neg hline
    rw [cons_append, due_cons, hnext, Option.toList_none, nil_append, ih hfront,
      append_assoc, singleton_append]

theorem due_data (ls : List Bytes) :
    due ending (.data []) ls =
      match readData ending [] false ls with
      | none => []
      | some (data, rest) => unstuff data :: due ending (.commands .new) rest := by
  cases hfind : ls.find? (fun line => decide (IsTerminator line)) with
  | none =>
    have hls : ∀ line ∈ ls, ¬IsTerminator line := by simpa using hfind
    have hdue : due ending (.data []) (ls ++ []) = _ := due_data_append hls [] []
    rw [append_nil, nil_append] at hdue
    rw [hdue, readData_open hls]
    cases ending <;> rfl
  | some last =>
    obtain ⟨hlast, front, rest, rfl, hfront⟩ := find?_eq_some_iff_append.1 hfind
    have hlast : IsTerminator last := by simpa using hlast
    have hfront : ∀ line ∈ front, ¬IsTerminator line := by simpa using hfront
    have hnext : Phase.next (.data front) last = (.commands .new, some (payload front)) :=
      if_pos hlast
    rw [due_data_append hfront, nil_append, due_cons, hnext,
      readData_terminated hfront hlast]
    rfl

theorem due_started {session session' : Session} {line data : Bytes} {rest rest' : List Bytes}
    {text : Str} (hcommand : session.command (lossy line) = (.startData text, session'))
    (hread : readData ending [] false rest = some (data, rest')) :
    due ending (.commands session) (line :: rest) =
      unstuff data :: due ending (.commands .new) rest' := by
  rw [due_cons, Phase.next, hcommand, due_data, hread]
  rfl

end Due

section Handed

variable {σ : Type} {append : Bytes → σ → Outcome Unit × σ} {canWrite : Nat → Bool}
  {ending : Ending}

/-- The messages do not make the store panic when it is given them one after another. -/
def Taken (append : Bytes → σ → Outcome Unit × σ) : σ → List Bytes → Prop
  | _, [] => True
  | store, raw :: rest => (append raw store).1 ≠ .panicked ∧ Taken append (append raw store).2 rest

/-- What the store is once it was given the messages. -/
def given (append : Bytes → σ → Outcome Unit × σ) (store : σ) (msgs : List Bytes) : σ :=
  msgs.foldl (fun st raw => (append raw st).2) store

theorem taken_append {store : σ} {msgs more : List Bytes} :
    Taken append store (msgs ++ more) ↔
      Taken append store msgs ∧ Taken append (given append store msgs) more := by
  induction msgs generalizing store with
  | nil => exact (iff_of_eq (true_and _)).symm
  | cons raw msgs ih =>
    rw [cons_append, Taken, ih, Taken, and_assoc]
    rfl

variable {out : Served σ} {text : Str} {held : Served σ} {store : σ}

/-- The store has been given the messages that were handed over, one after another, and has panicked
exactly if it is said to have. -/
structure Served.Fed (append : Bytes → σ → Outcome Unit × σ) (store : σ) (out : Served σ) :
    Prop where
  store_eq : out.store = given append store out.appended
  panicked : out.panicked = false ↔ Taken append store out.appended

theorem Served.reply_eq {told : Served σ} (h : out.reply canWrite text = some told) :
    told = { out with replies := told.replies } := by
  unfold Served.reply at h
  split at h
  · exact Option.some.inj h ▸ rfl
  · cases h

theorem Served.reply_appended {told : Served σ} (h : out.reply canWrite text = some told) :
    told.appended = out.appended := by
  rw [Served.reply_eq h]

theorem Served.Fed.reply {told : Served σ} (h : out.Fed append store)
    (hreply : out.reply canWrite text = some told) : told.Fed append store := by
  rw [Served.reply_eq hreply]
  exact ⟨h.store_eq, h.panicked⟩

theorem Served.Fed.capture {raw : Bytes} {answer : Option Str} (h : out.Fed append store)
    (hcapture : out.capture append raw = (held, answer)) :
    held.appended = out.appended ++ [raw] ∧ held.Fed append store ∧
      (answer = none → held.panicked = true) := by
  have hstore : (append raw out.store).2 = given append store (out.appended ++ [raw]) := by
    rw [given, foldl_append, h.store_eq]
    rfl
  have htaken : Taken append store (out.appended ++ [raw]) ↔
      out.panicked = false ∧ (append raw out.store).1 ≠ .panicked := by
    rw [taken_append, h.panicked, ← h.store_eq, Taken, Taken, and_true]
  unfold Served.capture at hcapture
  dsimp only at hcapture
  split at hcapture
  all_goals
    rename_i hstored
    obtain ⟨rfl, rfl⟩ := Prod.mk.inj hcapture
    refine ⟨rfl, ⟨hstore, ?_⟩, by simp⟩
    rw [htaken, hstored]
    simp

/-- The front of what is due has been handed over, and all of it if every reply is written and the
store does not panic. -/
def Handed (canWrite : Nat → Bool) (out : Served σ) (wanted : List Bytes) : Prop :=
  out.appended <+: wanted ∧
    ((∀ n, canWrite n = true) → out.panicked = false → out.appended = wanted)

theorem Handed.all (out : Served σ) : Handed canWrite out out.appended :=
  ⟨prefix_rfl, fun _ _ => rfl⟩

theorem Handed.of_reply (h : out.reply canWrite text = none) (more : List Bytes) :
    Handed canWrite out (out.appended ++ more) :=
  ⟨prefix_append _ _, fun hwrite => by simp [Served.reply, hwrite] at h⟩

theorem handed_handleLines (session : Session) (out : Served σ) (ls : List Bytes)
    (h : out.Fed append store) :
    Handed canWrite (handleLines append canWrite ending session out ls)
        (out.appended ++ due ending (.commands session) ls) ∧
      (handleLines append canWrite ending session out ls).Fed append store := by
  fun_induction handleLines append canWrite ending session out ls with
  | case1 session out =>
    rw [show due ending (.commands session) [] = [] from rfl, append_nil]
    exact ⟨.all _, h⟩
  | case2 session out line rest text session' hcommand hreply => exact ⟨.of_reply hreply _, h⟩
  | case3 session out line rest text session' hcommand told hreply ih =>
    rw [due_cons, Phase.next, hcommand, ← Served.reply_appended hreply]
    exact ih (h.reply hreply)
  | case4 session out line rest text session' hcommand =>
    rw [due_cons, Phase.next, hcommand, Option.toList_none, due_finished, append_nil, append_nil]
    cases hreply : out.reply canWrite text with
    | none => exact ⟨.all _, h⟩
    | some told =>
      rw [Option.getD_some, ← Served.reply_appended hreply]
      exact ⟨.all _, h.reply hreply⟩
  | case5 session out line rest text session' hcommand hreply => exact ⟨.of_reply hreply _, h⟩
  | case6 session out line rest text session' hcommand told hreply hread =>
    rw [due_cons, Phase.next, hcommand, Option.toList_none, due_data, hread, append_nil, append_nil,
      ← Served.reply_appended hreply]
    exact ⟨.all _, h.reply hreply⟩
  | case7 session out line rest text session' hcommand told hreply data rest' hread msg fresh
      hfinish held hcapture =>
    obtain ⟨rfl, rfl⟩ := Prod.mk.inj hfinish
    -- The panic ends the handler, with the message handed over.
    obtain ⟨happended, hfed, hpanicked⟩ := (h.reply hreply).capture hcapture
    rw [due_started hcommand hread, ← Served.reply_appended hreply, append_cons, ← happended]
    refine ⟨⟨prefix_append _ _, fun _ hnot => ?_⟩, hfed⟩
    rw [hpanicked rfl] at hnot
    cases hnot
  | case8 session out line rest text session' hcommand told hreply data rest' hread msg fresh
      hfinish held text' hcapture hreply' =>
    obtain ⟨rfl, rfl⟩ := Prod.mk.inj hfinish
    obtain ⟨happended, hfed, -⟩ := (h.reply hreply).capture hcapture
    rw [due_started hcommand hread, ← Served.reply_appended hreply, append_cons, ← happended]
    exact ⟨.of_reply hreply' _, hfed⟩
  | case9 session out line rest text session' hcommand told hreply data rest' hread msg fresh
      hfinish held text' hcapture told' hreply' ih =>
    obtain ⟨rfl, rfl⟩ := Prod.mk.inj hfinish
    obtain ⟨happended, hfed, -⟩ := (h.reply hreply).capture hcapture
    rw [due_started hcommand hread, ← Served.reply_appended hreply, append_cons, ← happended,
      ← Served.reply_appended hreply']
    exact ih (hfed.reply hreply')

/-- The handler hands over what is completed, and beside it the front of a message whose connection
was closed on the way. -/
theorem handed_handleConn (store : σ) (sent : Bytes) :
    Handed canWrite (handleConn append canWrite ending store sent)
        (due ending (.commands .new) (receivedLines ending sent)) ∧
      (handleConn append canWrite ending store sent).Fed append store := by
  have hstart : (⟨store, [], [], false⟩ : Served σ).Fed append store :=
    ⟨rfl, iff_of_true rfl trivial⟩
  unfold handleConn
  cases hreply : Served.reply canWrite (⟨store, [], [], false⟩ : Served σ) Session.greeting with
  | none => exact ⟨.of_reply hreply _, hstart⟩
  | some out =>
    have hlines : Handed canWrite
        (handleLines append canWrite ending .new out (receivedLines ending sent)) _ ∧ _ :=
      handed_handleLines .new out _ (hstart.reply hreply)
    rwa [Served.reply_appended hreply] at hlines

end Handed

/-- The client is in the middle of a message. -/
def Phase.InData : Phase → Prop
  | .data _ => True
  | _ => False

theorem Phase.cutOff_eq_nil_iff {ending : Ending} {phase : Phase} :
    phase.cutOff ending = [] ↔ ¬(ending = .closed ∧ phase.InData) := by
  cases phase with
  | commands | data | finished => simp [Phase.cutOff, Phase.InData]

/-- These messages were handed over, and the store took each of them. -/
def Served.Captures {σ : Type} (out : Served σ) (msgs : List Bytes) : Prop :=
  out.appended = msgs ∧ out.panicked = false

/-- `store.append` on a directory that never fails. -/
def Running.append (json : JsonCrate) (parser : MessageParser) (raw : Bytes) (r : Running) :
    Outcome Unit × Running :=
  let call := r.store.append json parser raw
  ((call.result r.disk).1, ⟨{ r.store with inner := (call.result r.disk).2 }, call.final r.disk⟩)

/-- The store takes what the parser accepts. -/
theorem Running.taken_iff {json : JsonCrate} (hjson : json.Faithful) {parser : MessageParser}
    (r : Running) (msgs : List Bytes) :
    Taken (Running.append json parser) r msgs ↔ ∀ raw ∈ msgs, parser.accepts raw = true := by
  induction msgs generalizing r with
  | nil => simp [Taken]
  | cons raw msgs ih =>
    obtain ⟨index, hindex, -⟩ := hjson (r.store.planAppend parser raw).inner.entries
    have hresult := (Store.append_of_plan raw r.disk hindex).1
    have hpanics : (r.store.planAppend parser raw).panics = !parser.accepts raw := by
      unfold Store.planAppend
      cases h : parser.accepts raw <;> rfl
    rw [Taken, ih, forall_mem_cons]
    refine and_congr_left fun _ => ?_
    show ((r.store.append json parser raw).result r.disk).1 ≠ _ ↔ _
    rw [hresult, hpanics]
    cases parser.accepts raw <;> simp

/-- A message, completed. -/
def helloSent : Bytes := utf8 "RCPT TO:<a@b.c>\r\nDATA\r\n" ++ hello ++ utf8 ".\r\n"

def emptyStore : Running := ⟨⟨.ofStr "/mail", 200, [], 0⟩, ∅⟩

end Orcker.Mail
