import Orcker.Base.Lines
import Orcker.Mcp.Protocol

/-!
# An MCP session

The loop that reads lines from stdin, hands them to the server, carries its tool calls to the daemon
and writes the replies.
-/

namespace Orcker.Mcp

open Base List

/-! ## Reading -/

def maxLineBytes : Nat := 1024 * 1024

inductive Input where
  | line (text : Str)
  | tooLong
  | eof

/-- A line that is too long is passed over to its end. -/
def readLine (s : Bytes) : Input × Bytes :=
  let buf := takeLine (s.take (maxLineBytes + 1))
  let rest := s.drop buf.length
  if buf.length = 0 then (.eof, rest)
  else if maxLineBytes < buf.length ∧ buf.getLast? ≠ some newline then (.tooLong, dropLine rest)
  else (.line (lossy buf), rest)

/-- The line holds more than a message may. -/
def isOverlong (line : Bytes) : Bool := maxLineBytes < (lineContent line).length

def inputOf (line : Bytes) : Input := if isOverlong line then .tooLong else .line (lossy line)

theorem readLine_eq {s : Bytes} (h : s ≠ []) : readLine s = (inputOf (takeLine s), dropLine s) := by
  have hlen := length_lineContent (takeLine s)
  have hparts := takeLine_append_dropLine s
  have hpos : 0 < (takeLine s).length := by
    have hlt := length_dropLine_lt h
    rw [← congrArg length hparts, length_append] at hlt
    omega
  by_cases hfits : (takeLine s).length ≤ maxLineBytes + 1
  · -- the whole line is read at once
    have hbuf : takeLine (s.take (maxLineBytes + 1)) = takeLine s := by
      rw [takeLine_take, take_of_length_le hfits]
    have hrest : s.drop (takeLine s).length = dropLine s := by
      rw [← congrArg (drop _) hparts, drop_left]
    simp only [readLine, hbuf, hrest, if_neg (show ¬(takeLine s).length = 0 by omega), inputOf,
      isOverlong, hlen, decide_eq_true_eq]
    by_cases hlast : (takeLine s).getLast? = some newline
    · rw [if_pos hlast, if_neg (fun hc => hc.2 hlast), if_neg (by omega)]
    · rw [if_neg hlast, Nat.sub_zero, dropLine_of_getLast? hlast]
      by_cases hlong : maxLineBytes < (takeLine s).length
      · rw [if_pos ⟨hlong, hlast⟩, if_pos hlong]
        rfl
      · rw [if_neg (fun hc => hlong hc.1), if_neg hlong]
  · -- only its front is, and that has no newline
    have hbuflen : ((takeLine s).take (maxLineBytes + 1)).length = maxLineBytes + 1 := by
      rw [length_take]
      omega
    have hlast : ((takeLine s).take (maxLineBytes + 1)).getLast? ≠ some newline := by
      intro hlast
      refine newline_notMem_dropLast_takeLine s ?_
      rw [dropLast_eq_take]
      exact (take_subset_take_left _ (by omega)) (mem_of_getLast? hlast)
    have hover : isOverlong (takeLine s) = true := by
      rw [isOverlong, hlen, decide_eq_true_eq]
      split_ifs <;> omega
    simp only [readLine, takeLine_take, hbuflen, inputOf, hover]
    rw [if_neg (by omega), if_pos ⟨by omega, hlast⟩, dropLine_drop (by omega), if_pos trivial]

/-! ## The loop -/

inductive Event where
  | line (text : Str)
  | reading (availability : Availability)
  | sent (request : ToolRequest)
  | wrote (reply : Json)

structure Session where
  server : Server
  /-- The daemon was asked so many times. -/
  exchanges : Nat
  /-- Newest first. -/
  trace : List Event

def Session.start (availability : Availability) (version : Str) : Session :=
  ⟨⟨false, availability, version⟩, 0, []⟩

def Session.log (st : Session) (e : Event) : Session := { st with trace := e :: st.trace }

section Loop

variable {Response : Type} (crate : JsonCrate) (wording : Wording Response)
  (mcpEnabled : Response → Option Bool) (answers : Nat → Except Str Response)

/-- The gate in a status answer; anything else says nothing about it. -/
def availabilityFrom (result : Except Str Response) : Availability :=
  match result with
  | .ok resp =>
    match mcpEnabled resp with
    | some enabled => if enabled then .enabled else .disabled
    | none => .unknown
  | .error _ => .unknown

/-- Ask the gate again; an answer that says nothing leaves it as it was. -/
def repoll (st : Session) : Session :=
  let fresh := availabilityFrom mcpEnabled (answers st.exchanges)
  let st := { st with exchanges := st.exchanges + 1 }.log (.reading fresh)
  if fresh = .unknown then st
  else { st with server := { st.server with availability := fresh } }

/-- Carry a call to the daemon and write what comes of it. -/
def carryOut (st : Session) (call : PendingCall) : Session :=
  let result := answers st.exchanges
  let st := { st with exchanges := st.exchanges + 1 }.log (.sent call.request)
  st.log (.wrote (call.complete wording result))

def handleText (st : Session) (text : Str) : Session :=
  let (server, outgoing) := handleLine crate wording st.server text
  let st := { st with server }.log (.line text)
  match outgoing with
  | .none => st
  | .reply reply => st.log (.wrote reply)
  | .callDaemon call => carryOut wording answers st call
  | .policyBlocked call =>
    let st := repoll mcpEnabled answers st
    if st.server.availability = .enabled then carryOut wording answers st call
    else st.log (.wrote (gateReply st.server call))

def tooLongReply : Json := parseErrorReply "message exceeds the maximum line length"

/-- At most so many lines. -/
def runUpTo : Nat → Bytes → Session → Session
  | 0, _, st => st
  | fuel + 1, s, st =>
    match readLine s with
    | (.eof, _) => st
    | (.tooLong, rest) => runUpTo fuel rest (st.log (.wrote tooLongReply))
    | (.line text, rest) => runUpTo fuel rest (handleText crate wording mcpEnabled answers st text)

/-- Every round reads at least one byte. -/
def runLoop (s : Bytes) (st : Session) : Session :=
  runUpTo crate wording mcpEnabled answers (s.length + 1) s st

/-- What a round does with one line. -/
def step (st : Session) (line : Bytes) : Session :=
  if isOverlong line then st.log (.wrote tooLongReply)
  else handleText crate wording mcpEnabled answers st (lossy line)

theorem runUpTo_eq {fuel : Nat} {s : Bytes} (h : s.length < fuel) (st : Session) :
    runUpTo crate wording mcpEnabled answers fuel s st =
      (linesOf s).foldl (step crate wording mcpEnabled answers) st := by
  induction fuel generalizing s st with
  | zero => omega
  | succ fuel ih =>
    by_cases hs : s = []
    · subst hs
      rfl
    · have hlt := length_dropLine_lt hs
      rw [linesOf_eq_cons hs, foldl_cons, ← ih (by omega), runUpTo, readLine_eq hs, step]
      unfold inputOf
      split_ifs <;> rfl

theorem runLoop_eq (s : Bytes) (st : Session) :
    runLoop crate wording mcpEnabled answers s st =
      (linesOf s).foldl (step crate wording mcpEnabled answers) st :=
  runUpTo_eq crate wording mcpEnabled answers (Nat.lt_succ_self _) st

end Loop

/-! ## What is written -/

/-- The replies, in order. -/
def Session.written (st : Session) : List Json :=
  st.trace.reverse.filterMap fun
    | .wrote reply => some reply
    | _ => none

/-- Emitted when a reply cannot be printed, which does not happen. -/
def encodeFailure : Str :=
  ("\x7b\"jsonrpc\":\"2.0\",\"id\":null,\"error\":\x7b\"code\":-32603," ++
    "\"message\":\"internal encode failure\"\x7d\x7d").toList

def encode (crate : JsonCrate) (reply : Json) : Str := (crate.toString reply).getD encodeFailure

/-- What `write_line` has put on stdout. -/
def Session.stdout (crate : JsonCrate) (st : Session) : Str :=
  st.written.flatMap fun reply => encode crate reply ++ ['\n']

/-- The id that a client reads in a line of stdout. -/
def lineId (crate : JsonCrate) (line : Str) : Option Json :=
  match crate.fromStr line with
  | .ok reply => replyId reply
  | .error _ => none

theorem newline_notMem_encode (crate : JsonCrate) (reply : Json) : '\n' ∉ encode crate reply := by
  obtain ⟨s, hs, hline⟩ := crate.oneLine reply
  rw [encode, hs]
  exact hline

theorem splitOn_stdout (crate : JsonCrate) (replies : List Json) :
    (replies.flatMap fun reply => encode crate reply ++ ['\n']).splitOn '\n' =
      replies.map (encode crate) ++ [[]] := by
  induction replies with
  | nil => rfl
  | cons reply replies ih =>
    rw [flatMap_cons, append_assoc, singleton_append, splitOn_append_cons_self,
      splitOn_eq_singleton (newline_notMem_encode crate reply), ih]
    rfl

theorem lines_stdout (crate : JsonCrate) (st : Session) :
    ((st.stdout crate).splitOn '\n').dropLast = st.written.map (encode crate) := by
  rw [Session.stdout, splitOn_stdout, dropLast_concat]

theorem map_lineId_encode {crate : JsonCrate} {replies : List Json}
    (h : ∀ reply ∈ replies, crate.fromStr (encode crate reply) = .ok reply) :
    (replies.map (encode crate)).map (lineId crate) = replies.map replyId := by
  rw [map_map]
  refine map_congr_left fun reply hreply => ?_
  rw [Function.comp_apply, lineId, h reply hreply]

@[simp] theorem written_log_wrote (st : Session) (reply : Json) :
    (st.log (.wrote reply)).written = st.written ++ [reply] := by
  simp [Session.written, Session.log]

@[simp] theorem written_log_line (st : Session) (text : Str) :
    (st.log (.line text)).written = st.written := by
  simp [Session.written, Session.log]

section Written

variable {Response : Type} (crate : JsonCrate) (wording : Wording Response)
  (mcpEnabled : Response → Option Bool) (answers : Nat → Except Str Response)

theorem written_repoll (st : Session) : (repoll mcpEnabled answers st).written = st.written := by
  simp only [repoll]
  split_ifs <;> simp [Session.written, Session.log]

theorem written_carryOut (st : Session) (call : PendingCall) :
    (carryOut wording answers st call).written =
      st.written ++ [call.complete wording (answers st.exchanges)] := by
  simp [carryOut, Session.written, Session.log]

theorem handleText_written (st : Session) (text : Str) :
    ∃ replies, (handleText crate wording mcpEnabled answers st text).written =
        st.written ++ replies ∧
      replies.map replyId = (answerIds (crate.fromStr text)).map some := by
  rw [← handleLine_ids crate wording st.server text, handleText]
  rcases handleLine crate wording st.server text with ⟨server, outgoing⟩
  have hstart : ({ st with server }.log (.line text)).written = st.written :=
    written_log_line { st with server } text
  cases outgoing with
  | none => exact ⟨[], by rw [append_nil]; exact hstart, rfl⟩
  | reply reply => exact ⟨[reply], (written_log_wrote _ reply).trans (by rw [hstart]), rfl⟩
  | callDaemon call =>
    exact ⟨_, (written_carryOut wording answers _ call).trans (by rw [hstart]), rfl⟩
  | policyBlocked call =>
    have hrepoll := (written_repoll mcpEnabled answers ({ st with server }.log (.line text))).trans
      hstart
    dsimp only
    split_ifs
    · exact ⟨_, (written_carryOut wording answers _ call).trans (by rw [hrepoll]), rfl⟩
    · exact ⟨_, (written_log_wrote _ _).trans (by rw [hrepoll]), rfl⟩

/-- The ids a line ought to be answered with. -/
def writtenIds (line : Bytes) : List Json :=
  if isOverlong line then [.null] else answerIds (crate.fromStr (lossy line))

theorem step_written (st : Session) (line : Bytes) :
    ∃ replies, (step crate wording mcpEnabled answers st line).written = st.written ++ replies ∧
      replies.map replyId = (writtenIds crate line).map some := by
  unfold step writtenIds
  split_ifs
  · exact ⟨[tooLongReply], written_log_wrote st tooLongReply, rfl⟩
  · exact handleText_written crate wording mcpEnabled answers st (lossy line)

theorem foldl_step_written (lines : List Bytes) (st : Session) :
    ∃ replies, (lines.foldl (step crate wording mcpEnabled answers) st).written =
        st.written ++ replies ∧
      replies.map replyId = (lines.flatMap (writtenIds crate)).map some := by
  induction lines generalizing st with
  | nil => exact ⟨[], by simp, rfl⟩
  | cons line lines ih =>
    obtain ⟨first, hfirst, hids⟩ := step_written crate wording mcpEnabled answers st line
    obtain ⟨rest, hrest, hrestIds⟩ := ih (step crate wording mcpEnabled answers st line)
    refine ⟨first ++ rest, ?_, ?_⟩
    · rw [foldl_cons, hrest, hfirst, append_assoc]
    · rw [map_append, hids, hrestIds, flatMap_cons, map_append]

end Written

/-! ## What ought to be written -/

/-- A line that is too long or that is no JSON object asks for a null id; text is UTF-8. -/
def expectedIds (crate : JsonCrate) (line : Bytes) : List Json :=
  if isOverlong line then [.null]
  else
    match fromUtf8 line with
    | some text => answerIds (crate.fromStr text)
    | none => [.null]

/-- The line is text, or replacing its bad bytes makes nothing of it that has another id. -/
def LossyHarmless (crate : JsonCrate) (line : Bytes) : Prop :=
  isOverlong line = true ∨ (fromUtf8 line).isSome = true ∨
    answerIds (crate.fromStr (lossy line)) = [.null]

theorem length_answerIds_le (message : Except Str Json) : (answerIds message).length ≤ 1 := by
  unfold answerIds
  split
  · split_ifs
    · exact Nat.zero_le 1
    · cases (Json.object _).get "id" <;> simp
  · exact Nat.le_refl 1

theorem writtenIds_eq_iff (crate : JsonCrate) (line : Bytes) :
    writtenIds crate line = expectedIds crate line ↔ LossyHarmless crate line := by
  unfold writtenIds expectedIds LossyHarmless
  cases isOverlong line with
  | true => simp
  | false =>
    cases htext : fromUtf8 line with
    | none => simp
    | some text =>
      rw [fromUtf8_eq_some_iff] at htext
      simp [htext]

theorem length_writtenIds_le (crate : JsonCrate) (line : Bytes) :
    (writtenIds crate line).length ≤ (expectedIds crate line).length := by
  by_cases hharmless : LossyHarmless crate line
  · exact (congrArg length ((writtenIds_eq_iff crate line).2 hharmless)).le
  · simp only [LossyHarmless, not_or, Bool.not_eq_true, Option.isSome_eq_false_iff,
      Option.isNone_iff_eq_none] at hharmless
    rw [writtenIds, expectedIds, hharmless.1, hharmless.2.1]
    exact length_answerIds_le _

theorem flatMap_eq_flatMap_iff {α β : Type} {f g : α → List β} {l : List α}
    (hle : ∀ a, (f a).length ≤ (g a).length) :
    l.flatMap f = l.flatMap g ↔ ∀ a ∈ l, f a = g a := by
  have hlen : ∀ l : List α, (l.flatMap f).length ≤ (l.flatMap g).length := by
    intro l
    induction l with
    | nil => exact Nat.le_refl 0
    | cons a l ih =>
      have := hle a
      rw [flatMap_cons, flatMap_cons, length_append, length_append]
      omega
  induction l with
  | nil => simp
  | cons a l ih =>
    rw [flatMap_cons, flatMap_cons, forall_mem_cons]
    constructor
    · intro h
      have htotal := congrArg length h
      have ha := hle a
      have hl := hlen l
      rw [length_append, length_append] at htotal
      obtain ⟨hfirst, hrest⟩ := append_inj h (by omega)
      exact ⟨hfirst, ih.1 hrest⟩
    · rintro ⟨hfirst, hrest⟩
      rw [hfirst, ih.2 hrest]

/-! ## The gate -/

/-- The method, id and parameters of a text that is a request. -/
def requestOf (crate : JsonCrate) (text : Str) : Option (Str × Json × Json) :=
  match crate.fromStr text with
  | .ok (.object fields) => do
    let message := Json.object fields
    let method ← (message.get "method").bind Json.asStr
    let id ← message.get "id"
    return (method, id, (message.get "params").getD .null)
  | _ => none

/-- The text asks for the handshake. -/
def Initializes (crate : JsonCrate) (text : Str) : Prop :=
  ∃ id params, requestOf crate text = some ("initialize".toList, id, params)

/-- The text calls the tool that the request is made for. -/
def CallsTool (crate : JsonCrate) (text : Str) (request : ToolRequest) : Prop :=
  ∃ id params name tool, requestOf crate text = some ("tools/call".toList, id, params) ∧
    (params.get "name".toList).bind Json.asStr = some name ∧
    build name ((params.get "arguments".toList).getD (.object [])) = .ok (tool, request)

/-- The line that was read last. -/
def lastLine (trace : List Event) : Option Str :=
  trace.findSome? fun
    | .line text => some text
    | _ => none

/-- The newest reading of the gate that succeeded; at first the one the session started with. -/
def lastReading (initial : Availability) : List Event → Availability
  | [] => initial
  | .reading a :: trace => if a = .unknown then lastReading initial trace else a
  | _ :: trace => lastReading initial trace

/-- A tool's request was sent for the newest line, a call of that tool, after a handshake, and the
newest reading of the gate was that it is open. -/
def Gated (crate : JsonCrate) (initial : Availability) (trace : List Event) : Prop :=
  ∀ newer request older, trace = newer ++ .sent request :: older →
    lastReading initial older = .enabled ∧
    (∃ text, Event.line text ∈ older ∧ Initializes crate text) ∧
    ∃ text, lastLine older = some text ∧ CallsTool crate text request

/-- The call that an answer of the server goes on with. -/
def Outgoing.call? : Outgoing → Option PendingCall
  | .callDaemon call | .policyBlocked call => some call
  | _ => Option.none

section Server

variable {Response : Type} (crate : JsonCrate) (wording : Wording Response)

theorem handleLine_cases (server : Server) (text : Str) :
    (∃ method id params, requestOf crate text = some (method, id, params) ∧
      handleLine crate wording server text = dispatch wording server method id params) ∨
    ((handleLine crate wording server text).1 = server ∧
      (handleLine crate wording server text).2.call? = none) := by
  unfold handleLine requestOf
  cases crate.fromStr text with
  | error e => exact .inr ⟨rfl, rfl⟩
  | ok message =>
    cases message with
    | object fields =>
      simp only [handleObject]
      cases hmethod : (Json.get (.object fields) "method").bind Json.asStr with
      | none =>
        right
        cases Json.get (.object fields) "id" <;> split_ifs <;> exact ⟨rfl, rfl⟩
      | some method =>
        obtain ⟨v, hv, -⟩ := Option.bind_eq_some_iff.1 hmethod
        have hstray : isStray (.object fields) = false := by rw [isStray, hv]; rfl
        rw [hstray, if_neg Bool.false_ne_true]
        cases Json.get (.object fields) "id" with
        | none => exact .inr ⟨rfl, rfl⟩
        | some id => exact .inl ⟨method, id, _, rfl, rfl⟩
    | null | bool | number | string | array => exact .inr ⟨rfl, rfl⟩

variable {server : Server}

theorem toolsCall_call {id params : Json} {call : PendingCall}
    (h : (toolsCall wording server id params).call? = some call) :
    server.initialized = true ∧
      (toolsCall wording server id params = .callDaemon call → server.availability = .enabled) ∧
      ∃ name tool, (params.get "name").bind Json.asStr = some name ∧
        build name ((params.get "arguments").getD (.object [])) =
          .ok (tool, call.request) := by
  unfold toolsCall at h ⊢
  cases hinit : server.initialized with
  | false => simp [hinit, Outgoing.call?] at h
  | true =>
    simp only [hinit, Bool.not_true, Bool.false_eq_true, if_false] at h ⊢
    split at h
    · cases h
    · next name hname =>
      split at h
      · cases h
      · next built hbuild =>
        simp only [hname]
        split_ifs at h ⊢ with henabled
        all_goals cases h
        · exact ⟨trivial, fun _ => henabled, name, _, rfl, hbuild⟩
        · exact ⟨trivial, nofun, name, _, rfl, hbuild⟩

theorem handleLine_server (server : Server) (text : Str) :
    (handleLine crate wording server text).1.availability = server.availability ∧
      (server.initialized = true → (handleLine crate wording server text).1.initialized = true) ∧
      ((handleLine crate wording server text).1.initialized = true →
        server.initialized = true ∨ Initializes crate text) := by
  rcases handleLine_cases crate wording server text with ⟨method, id, params, hreq, heq⟩ | ⟨hsame, -⟩
  · rw [heq]
    unfold dispatch
    by_cases hinit : method = "initialize"
    · rw [if_pos hinit]
      exact ⟨rfl, fun _ => rfl, fun _ => .inr ⟨id, params, hinit ▸ hreq⟩⟩
    · rw [if_neg hinit]
      split_ifs <;> exact ⟨rfl, fun h => h, .inl⟩
  · rw [hsame]
    exact ⟨rfl, fun h => h, .inl⟩

theorem handleLine_call {text : Str} {call : PendingCall}
    (h : (handleLine crate wording server text).2.call? = some call) :
    server.initialized = true ∧ CallsTool crate text call.request ∧
      ((handleLine crate wording server text).2 = .callDaemon call →
        server.availability = .enabled) := by
  rcases handleLine_cases crate wording server text with ⟨method, id, params, hreq, heq⟩ | ⟨-, hnone⟩
  · rw [heq] at h ⊢
    by_cases hcall : method = "tools/call"
    · subst hcall
      obtain ⟨hready, hopen, name, tool, hname, hbuild⟩ := toolsCall_call wording h
      exact ⟨hready, ⟨id, params, name, tool, hreq, hname, hbuild⟩, hopen⟩
    · unfold dispatch at h
      split_ifs at h <;> cases h
  · rw [hnone] at h
    cases h

end Server

/-! ## Runs through the gate -/

/-- The gate stands as it was last read, and what was sent passed it. -/
structure SessionOk (crate : JsonCrate) (initial : Availability) (st : Session) : Prop where
  availability : st.server.availability = lastReading initial st.trace
  initialized : st.server.initialized = true →
    ∃ text, Event.line text ∈ st.trace ∧ Initializes crate text
  gated : Gated crate initial st.trace

section Runs

variable {Response : Type} {crate : JsonCrate} {wording : Wording Response}
  {mcpEnabled : Response → Option Bool} {answers : Nat → Except Str Response}
  {initial : Availability} {st : Session} {trace : List Event}

theorem Gated.cons (h : Gated crate initial trace) {e : Event} (he : ∀ request, e ≠ .sent request) :
    Gated crate initial (e :: trace) := by
  intro newer request older heq
  cases newer with
  | nil => exact absurd (cons.inj heq).1 (he request)
  | cons x newer => exact h newer request older (cons.inj heq).2

theorem Gated.sent (h : Gated crate initial trace) {request : ToolRequest}
    (hopen : lastReading initial trace = .enabled)
    (hinit : ∃ text, Event.line text ∈ trace ∧ Initializes crate text)
    (hcall : ∃ text, lastLine trace = some text ∧ CallsTool crate text request) :
    Gated crate initial (.sent request :: trace) := by
  intro newer request' older heq
  cases newer with
  | nil =>
    obtain ⟨he, rfl⟩ := cons.inj heq
    cases he
    exact ⟨hopen, hinit, hcall⟩
  | cons x newer => exact h newer request' older (cons.inj heq).2

theorem SessionOk.wrote (h : SessionOk crate initial st) (reply : Json) :
    SessionOk crate initial (st.log (.wrote reply)) := by
  refine ⟨h.availability, fun hinit => ?_, h.gated.cons (by simp)⟩
  obtain ⟨text, hmem, hinits⟩ := h.initialized hinit
  exact ⟨text, mem_cons_of_mem _ hmem, hinits⟩

theorem SessionOk.repoll (h : SessionOk crate initial st) :
    SessionOk crate initial (repoll mcpEnabled answers st) := by
  have hinit : st.server.initialized = true → ∃ text, Event.line text ∈
      Event.reading (availabilityFrom mcpEnabled (answers st.exchanges)) :: st.trace ∧
        Initializes crate text := by
    intro hinit
    obtain ⟨text, hmem, hinits⟩ := h.initialized hinit
    exact ⟨text, mem_cons_of_mem _ hmem, hinits⟩
  simp only [Mcp.repoll]
  split_ifs with hunknown
  · refine ⟨?_, hinit, h.gated.cons (by simp)⟩
    rw [hunknown]
    exact h.availability
  · refine ⟨?_, hinit, h.gated.cons (by simp)⟩
    show _ = lastReading initial (Event.reading _ :: st.trace)
    rw [lastReading, if_neg hunknown]

theorem SessionOk.carryOut (h : SessionOk crate initial st) {call : PendingCall}
    (hopen : st.server.availability = .enabled) (hinit : st.server.initialized = true)
    (hcall : ∃ text, lastLine st.trace = some text ∧ CallsTool crate text call.request) :
    SessionOk crate initial (carryOut wording answers st call) := by
  have hsent : SessionOk crate initial
      ({ st with exchanges := st.exchanges + 1 }.log (.sent call.request)) := by
    refine ⟨h.availability, fun _ => ?_, ?_⟩
    · obtain ⟨text, hmem, hinits⟩ := h.initialized hinit
      exact ⟨text, mem_cons_of_mem _ hmem, hinits⟩
    · exact h.gated.sent (h.availability ▸ hopen) (h.initialized hinit) hcall
  exact hsent.wrote _

theorem repoll_keeps :
    lastLine (Mcp.repoll mcpEnabled answers st).trace = lastLine st.trace ∧
      (Mcp.repoll mcpEnabled answers st).server.initialized = st.server.initialized := by
  simp only [Mcp.repoll]
  split_ifs <;> exact ⟨rfl, rfl⟩

theorem SessionOk.handleText (h : SessionOk crate initial st) (text : Str) :
    SessionOk crate initial (handleText crate wording mcpEnabled answers st text) := by
  have hserver := handleLine_server crate wording st.server text
  have hcalled := @handleLine_call Response crate wording st.server text
  unfold Mcp.handleText
  cases hline : handleLine crate wording st.server text with
  | mk server outgoing =>
    rw [hline] at hserver hcalled
    -- the line is on record, and so is the handshake if it was one
    have hlogged : SessionOk crate initial ({ st with server }.log (.line text)) := by
      refine ⟨hserver.1.trans h.availability, fun hinit => ?_, h.gated.cons (by simp)⟩
      rcases hserver.2.2 hinit with hbefore | hnow
      · obtain ⟨text', hmem, hinits⟩ := h.initialized hbefore
        exact ⟨text', mem_cons_of_mem _ hmem, hinits⟩
      · exact ⟨text, mem_cons_self .., hnow⟩
    cases outgoing with
    | none => exact hlogged
    | reply reply => exact hlogged.wrote reply
    | callDaemon call =>
      obtain ⟨hinit, hcall, hopen⟩ := hcalled rfl
      exact hlogged.carryOut (hserver.1.trans (hopen rfl)) (hserver.2.1 hinit) ⟨text, rfl, hcall⟩
    | policyBlocked call =>
      obtain ⟨hinit, hcall, -⟩ := hcalled rfl
      have hpolled := @SessionOk.repoll Response crate mcpEnabled answers initial _ hlogged
      dsimp only
      split_ifs with hopen
      · refine hpolled.carryOut hopen ?_ ⟨text, ?_, hcall⟩
        · rw [repoll_keeps.2]
          exact hserver.2.1 hinit
        · rw [repoll_keeps.1]
          rfl
      · exact hpolled.wrote _

theorem SessionOk.step (h : SessionOk crate initial st) (line : Bytes) :
    SessionOk crate initial (step crate wording mcpEnabled answers st line) := by
  unfold Mcp.step
  split_ifs
  · exact h.wrote _
  · exact h.handleText _

theorem SessionOk.foldl (lines : List Bytes) (h : SessionOk crate initial st) :
    SessionOk crate initial (lines.foldl (Mcp.step crate wording mcpEnabled answers) st) := by
  induction lines generalizing st with
  | nil => exact h
  | cons line lines ih => exact ih (h.step line)

theorem sessionOk_start (version : Str) :
    SessionOk crate initial (Session.start initial version) := by
  refine ⟨rfl, by rintro ⟨⟩, ?_⟩
  intro newer request older heq
  cases newer <;> cases heq

end Runs

/-- For every stream on stdin, every gate at the start and every behaviour of the daemon: the lines
on stdout are the replies, they carry the ids that the lines of the stream ask for, in order, also
as a client reads them that gets back the replies as they were printed, and a tool's request is sent
only through the open gate, exactly if no line holds bad bytes that turn into a message with an id
of its own. -/
theorem session_answered_iff {Response : Type} (crate : JsonCrate) (wording : Wording Response)
    (mcpEnabled : Response → Option Bool) (answers : Nat → Except Str Response)
    (initial : Availability) (version : Str) (stdin : Bytes) :
    let st := runLoop crate wording mcpEnabled answers stdin (.start initial version)
    ((st.stdout crate).splitOn '\n' = st.written.map (encode crate) ++ [[]] ∧
      st.written.map replyId = ((linesOf stdin).flatMap (expectedIds crate)).map some ∧
      ((∀ reply ∈ st.written, crate.fromStr (encode crate reply) = .ok reply) →
        ((st.stdout crate).splitOn '\n').dropLast.map (lineId crate) =
          ((linesOf stdin).flatMap (expectedIds crate)).map some) ∧
      Gated crate initial st.trace) ↔
    ∀ line ∈ linesOf stdin, LossyHarmless crate line := by
  intro st
  have hst : st = (linesOf stdin).foldl (step crate wording mcpEnabled answers)
      (.start initial version) := runLoop_eq crate wording mcpEnabled answers stdin _
  obtain ⟨replies, hwritten, hids⟩ := foldl_step_written crate wording mcpEnabled answers
    (linesOf stdin) (.start initial version)
  rw [← hst] at hwritten
  have hnothing : (Session.start initial version).written = [] := rfl
  rw [hnothing, nil_append] at hwritten
  have hgated : Gated crate initial st.trace := by
    rw [hst]
    exact ((sessionOk_start version).foldl (linesOf stdin)).gated
  have hharmless : (∀ line ∈ linesOf stdin, LossyHarmless crate line) ↔
      (linesOf stdin).flatMap (writtenIds crate) = (linesOf stdin).flatMap (expectedIds crate) := by
    rw [flatMap_eq_flatMap_iff (length_writtenIds_le crate)]
    exact forall₂_congr fun line _ => (writtenIds_eq_iff crate line).symm
  rw [hharmless, hwritten, hids]
  constructor
  · rintro ⟨-, heq, -⟩
    exact map_injective_iff.2 (Option.some_injective _) heq
  · intro heq
    refine ⟨?_, by rw [heq], fun hback => ?_, hgated⟩
    · rw [Session.stdout, hwritten]
      exact splitOn_stdout crate replies
    · rw [lines_stdout, hwritten, map_lineId_encode hback, hids, heq]

/-! ### A bad byte in a string -/

/-- A ping under the id 1, with a byte in one of its strings that is no UTF-8. -/
def badLine : Bytes :=
  utf8 "\x7b\"id\":1,\"method\":\"ping\",\"note\":\"" ++ [0xff] ++
    utf8 "\"\x7d\n"

def pingMessage : Json :=
  .object [field "id" (.number (.posInt 1)), field "method" (text "ping"),
    field "note" (.string [replacement])]

def pingReply : Json := resultReply (.number (.posInt 1)) (.object [])

def pingLine : Str := "\x7b\"jsonrpc\":\"2.0\",\"id\":1,\"result\":\x7b\x7d\x7d"

/-- The message is read once the byte is replaced, and the reply as it was printed. -/
def pingCrate : JsonCrate :=
  .ofTexts [(lossy badLine, pingMessage), (pingLine, pingReply)] pingLine (by decide)

def plainWording : Wording Unit := ⟨.null, fun _ _ => .null, fun _ => []⟩

/-- The line is not UTF-8, and is answered under the id it seems to have. -/
theorem session_answers_bad_line :
    let st := runLoop pingCrate plainWording (fun _ => none) (fun _ => .ok ()) badLine
      (.start .disabled [])
    fromUtf8 badLine = none ∧ st.written.map replyId = [some (.number (.posInt 1))] ∧
      ((st.stdout pingCrate).splitOn '\n').dropLast.map (lineId pingCrate) =
        [some (.number (.posInt 1))] ∧
      st.written.map replyId ≠ ((linesOf badLine).flatMap (expectedIds pingCrate)).map some := by
  intro st
  have hwritten : st.written.map replyId = [some (.number (.posInt 1))] := rfl
  have hback : ∀ reply ∈ st.written, pingCrate.fromStr (encode pingCrate reply) = .ok reply := by
    have hreplies : st.written = [pingReply] := rfl
    rw [hreplies, forall_mem_singleton]
    rfl
  have hexpected : (linesOf badLine).flatMap (expectedIds pingCrate) = [.null] := rfl
  refine ⟨by decide +kernel, hwritten, ?_, ?_⟩
  · rw [lines_stdout, map_lineId_encode hback, hwritten]
  · rw [hwritten, hexpected]
    simp

end Orcker.Mcp
