import Orcker.Base.Disk
import Orcker.Base.Numeral
import Orcker.Base.Path
import Orcker.Base.Chunks

/-!
# The store of captured emails

One `<id>.eml` file per message, and `index.json` with the summaries, oldest first. A message that
the parsing library rejects is written and then makes the call panic.
-/

namespace Orcker.Mail

open Base Script

/-! ## Decoding captured messages

A library parses a captured message into a `Message`; what a client sees of it is cloned out. The
HTML body has its `cid:` references replaced by inline `data:` URLs. -/

/-! ## What the parser returns -/

structure Addr where
  name : Option Str
  address : Option Str
  deriving DecidableEq

structure ContentType where
  ctype : Str
  subtype : Option Str
  deriving DecidableEq

structure MessagePart where
  contentType : Option ContentType
  contentId : Option Str
  attachmentName : Option Str
  contents : Bytes
  deriving DecidableEq

/-- A header line: its name and where its value stands in the message. -/
structure HeaderSpan where
  name : Str
  offsetStart : Nat
  offsetEnd : Nat
  deriving DecidableEq

/-- A parsed message. Groups of addresses are flattened; `bodyText` and `bodyHtml`
are the first body of each kind, `date` is in seconds since the epoch. -/
structure Message where
  «from» : Option (List Addr)
  «to» : Option (List Addr)
  subject : Option Str
  date : Option Int
  headers : List HeaderSpan
  bodyText : Option Str
  bodyHtml : Option Str
  parts : List MessagePart
  attachments : List MessagePart
  deriving DecidableEq

/-- `Message::default()`, which stands in for bytes that are no message: it has no parts. -/
def Message.default : Message := ⟨none, none, none, none, [], none, none, [], []⟩

/-- The library; it rejects bytes without a single header. -/
abbrev MessageParser := Bytes → Option Message

namespace MessageParser

/-- `parse(raw).unwrap_or_default()`. -/
def parse (parser : MessageParser) (raw : Bytes) : Message := (parser raw).getD .default

/-- The headers of a message are those of its first part, and asking for them panics when there is
none. -/
def accepts (parser : MessageParser) (raw : Bytes) : Bool := !(parser.parse raw).parts.isEmpty

end MessageParser

/-! ## What clients see -/

/-- The entry of a message in the index. -/
structure MailSummary where
  id : Str
  «from» : Str
  «to» : List Str
  subject : Str
  dateEpoch : UInt64
  read : Bool
  deriving DecidableEq

structure MailHeader where
  name : Str
  value : Str
  deriving DecidableEq

structure MailAttachment where
  filename : Str
  contentType : Str
  size : Nat
  data : Str
  deriving DecidableEq

/-- A message as it is opened. -/
structure MailDetail where
  id : Str
  «from» : Str
  «to» : List Str
  subject : Str
  dateEpoch : UInt64
  headers : List MailHeader
  htmlBody : Option Str
  textBody : Option Str
  attachments : List MailAttachment
  deriving DecidableEq

/-! ## Addresses and dates -/

def renderAddr (addr : Addr) : Str :=
  match addr.name, addr.address with
  | some name, some email => name ++ " <" ++ email ++ ">"
  | none, some email => email
  | some name, none => name
  | none, none => []

/-- One display string per mailbox that has one. -/
def renderAddresses (addr : Option (List Addr)) : List Str :=
  match addr with
  | some a => (a.map renderAddr).filter fun s => !s.isEmpty
  | none => []

def renderFrom (msg : Message) : Str := (renderAddresses msg.from).head?.getD []

def renderTo (msg : Message) : List Str := renderAddresses msg.to

/-- Dates before the epoch count as absent. -/
def dateEpoch (msg : Message) : UInt64 :=
  match msg.date with
  | some t => if 0 ≤ t then UInt64.ofNat t.toNat else 0
  | none => 0

/-! ## Base64 -/

def base64Alphabet : Str := "ABCDEFGHIJKLMNOPQRSTUVWXYZabcdefghijklmnopqrstuvwxyz0123456789+/"

def sextet (v : Nat) : Char := (base64Alphabet[v &&& 0x3f]?).getD 'A'

/-- Up to three bytes as four letters. -/
def base64Chunk (chunk : Bytes) : Str :=
  let b0 := (chunk[0]?.getD 0).toNat
  let b1 := (chunk[1]?.getD 0).toNat
  let b2 := (chunk[2]?.getD 0).toNat
  let n := b0 <<< 16 ||| b1 <<< 8 ||| b2
  [sextet (n >>> 18), sextet (n >>> 12),
    if chunk.length > 1 then sextet (n >>> 6) else '=',
    if chunk.length > 2 then sextet n else '=']

/-- In chunks of three bytes. -/
def base64Encode (input : Bytes) : Str := (chunks 3 input).flatMap base64Chunk

/-! ## Bodies and attachments -/

/-- Replaces every occurrence of `pat`, from left to right and without overlap.
`skip` letters belong to an occurrence that was replaced already. -/
def replaceFrom (pat rep : Str) : Nat → Str → Str
  | _, [] => []
  | skip + 1, _ :: rest => replaceFrom pat rep skip rest
  | 0, c :: rest =>
    if pat.isPrefixOf (c :: rest) then rep ++ replaceFrom pat rep (pat.length - 1) rest
    else c :: replaceFrom pat rep 0 rest

def replaceAll (s pat rep : Str) : Str := replaceFrom pat rep 0 s

def contentTypeText (part : MessagePart) : Str :=
  match part.contentType with
  | none => "application/octet-stream"
  | some c =>
    match c.subtype with
    | some sub => c.ctype ++ "/" ++ sub
    | none => c.ctype

/-- A content id without the brackets around it. -/
def trimBrackets (cid : Str) : Str :=
  ((cid.dropWhile fun c => c = '<' ∨ c = '>').reverse.dropWhile fun c => c = '<' ∨ c = '>').reverse

def rewriteCid (html : Str) (part : MessagePart) : Str :=
  match part.contentId with
  | none => html
  | some cid =>
    let cid := trimBrackets cid
    if cid.isEmpty then html
    else
      let dataUrl := "data:" ++ contentTypeText part ++ ";base64," ++ base64Encode part.contents
      replaceAll (replaceAll html ("cid:" ++ cid) dataUrl) ("CID:" ++ cid) dataUrl

/-- Embedded parts are shown in place. -/
def rewriteCids (msg : Message) (html : Str) : Str := msg.attachments.foldl rewriteCid html

/-- Parts with a content id are embedded in the body and not listed. -/
def collectAttachments (msg : Message) : List MailAttachment :=
  (msg.attachments.filter fun part => part.contentId.isNone).map fun part =>
    { filename := (part.attachmentName.filter fun n => !n.isEmpty).getD "attachment"
      contentType := contentTypeText part
      size := part.contents.length
      data := base64Encode part.contents }

def isHtmlPart (part : MessagePart) : Bool :=
  (part.contentType.bind ContentType.subtype).any fun s => lower s = lower "html"

/-! ## Summary and detail -/

/-- The metadata of a message that has parts. -/
def Message.summary (msg : Message) (id : Str) : MailSummary :=
  { id, «from» := renderFrom msg, «to» := renderTo msg, subject := msg.subject.getD []
    dateEpoch := dateEpoch msg, read := false }

/-- The full content of a message that has parts. -/
def Message.detail (msg : Message) (id : Str) (raw : Bytes) : MailDetail :=
  { id, «from» := renderFrom msg, «to» := renderTo msg, subject := msg.subject.getD []
    dateEpoch := dateEpoch msg
    headers := msg.headers.map fun h =>
      { name := h.name
        value := ((slice? raw h.offsetStart h.offsetEnd).map fun b => trim (lossy b)).getD [] }
    htmlBody :=
      if msg.parts.any isHtmlPart then msg.bodyHtml.map (rewriteCids msg) else none
    textBody := msg.bodyText
    attachments := collectAttachments msg }

/-- `none` when it panics. -/
def summary (parser : MessageParser) (id : Str) (raw : Bytes) : Option MailSummary :=
  if parser.accepts raw then some ((parser.parse raw).summary id) else none

/-- `none` when it panics. -/
def detail (parser : MessageParser) (id : Str) (raw : Bytes) : Option MailDetail :=
  if parser.accepts raw then some ((parser.parse raw).detail id raw) else none

/-- The JSON library, on the index. -/
structure JsonCrate where
  toVecPretty : List MailSummary → Except Str Bytes
  fromSlice : Bytes → Except Str (List MailSummary)

/-- Every list of summaries is written, and read back as it was. -/
def JsonCrate.Faithful (json : JsonCrate) : Prop :=
  ∀ entries, ∃ bytes, json.toVecPretty entries = .ok bytes ∧ json.fromSlice bytes = .ok entries

inductive MailError where
  | io (path : Path) (source : IoError)
  | index (source : Str)
  deriving DecidableEq

/-- How a call ends. A panic ends the task that made the call; it frees the lock, and the store goes
on with what the lock guards. -/
inductive Outcome (α : Type) where
  | returned (r : Except MailError α)
  | panicked

def Outcome.map {α β : Type} (f : α → β) : Outcome α → Outcome β
  | returned r => returned (r.map f)
  | panicked => panicked

def u64Max : Nat := 2 ^ 64 - 1

/-- How many of the oldest entries are too many. -/
def evictCount (currentLen cap : Nat) : Nat := currentLen - cap

/-- What a running store keeps in memory. -/
structure Inner where
  entries : List MailSummary
  nextId : Nat
  deriving DecidableEq

structure Store where
  dir : Path
  cap : Nat
  inner : Inner
  deriving DecidableEq

def indexFile : Str := "index.json"

def indexTmp : Str := "index.json.tmp"

def emlFile (id : Str) : Str := id ++ ".eml"

def idText (n : Nat) : Str := padded 6 n

/-! ## Opening -/

/-- The largest numeric id among the `.eml` files. -/
def maxEmlId : Script (Option Nat) := do
  match ← readDir with
  | .error _ => return none
  | .ok names =>
    return (names.filterMap fun name => (name.dropSuffix? ".eml").bind (parseUInt u64Max)).max?

/-- An absent index is empty, and so is a corrupt one. -/
def loadIndex (json : JsonCrate) (dir : Path) : Script (Except MailError (List MailSummary)) := do
  match ← read indexFile with
  | .ok bytes =>
    match json.fromSlice bytes with
    | .ok entries => return .ok entries
    | .error _ => return .ok []
  | .error .notFound => return .ok []
  | .error source => return .error (.io (dir.join (.ofStr indexFile)) source)

/-- Starts after the largest id there is. -/
def openWithCap (json : JsonCrate) (dir : Path) (cap : Nat) : Script (Except MailError Store) := do
  match ← createDirAll with
  | .error source => return .error (.io dir source)
  | .ok () =>
    match ← loadIndex json dir with
    | .error e => return .error e
    | .ok entries =>
      let maxIndex := (entries.filterMap fun e => parseUInt u64Max e.id).max?
      let maxDisk ← maxEmlId
      let nextId := match max maxIndex maxDisk with
        | some m => (m + 1) % 2 ^ 64
        | none => 0
      return .ok { dir, cap, inner := { entries, nextId } }

/-! ## Marking -/

def marks (ids : List Str) (e : MailSummary) : Bool := !e.read && e.id ∈ ids

def markEntry (ids : List Str) (e : MailSummary) : MailSummary :=
  if marks ids e then { e with read := true } else e

namespace Store

variable (json : JsonCrate) (parser : MessageParser) (s : Store)

/-! ## Calls that change the store

Each returns the state its lock guards when the call ends. -/

/-- Writes a file beside the index and renames that over it. -/
def writeIndex (entries : List MailSummary) : Script (Except MailError Unit) :=
  match json.toVecPretty entries with
  | .error e => return .error (.index e)
  | .ok bytes => do
    match ← write indexTmp bytes with
    | .error source => return .error (.io (s.dir.join (.ofStr indexTmp)) source)
    | .ok () =>
      match ← rename indexTmp indexFile with
      | .error source => return .error (.io (s.dir.join (.ofStr indexFile)) source)
      | .ok () => return .ok ()

/-- Files that cannot be removed are left. -/
def removeFiles (old : List MailSummary) : Script Unit :=
  each (old.map fun e => .remove (emlFile e.id))

/-- Between the file and the list stands the summary, which may panic. -/
def append (raw : Bytes) : Script (Outcome Unit × Inner) := do
  let id := idText s.inner.nextId
  let nextId := (s.inner.nextId + 1) % 2 ^ 64
  match ← write (emlFile id) raw with
  | .error source =>
    return (.returned (.error (.io (s.dir.join (.ofStr (emlFile id))) source)),
      { s.inner with nextId })
  | .ok () =>
    match summary parser id raw with
    | none => return (.panicked, { s.inner with nextId })
    | some entry =>
      let entries := s.inner.entries ++ [entry]
      let evict := evictCount entries.length s.cap
      removeFiles (entries.take evict)
      let kept := entries.drop evict
      return (.returned (← s.writeIndex json kept), { entries := kept, nextId })

/-- Removes the files, then rewrites the index. -/
def deleteMany (ids : List Str) : Script (Outcome Unit × Inner) := do
  let (drop, keep) := s.inner.entries.partition fun e => e.id ∈ ids
  removeFiles drop
  return (.returned (← s.writeIndex json keep), { s.inner with entries := keep })

/-- The index is rewritten only if something changed. -/
def markRead (ids : List Str) : Script (Outcome Unit × Inner) := do
  let entries := s.inner.entries.map (markEntry ids)
  let changed := s.inner.entries.any (marks ids)
  if !changed then return (.returned (.ok ()), s.inner)
  return (.returned (← s.writeIndex json entries), { s.inner with entries })

def clear : Script (Outcome Unit × Inner) := do
  removeFiles s.inner.entries
  return (.returned (← s.writeIndex json []), { s.inner with entries := [] })

/-! ## Calls that read it -/

/-- Newest first. -/
def list : List MailSummary := s.inner.entries.reverse

def u32Saturating (n : Nat) : UInt32 := UInt32.ofNat (min n (2 ^ 32 - 1))

def count : UInt32 := u32Saturating s.inner.entries.length

def counts : UInt32 × UInt32 :=
  (u32Saturating s.inner.entries.length,
    u32Saturating (s.inner.entries.filter fun e => !e.read).length)

/-- The message itself is read from its file. -/
def get (id : Str) : Script (Outcome (Option MailDetail)) :=
  if !s.inner.entries.any fun e => e.id = id then return .returned (.ok none)
  else do
    match ← Script.read (emlFile id) with
    | .ok raw =>
      match detail parser id raw with
      | none => return .panicked
      | some mail => return .returned (.ok (some mail))
    | .error source => return .returned (.error (.io (s.dir.join (.ofStr (emlFile id))) source))

end Store

/-- The calls of a store. -/
inductive Call where
  | append (raw : Bytes)
  | deleteMany (ids : List Str)
  | markRead (ids : List Str)
  | clear
  | list
  | count
  | counts
  | get (id : Str)
  deriving DecidableEq

inductive Answer where
  | done
  | mails (mails : List MailSummary)
  | count (n : UInt32)
  | counts (total unread : UInt32)
  | mail (detail : Option MailDetail)
  deriving DecidableEq

variable {entries kept : List MailSummary} {index : Bytes}

namespace Store

variable (json : JsonCrate) (parser : MessageParser) (s : Store)

/-- What a changing call answers, and the store it leaves. -/
def changed (r : Outcome Unit × Inner) : Outcome Answer × Store :=
  (r.1.map fun _ => .done, { s with inner := r.2 })

def call : Call → Script (Outcome Answer × Store)
  | .append raw => do return s.changed (← s.append json parser raw)
  | .deleteMany ids => do return s.changed (← s.deleteMany json ids)
  | .markRead ids => do return s.changed (← s.markRead json ids)
  | .clear => do return s.changed (← s.clear json)
  | .list => return (.returned (.ok (.mails s.list)), s)
  | .count => return (.returned (.ok (.count s.count)), s)
  | .counts => return (.returned (.ok (.counts s.counts.1 s.counts.2)), s)
  | .get id => do return ((← s.get parser id).map .mail, s)

/-! ## What a call writes -/

/-- The files a call writes first, the entries whose files it removes next, and
what it leaves in memory and, unless it panics, in the index. -/
structure Plan where
  captured : List (Str × Bytes)
  dropped : List MailSummary
  inner : Inner
  panics : Bool

/-- How the index is replaced. -/
def Plan.reindex (p : Plan) (index : Bytes) : List FileOp :=
  if p.panics then [] else [.write indexTmp index, .rename indexTmp indexFile]

def Plan.ops (p : Plan) (index : Bytes) : List FileOp :=
  p.captured.map (fun file => .write (emlFile file.1) file.2) ++
    (p.dropped.map (fun e => .remove (emlFile e.id)) ++ p.reindex index)

/-- A rejected message is counted, and only its file is written. -/
def planAppend (raw : Bytes) : Plan :=
  let id := idText s.inner.nextId
  let nextId := (s.inner.nextId + 1) % 2 ^ 64
  if parser.accepts raw then
    let entries := s.inner.entries ++ [(parser.parse raw).summary id]
    let evict := evictCount entries.length s.cap
    { captured := [(id, raw)]
      dropped := entries.take evict
      inner := { entries := entries.drop evict, nextId }
      panics := false }
  else { captured := [(id, raw)], dropped := [], inner := { s.inner with nextId }, panics := true }

/-- Files of `dropped` go, and `kept` stay in the list. -/
def planDrop (dropped kept : List MailSummary) : Plan :=
  { captured := [], dropped, inner := { s.inner with entries := kept }, panics := false }

/-- Calls that write nothing have no plan. -/
def plan : Call → Option Plan
  | .append raw => some (s.planAppend parser raw)
  | .deleteMany ids => some (s.planDrop (s.inner.entries.filter fun e => e.id ∈ ids)
      (s.inner.entries.filter fun e => !decide (e.id ∈ ids)))
  | .markRead ids =>
    if s.inner.entries.any (marks ids) then some (s.planDrop [] (s.inner.entries.map (markEntry ids)))
    else none
  | .clear => some (s.planDrop s.inner.entries [])
  | _ => none

/-- The end of every changing call: files go, then the index is replaced. -/
def retire (old kept : List MailSummary) (inner : Inner) : Script (Outcome Unit × Inner) := do
  removeFiles old
  return (.returned (← s.writeIndex json kept), inner)

variable {json} {parser} {s}

theorem writeIndex_run (h : json.toVecPretty entries = .ok index) (d : Dir) :
    (s.writeIndex json entries).result d = .ok () ∧ (s.writeIndex json entries).trace d =
      [.write indexTmp index, .rename indexTmp indexFile] := by
  have hthere : indexTmp ∈ d.insert indexTmp index := by simp
  simp [writeIndex, h, Script.final, FileOp.effect, result_rename hthere]

theorem retire_result (old : List MailSummary) (h : json.toVecPretty kept = .ok index)
    (inner : Inner) (d : Dir) :
    (s.retire json old kept inner).result d = (.returned (.ok ()), inner) := by
  simp [retire, writeIndex_run h]

theorem retire_trace (old : List MailSummary) (h : json.toVecPretty kept = .ok index)
    (inner : Inner) (d : Dir) :
    (s.retire json old kept inner).trace d = (Plan.mk [] old inner false).ops index := by
  simp [retire, removeFiles, writeIndex_run h, Plan.ops, Plan.reindex]

/-- What a planned call answers. -/
def Plan.outcome (p : Plan) : Outcome Answer := if p.panics then .panicked else .returned (.ok .done)

theorem append_of_plan (raw : Bytes) (d : Dir)
    (h : json.toVecPretty (s.planAppend parser raw).inner.entries = .ok index) :
    (s.append json parser raw).result d =
        (if (s.planAppend parser raw).panics then .panicked else .returned (.ok ()),
          (s.planAppend parser raw).inner) ∧
      (s.append json parser raw).trace d = (s.planAppend parser raw).ops index := by
  cases haccepts : parser.accepts raw with
  | true =>
    simp only [planAppend, haccepts, ↓reduceIte, Bool.false_eq_true] at h ⊢
    simp only [append, summary, haccepts, ↓reduceIte]
    exact ⟨retire_result _ h _ _, congrArg (_ :: ·) (retire_trace _ h _ _)⟩
  | false =>
    simp [planAppend, append, summary, haccepts, Plan.ops, Plan.reindex]

/-- The code does just what the plan says. -/
theorem call_of_plan {c : Call} {p : Plan} (hp : s.plan parser c = some p)
    (h : json.toVecPretty p.inner.entries = .ok index) (d : Dir) :
    (s.call json parser c).result d = (p.outcome, { s with inner := p.inner }) ∧
      (s.call json parser c).trace d = p.ops index := by
  have hdone (x : Script (Outcome Unit × Inner)) (o : Outcome Unit)
      (ho : o.map (fun _ => Answer.done) = p.outcome)
      (hx : x.result d = (o, p.inner) ∧ x.trace d = p.ops index) :
      (do return s.changed (← x) : Script _).result d = (p.outcome, { s with inner := p.inner }) ∧
        (do return s.changed (← x) : Script _).trace d = p.ops index := by
    simp only [result_bind, trace_bind, hx, result_pure, trace_pure, List.append_nil, and_true,
      changed, ho]
  cases c with
  | append raw =>
    obtain rfl := Option.some.inj hp
    refine hdone (s.append json parser raw) _ ?_ (append_of_plan raw d h)
    unfold Plan.outcome
    split <;> rfl
  | deleteMany ids =>
    obtain rfl := Option.some.inj hp
    refine hdone (s.deleteMany json ids) (.returned (.ok ())) rfl ?_
    unfold deleteMany
    rw [List.partition_eq_filter_filter]
    exact ⟨retire_result _ h _ d, retire_trace _ h _ d⟩
  | markRead ids =>
    simp only [plan, Option.ite_none_right_eq_some, Option.some.injEq] at hp
    obtain ⟨hchanged, rfl⟩ := hp
    refine hdone (s.markRead json ids) (.returned (.ok ())) rfl ?_
    simp only [markRead, hchanged, Bool.not_true, Bool.false_eq_true, ↓reduceIte]
    exact ⟨retire_result [] h _ d, retire_trace [] h _ d⟩
  | clear =>
    obtain rfl := Option.some.inj hp
    exact hdone (s.clear json) (.returned (.ok ())) rfl ⟨retire_result _ h _ d, retire_trace _ h _ d⟩
  | list | count | counts | get => cases hp

theorem getLast?_emlFile (id : Str) : (emlFile id).getLast? = some 'l' := by
  rw [emlFile, List.getLast?_append]
  rfl

theorem emlFile_ne_indexFile (id : Str) : emlFile id ≠ indexFile := by
  intro h
  exact absurd (h ▸ getLast?_emlFile id) (by decide)

theorem emlFile_ne_indexTmp (id : Str) : emlFile id ≠ indexTmp := by
  intro h
  exact absurd (h ▸ getLast?_emlFile id) (by decide)

theorem emlFile_inj {id id' : Str} : emlFile id = emlFile id' ↔ id = id' :=
  List.append_left_inj _

theorem Plan.getElem?_reindex (p : Plan) (index : Bytes) (d : Dir) (id : Str) :
    (play (p.reindex index) d)[emlFile id]? = d[emlFile id]? := by
  unfold Plan.reindex
  split
  · rfl
  · rw [getElem?_play_replace, if_neg (emlFile_ne_indexFile id), if_neg (emlFile_ne_indexTmp id)]

theorem Plan.getElem?_emlFile (p : Plan) (index : Bytes) (d : Dir) (id : Str) :
    (play (p.ops index) d)[emlFile id]? =
      if id ∈ p.dropped.map (·.id) then none
      else (play (p.captured.map fun file => .write (emlFile file.1) file.2) d)[emlFile id]? := by
  have hremoved : p.dropped.map (fun e => FileOp.remove (emlFile e.id)) =
      (p.dropped.map fun e => emlFile e.id).map .remove := by rw [List.map_map]; rfl
  have hmem : emlFile id ∈ p.dropped.map (fun e => emlFile e.id) ↔ id ∈ p.dropped.map (·.id) := by
    simp only [List.mem_map, emlFile_inj]
  rw [Plan.ops, play_append, play_append, p.getElem?_reindex index, hremoved, getElem?_play_remove]
  simp only [hmem]

theorem Plan.getElem?_indexFile (p : Plan) (index : Bytes) (d : Dir) (h : p.panics = false) :
    (play (p.ops index) d)[indexFile]? = some index := by
  rw [Plan.ops, play_append, play_append, Plan.reindex, h, if_neg Bool.false_ne_true,
    getElem?_play_replace, if_pos rfl]

theorem call_of_no_plan {c : Call} (hp : s.plan parser c = none) (d : Dir) :
    ((s.call json parser c).result d).2 = s ∧ (s.call json parser c).final d = d := by
  cases c with
  | append | deleteMany | clear => cases hp
  | markRead ids =>
    simp only [plan, ite_eq_right_iff, reduceCtorEq, imp_false] at hp
    simp [call, markRead, hp, changed, Script.final]
  | list | count | counts => exact ⟨rfl, rfl⟩
  | get id =>
    refine ⟨by simp [call], ?_⟩
    simp only [call, final_bind, final_pure, get]
    split
    · rfl
    · rw [final_bind, final_read]
      cases (Script.read (emlFile id)).result d with
      | ok raw =>
        dsimp only
        split <;> rfl
      | error source => rfl

end Store

/-! ## What is opened -/

def indexed (json : JsonCrate) (d : Dir) : List MailSummary :=
  match d[indexFile]? with
  | none => []
  | some bytes =>
    match json.fromSlice bytes with
    | .ok entries => entries
    | .error _ => []

/-- The ids among the file names. -/
def emlIds (d : Dir) : List Nat :=
  d.keys.filterMap fun name => (name.dropSuffix? ".eml").bind (parseUInt u64Max)

theorem mem_emlIds {d : Dir} {n : Nat} :
    n ∈ emlIds d ↔ ∃ id, emlFile id ∈ d ∧ parseUInt u64Max id = some n := by
  unfold emlIds
  rw [List.mem_filterMap]
  constructor
  · rintro ⟨name, hname, hparse⟩
    obtain ⟨id, hid, hn⟩ := Option.bind_eq_some_iff.1 hparse
    obtain rfl : name = emlFile id := dropSuffix?_eq_some.1 hid
    exact ⟨id, Std.ExtTreeMap.mem_keys.1 hname, hn⟩
  · rintro ⟨id, hid, hn⟩
    have hsuffix : (emlFile id).dropSuffix? ".eml".toList = some id := dropSuffix?_eq_some.2 rfl
    exact ⟨emlFile id, Std.ExtTreeMap.mem_keys.2 hid, by rw [hsuffix]; exact hn⟩

theorem parseUInt_idText {n : Nat} (h : n < 2 ^ 64) : parseUInt u64Max (idText n) = some n :=
  parseUInt_padded 6 (Nat.le_pred_of_lt h)

/-- The number after the largest one in the index and among the files. -/
def seedId (entries : List MailSummary) (d : Dir) : Nat :=
  match max (entries.filterMap fun e => parseUInt u64Max e.id).max? (emlIds d).max? with
  | some m => (m + 1) % 2 ^ 64
  | none => 0

theorem loadIndex_run (json : JsonCrate) (dir : Path) (d : Dir) :
    (loadIndex json dir).result d = .ok (indexed json d) ∧ (loadIndex json dir).final d = d := by
  unfold indexed
  cases h : d[indexFile]? with
  | none => simp [loadIndex, result_read_none h]
  | some bytes => cases hjson : json.fromSlice bytes <;> simp [loadIndex, result_read_some h, hjson]

theorem openWithCap_result (json : JsonCrate) (dir : Path) (cap : Nat) (d : Dir) :
    (openWithCap json dir cap).result d = .ok
      { dir, cap, inner := { entries := indexed json d, nextId := seedId (indexed json d) d } } := by
  simp only [openWithCap, result_bind, result_createDirAll, final_createDirAll, loadIndex_run]
  rfl

theorem openWithCap_final (json : JsonCrate) (dir : Path) (cap : Nat) (d : Dir) :
    (openWithCap json dir cap).final d = d := by
  simp [openWithCap, loadIndex_run, maxEmlId]

end Orcker.Mail
