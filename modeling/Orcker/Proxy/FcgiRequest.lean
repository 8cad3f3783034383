import Orcker.Base.Chunks
import Orcker.Base.Wire

/-!
# The FastCGI request stream

What the forwarder writes to PHP-FPM for one request: the begin-request record,
the parameters and the request body, each stream cut into records of at most
65535 bytes and closed by an empty one. `readRecord` is the receiving side.
-/

namespace Orcker.Proxy

open Base List

/-! ## Records

The eight-byte header, the length-prefixed name-value pairs of the request parameters, and the two
fixed bodies. Encoding and decoding are inverse. -/

section

def fcgiVersion : UInt8 := 1

/-- The Responder role of a begin-request record. -/
def fcgiResponder : UInt16 := 1

/-- A record's content length is sixteen bits wide. -/
def fcgiMaxPayload : Nat := 65535

inductive FcgiError where
  | short
  | badVersion (version : UInt8)
  | unknownRecordType (code : UInt8)
  | lengthOverflow
  | unexpectedRequestId (id : UInt16)
  deriving DecidableEq

/-! ## Record types -/

inductive RecordType where
  | beginRequest
  | abortRequest
  | endRequest
  | params
  | stdin
  | stdout
  | stderr
  | getValues
  | getValuesResult
  | unknownType
  deriving DecidableEq

namespace RecordType

def toU8 : RecordType → UInt8
  | beginRequest => 1
  | abortRequest => 2
  | endRequest => 3
  | params => 4
  | stdin => 5
  | stdout => 6
  | stderr => 7
  | getValues => 9
  | getValuesResult => 10
  | unknownType => 11

def fromU8 (b : UInt8) : Except FcgiError RecordType :=
  match b.toNat with
  | 1 => .ok beginRequest
  | 2 => .ok abortRequest
  | 3 => .ok endRequest
  | 4 => .ok params
  | 5 => .ok stdin
  | 6 => .ok stdout
  | 7 => .ok stderr
  | 9 => .ok getValues
  | 10 => .ok getValuesResult
  | 11 => .ok unknownType
  | _ => .error (.unknownRecordType b)

theorem fromU8_toU8 (t : RecordType) : fromU8 t.toU8 = .ok t := by
  cases t <;> rfl

end RecordType

/-! ## Headers -/

structure Header where
  version : UInt8
  recordType : RecordType
  requestId : UInt16
  contentLength : UInt16
  paddingLength : UInt8
  deriving DecidableEq

def be16 (n : UInt16) : Bytes := beBytes 2 n.toNat

def ofBe16 (bs : Bytes) : UInt16 := UInt16.ofNat (ofBe bs)

theorem ofBe16_be16 (n : UInt16) : ofBe16 (be16 n) = n := by
  rw [ofBe16, be16, ofBe_beBytes n.toNat_lt, UInt16.ofNat_toNat]

namespace Header

/-- The eight header bytes; the last one is reserved. -/
def encode (h : Header) : Bytes :=
  [h.version, h.recordType.toU8] ++ be16 h.requestId ++ be16 h.contentLength ++
    [h.paddingLength, 0]

def decode (bytes : Bytes) : Except FcgiError Header :=
  match bytes with
  | [b0, b1, b2, b3, b4, b5, b6, _] =>
    if b0 ≠ fcgiVersion then .error (.badVersion b0)
    else
      match RecordType.fromU8 b1 with
      | .error e => .error e
      | .ok recordType =>
        .ok
          { version := b0
            recordType := recordType
            requestId := ofBe16 [b2, b3]
            contentLength := ofBe16 [b4, b5]
            paddingLength := b6 }
  | _ => .error .short

theorem length_encode (h : Header) : h.encode.length = 8 := by
  simp [encode, be16]

theorem decode_encode {h : Header} (hv : h.version = fcgiVersion) :
    decode h.encode = .ok h := by
  have hid := ofBe16_be16 h.requestId
  have hlen := ofBe16_be16 h.contentLength
  simp only [be16, beBytes] at hid hlen
  simp only [encode, be16, beBytes, cons_append, nil_append, decode, hv, ne_eq,
    not_true_eq_false, if_false, RecordType.fromU8_toU8, hid, hlen]
  cases h
  cases hv
  rfl

end Header

/-! ## Name-value pairs -/

/-- Append a length: one byte up to 127, else four with the high bit set. -/
def encodeLength (len : Nat) (out : Bytes) : Except FcgiError Bytes :=
  if len ≤ 127 then .ok (out ++ [UInt8.ofNat len])
  else if len > 0xFFFFFFFF then .error .lengthOverflow
  else if len > 0x7FFFFFFF then .error .lengthOverflow
  else .ok (out ++ beBytes 4 (len ||| 0x80000000))

/-- Both lengths come first. -/
def encodeNameValue (name value out : Bytes) : Except FcgiError Bytes := do
  let out ← encodeLength name.length out
  let out ← encodeLength value.length out
  .ok (out ++ name ++ value)

/-- The receiving side of the length rule. -/
def decodeLength : Bytes → Option (Nat × Bytes)
  | [] => none
  | b :: rest =>
    if b.toNat < 128 then some (b.toNat, rest)
    else
      match takeExact 3 rest with
      | none => none
      | some (low, rest) => some ((b.toNat - 128) * 256 ^ 3 + ofBe low, rest)

/-- The receiving side of a name-value pair. -/
def decodeNameValue (s : Bytes) : Option ((Bytes × Bytes) × Bytes) := do
  let (nameLen, s) ← decodeLength s
  let (valueLen, s) ← decodeLength s
  let (name, s) ← takeExact nameLen s
  let (value, s) ← takeExact valueLen s
  some ((name, value), s)

/-- The longest name or value the length rule can express. -/
def maxNameValue : Nat := 0x7FFFFFFF

/-- The bytes a length in range is written as. -/
def lengthBytes (len : Nat) : Bytes :=
  if len ≤ 127 then [UInt8.ofNat len] else beBytes 4 (len ||| 0x80000000)

variable {len : Nat}

theorem encodeLength_eq (h : len ≤ maxNameValue) (out : Bytes) :
    encodeLength len out = .ok (out ++ lengthBytes len) := by
  unfold maxNameValue at h
  unfold encodeLength lengthBytes
  split
  · rfl
  · rw [if_neg (by omega), if_neg (by omega)]

theorem lengthBytes_ne_nil (len : Nat) : lengthBytes len ≠ [] := by
  unfold lengthBytes
  split
  · exact cons_ne_nil _ _
  · exact cons_ne_nil _ _

theorem or_highBit (h : len ≤ maxNameValue) : len ||| 0x80000000 = len + 0x80000000 := by
  unfold maxNameValue at h
  have hbit : (0x80000000 : Nat) = 2 ^ 31 * 1 := rfl
  rw [hbit, Nat.or_comm, ← Nat.two_pow_add_eq_or_of_lt (by omega)]
  omega

theorem decodeLength_lengthBytes (h : len ≤ maxNameValue) (rest : Bytes) :
    decodeLength (lengthBytes len ++ rest) = some (len, rest) := by
  unfold lengthBytes
  split
  · rename_i hshort
    have hbyte : (UInt8.ofNat len).toNat = len := by
      rw [UInt8.toNat_ofNat']
      omega
    show (if (UInt8.ofNat len).toNat < 128 then _ else _) = _
    rw [if_pos (by omega), hbyte]
    rfl
  · -- the first byte carries the high bit, the other three the low 24 bits
    rw [or_highBit h]
    unfold maxNameValue at h
    have hbyte : (UInt8.ofNat ((len + 0x80000000) / 256 ^ 3)).toNat = len / 256 ^ 3 + 128 := by
      rw [UInt8.toNat_ofNat']
      omega
    have hlow : ofBe (beBytes 3 (len + 0x80000000)) = len % 256 ^ 3 := by
      rw [ofBe_beBytes_mod]
      omega
    rw [beBytes, cons_append, decodeLength, hbyte, if_neg (by omega),
      takeExact_append (length_beBytes 3 _)]
    have hsum : (len / 256 ^ 3 + 128 - 128) * 256 ^ 3 + len % 256 ^ 3 = len := by omega
    simp only [hlow, hsum]

def pairBytes (pair : Bytes × Bytes) : Bytes :=
  lengthBytes pair.1.length ++ lengthBytes pair.2.length ++ pair.1 ++ pair.2

variable {pair : Bytes × Bytes}

theorem encodeNameValue_eq (hname : pair.1.length ≤ maxNameValue)
    (hvalue : pair.2.length ≤ maxNameValue) (out : Bytes) :
    encodeNameValue pair.1 pair.2 out = .ok (out ++ pairBytes pair) := by
  unfold encodeNameValue pairBytes
  rw [encodeLength_eq hname]
  show (encodeLength pair.2.length _ >>= _) = _
  rw [encodeLength_eq hvalue]
  show Except.ok _ = _
  simp only [append_assoc]

theorem decodeNameValue_pairBytes (hname : pair.1.length ≤ maxNameValue)
    (hvalue : pair.2.length ≤ maxNameValue) (rest : Bytes) :
    decodeNameValue (pairBytes pair ++ rest) = some (pair, rest) := by
  unfold decodeNameValue pairBytes
  simp only [append_assoc, decodeLength_lengthBytes hname, decodeLength_lengthBytes hvalue,
    takeExact_append rfl, Option.bind_eq_bind, Option.bind_some]

/-! ## Fixed bodies -/

/-- Role, flags and five reserved bytes. -/
def encodeBeginRequestBody (role : UInt16) (keepConn : Bool) : Bytes :=
  be16 role ++ [if keepConn then 1 else 0, 0, 0, 0, 0, 0]

end

/-- The only request on a connection. -/
def requestId : UInt16 := 1

/-! ## Records on the wire -/

/-- Append one record; a content that is too long would be announced as the
longest possible one. -/
def writeRecord (out : Bytes) (recordType : RecordType) (content : Bytes) : Bytes :=
  let header : Header :=
    { version := fcgiVersion
      recordType := recordType
      requestId := requestId
      contentLength := if content.length ≤ 65535 then UInt16.ofNat content.length else 65535
      paddingLength := 0 }
  out ++ header.encode ++ content

inductive ReadError where
  | backendProtocol
  | fcgi (source : FcgiError)
  deriving DecidableEq

/-- Read one whole record: header, content and padding. -/
def readRecord (s : Bytes) : Except ReadError ((Header × Bytes) × Bytes) :=
  match takeExact 8 s with
  | none => .error .backendProtocol
  | some (headerBuf, s) =>
    match Header.decode headerBuf with
    | .error e => .error (.fcgi e)
    | .ok header =>
      if header.requestId ≠ requestId then
        .error (.fcgi (.unexpectedRequestId header.requestId))
      else
        match takeExact header.contentLength.toNat s with
        | none => .error .backendProtocol
        | some (content, s) =>
          if header.paddingLength > 0 then
            match takeExact header.paddingLength.toNat s with
            | none => .error .backendProtocol
            | some (_, s) => .ok ((header, content), s)
          else .ok ((header, content), s)

/-- Split a stream into records, to its last byte. -/
def readRecords (s : Bytes) : Option (List (Header × Bytes)) :=
  readAll (fun s => (readRecord s).toOption) s

/-! ## The request -/

/-- One name-value pair after another. -/
def encodeParams (params : List (Bytes × Bytes)) : Except FcgiError Bytes :=
  params.foldlM (fun buf pair => encodeNameValue pair.1 pair.2 buf) []

/-- What `forward` prepares before the body: the begin-request record and the
parameter stream with its closing record. -/
def forwardPrelude (params : List (Bytes × Bytes)) : Except FcgiError Bytes := do
  let begun := writeRecord [] .beginRequest (encodeBeginRequestBody fcgiResponder false)
  let paramBuf ← encodeParams params
  let sent := (chunks fcgiMaxPayload paramBuf).foldl (fun out c => writeRecord out .params c) begun
  .ok (writeRecord sent .params [])

/-- What the client's request body can yield next. -/
inductive BodyFrame where
  | data (bytes : Bytes)
  | trailers
  | failed

/-- Stream the body after what is already on the wire. The flag says whether the
body ended: one that fails part-way is cut off without the closing record. -/
def writeBody (wire : Bytes) : List BodyFrame → Bytes × Bool
  | [] => (writeRecord wire .stdin [], true)
  | .failed :: _ => (wire, false)
  | .trailers :: body => writeBody wire body
  | .data bytes :: body =>
    writeBody ((chunks fcgiMaxPayload bytes).foldl (fun out c => writeRecord out .stdin c) wire) body

def writeRequest (prelude : Bytes) (body : List BodyFrame) : Bytes × Bool :=
  writeBody prelude body

/-! ## Records read back -/

def recordOf (recordType : RecordType) (content : Bytes) : Header × Bytes :=
  ({ version := fcgiVersion
     recordType := recordType
     requestId := requestId
     contentLength := UInt16.ofNat content.length
     paddingLength := 0 }, content)

def encodeRecord (r : Header × Bytes) : Bytes := r.1.encode ++ r.2

theorem encodeRecord_ne_nil (r : Header × Bytes) : encodeRecord r ≠ [] := by
  unfold encodeRecord Header.encode
  exact cons_ne_nil _ _

variable {content : Bytes}

theorem writeRecord_eq (h : content.length ≤ fcgiMaxPayload) (out : Bytes) (t : RecordType) :
    writeRecord out t content = out ++ encodeRecord (recordOf t content) := by
  unfold fcgiMaxPayload at h
  unfold writeRecord encodeRecord recordOf
  simp only [if_pos h, append_assoc]

theorem contentLength_recordOf (h : content.length ≤ fcgiMaxPayload) (t : RecordType) :
    (recordOf t content).1.contentLength.toNat = content.length := by
  unfold fcgiMaxPayload at h
  show (UInt16.ofNat content.length).toNat = content.length
  rw [UInt16.toNat_ofNat']
  omega

theorem readRecord_encodeRecord (h : content.length ≤ fcgiMaxPayload) (t : RecordType)
    (rest : Bytes) :
    readRecord (encodeRecord (recordOf t content) ++ rest) = .ok (recordOf t content, rest) := by
  have hdecode : Header.decode (recordOf t content).1.encode = .ok (recordOf t content).1 :=
    Header.decode_encode rfl
  have hcontent : takeExact (recordOf t content).1.contentLength.toNat (content ++ rest) =
      some (content, rest) := takeExact_append (contentLength_recordOf h t).symm rest
  unfold readRecord encodeRecord
  rw [append_assoc, takeExact_append (Header.length_encode _)]
  have hid : ¬(recordOf t content).1.requestId ≠ requestId := not_not_intro rfl
  simp only [hdecode, if_neg hid]
  show (match takeExact _ (content ++ rest) with | none => _ | some (c, s) => _) = _
  rw [hcontent]
  rfl

theorem foldl_writeRecord {cs : List Bytes} (h : ∀ c ∈ cs, c.length ≤ fcgiMaxPayload) (out : Bytes)
    (t : RecordType) :
    cs.foldl (fun out c => writeRecord out t c) out =
      out ++ (cs.map (recordOf t)).flatMap encodeRecord := by
  induction cs generalizing out with
  | nil => exact (append_nil out).symm
  | cons c cs ih =>
    rw [foldl_cons, ih (fun c' hc => h c' (mem_cons_of_mem _ hc)),
      writeRecord_eq (h c mem_cons_self), append_assoc]
    rfl

/-! ## The two streams -/

theorem mem_chunks_payload {c s : Bytes} (h : c ∈ chunks fcgiMaxPayload s) :
    c ≠ [] ∧ c.length ≤ fcgiMaxPayload :=
  mem_chunksUpTo (by decide) h

variable {params : List (Bytes × Bytes)}

theorem encodeParams_eq (h : ∀ p ∈ params, p.1.length ≤ maxNameValue ∧ p.2.length ≤ maxNameValue) :
    encodeParams params = .ok (params.flatMap pairBytes) := by
  unfold encodeParams
  rw [← nil_append (params.flatMap pairBytes)]
  generalize ([] : Bytes) = out
  induction params generalizing out with
  | nil => rw [flatMap_nil, append_nil]; rfl
  | cons p params ih =>
    obtain ⟨hname, hvalue⟩ := h p mem_cons_self
    rw [foldlM_cons, encodeNameValue_eq hname hvalue]
    show foldlM _ (out ++ pairBytes p) params = _
    rw [ih (fun q hq => h q (mem_cons_of_mem _ hq)), flatMap_cons, append_assoc]

/-- The parameters, cut for the records. -/
def paramChunks (params : List (Bytes × Bytes)) : List Bytes :=
  chunks fcgiMaxPayload (params.flatMap pairBytes)

/-- The data a body yields before it ends. -/
def bodyData : List BodyFrame → List Bytes
  | [] => []
  | .data bytes :: body => bytes :: bodyData body
  | _ :: body => bodyData body

def bodyChunks (body : List BodyFrame) : List Bytes :=
  (bodyData body).flatMap (chunks fcgiMaxPayload)

variable {body : List BodyFrame}

theorem writeBody_eq (h : BodyFrame.failed ∉ body) (wire : Bytes) :
    writeBody wire body =
      (wire ++ ((bodyChunks body).map (recordOf .stdin) ++ [recordOf .stdin []]).flatMap
        encodeRecord, true) := by
  induction body generalizing wire with
  | nil =>
    show (writeRecord wire .stdin [], true) = _
    rw [writeRecord_eq (Nat.zero_le _)]
    simp [bodyChunks, bodyData]
  | cons frame body ih =>
    rw [mem_cons, not_or] at h
    cases frame with
    | failed => exact absurd rfl h.1
    | trailers => exact ih h.2 wire
    | data bytes =>
      show writeBody (foldl _ wire _) body = _
      rw [foldl_writeRecord fun c hc => (mem_chunks_payload hc).2, ih h.2]
      simp [bodyChunks, bodyData]

theorem flatten_bodyChunks (body : List BodyFrame) :
    (bodyChunks body).flatten = (bodyData body).flatten := by
  unfold bodyChunks
  induction bodyData body with
  | nil => rfl
  | cons bytes rest ih =>
    rw [flatMap_cons, flatten_append, flatten_chunks (by decide), ih, flatten_cons]

theorem mem_bodyChunks {c : Bytes} (h : c ∈ bodyChunks body) :
    c ≠ [] ∧ c.length ≤ fcgiMaxPayload := by
  obtain ⟨bytes, -, hc⟩ := mem_flatMap.1 h
  exact mem_chunks_payload hc

theorem readRecords_flatMap {rs : List (Header × Bytes)}
    (h : ∀ r ∈ rs, ∃ t content, content.length ≤ fcgiMaxPayload ∧ r = recordOf t content) :
    readRecords (rs.flatMap encodeRecord) = some rs := by
  refine readAll_flatMap fun r hr => ⟨encodeRecord_ne_nil r, fun rest => ?_⟩
  obtain ⟨t, content, hlen, rfl⟩ := h r hr
  rw [readRecord_encodeRecord hlen]
  rfl

/-! ## The whole request -/

/-- Reading back what the forwarder wrote: one begin-request record, the
parameter stream and the body stream, each of non-empty records and one empty
one, and from their contents exactly the parameters and the body. -/
theorem request_framing_lossless (params : List (Bytes × Bytes)) (frames : List Bytes)
    (h : ∀ p ∈ params, p.1.length ≤ maxNameValue ∧ p.2.length ≤ maxNameValue) :
    ∃ (prelude : Bytes) (records : List (Header × Bytes)) (paramContents stdinContents : List Bytes),
      forwardPrelude params = .ok prelude ∧
      readRecords (writeRequest prelude (frames.map .data)).1 = some records ∧
      records.map (fun r => (r.1.recordType, r.2)) =
        (.beginRequest, encodeBeginRequestBody fcgiResponder false) ::
          (paramContents.map (RecordType.params, ·) ++ (.params, []) ::
            (stdinContents.map (RecordType.stdin, ·) ++ [(.stdin, [])])) ∧
      (∀ c ∈ paramContents ++ stdinContents, c ≠ []) ∧
      (∀ r ∈ records, r.1.requestId = 1 ∧ r.1.contentLength.toNat = r.2.length ∧
        r.2.length ≤ 65535) ∧
      readAll decodeNameValue paramContents.flatten = some params ∧
      stdinContents.flatten = frames.flatten := by
  have hdata : bodyData (frames.map .data) = frames := by
    induction frames with
    | nil => rfl
    | cons f fs ih => rw [map_cons, bodyData, ih]
  let opening := recordOf .beginRequest (encodeBeginRequestBody fcgiResponder false) ::
    (paramChunks params).map (recordOf .params) ++ [recordOf .params []]
  let closing := (bodyChunks (frames.map .data)).map (recordOf .stdin) ++ [recordOf .stdin []]
  -- every record of the stream carries a content that fits
  have hrecords : ∀ r ∈ opening ++ closing,
      ∃ t content, content.length ≤ fcgiMaxPayload ∧ r = recordOf t content := by
    intro r hr
    simp only [opening, closing, mem_append, mem_cons, mem_map, not_mem_nil,
      or_false] at hr
    rcases hr with ((rfl | ⟨c, hc, rfl⟩) | rfl) | (⟨c, hc, rfl⟩ | rfl)
    · exact ⟨_, _, by decide, rfl⟩
    · exact ⟨_, c, (mem_chunks_payload hc).2, rfl⟩
    · exact ⟨_, _, by decide, rfl⟩
    · exact ⟨_, c, (mem_bodyChunks hc).2, rfl⟩
    · exact ⟨_, _, by decide, rfl⟩
  have hprelude : forwardPrelude params = .ok (opening.flatMap encodeRecord) := by
    unfold forwardPrelude
    rw [encodeParams_eq h]
    show Except.ok (writeRecord ((paramChunks params).foldl _ _) .params []) = _
    have hparams : ∀ c ∈ paramChunks params, c.length ≤ fcgiMaxPayload :=
      fun c hc => (mem_chunks_payload hc).2
    rw [foldl_writeRecord hparams, writeRecord_eq (Nat.zero_le _), writeRecord_eq (by decide)]
    simp [opening]
  refine ⟨opening.flatMap encodeRecord, opening ++ closing, paramChunks params,
    bodyChunks (frames.map .data), hprelude, ?_, ?_, ?_, ?_, ?_, ?_⟩
  · unfold writeRequest
    rw [writeBody_eq (by simp), ← flatMap_append]
    exact readRecords_flatMap hrecords
  · simp [opening, closing, recordOf, Function.comp_def]
  · intro c hc
    rcases mem_append.1 hc with hc | hc
    · exact (mem_chunks_payload hc).1
    · exact (mem_bodyChunks hc).1
  · intro r hr
    obtain ⟨t, content, hlen, rfl⟩ := hrecords r hr
    exact ⟨rfl, contentLength_recordOf hlen t, hlen⟩
  · unfold paramChunks
    rw [flatten_chunks (by decide)]
    refine readAll_flatMap fun p hp => ⟨?_, ?_⟩
    · unfold pairBytes
      simp [lengthBytes_ne_nil]
    · exact decodeNameValue_pairBytes (h p hp).1 (h p hp).2
  · rw [flatten_bodyChunks, hdata]

/-- A request with an empty value and an empty body frame. -/
theorem request_framing_lossless_post :
    ∃ (prelude : Bytes) (records : List (Header × Bytes)) (paramContents stdinContents : List Bytes),
      forwardPrelude [([81], []), ([72], [49])] = .ok prelude ∧
      readRecords (writeRequest prelude ([[], [1, 2]].map .data)).1 = some records ∧
      records.map (fun r => (r.1.recordType, r.2)) =
        (.beginRequest, encodeBeginRequestBody fcgiResponder false) ::
          (paramContents.map (RecordType.params, ·) ++ (.params, []) ::
            (stdinContents.map (RecordType.stdin, ·) ++ [(.stdin, [])])) ∧
      (∀ c ∈ paramContents ++ stdinContents, c ≠ []) ∧
      (∀ r ∈ records, r.1.requestId = 1 ∧ r.1.contentLength.toNat = r.2.length ∧
        r.2.length ≤ 65535) ∧
      readAll decodeNameValue paramContents.flatten = some [([81], []), ([72], [49])] ∧
      stdinContents.flatten = [1, 2] :=
  request_framing_lossless [([81], []), ([72], [49])] [[], [1, 2]] (by decide)

end Orcker.Proxy
