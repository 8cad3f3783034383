import Orcker.Proxy.CgiHead
import Orcker.Proxy.FcgiRequest
import Orcker.Proxy.Forwarded

/-!
# The FastCGI response stream

What the forwarder makes of the records PHP-FPM answers with: it reads up to the end of the CGI
head, then relays the rest as a body, or drains it where the response has none. A backend that
goes away early leaves an error in the body, or no response at all.
-/

namespace Orcker.Proxy

open Base Base.Multimap List HeadAccumulator

/-! ## Responses -/

/-- What a body yields: data, or the error that ends it. -/
inductive Frame where
  | data (bytes : Bytes)
  | error (e : ReadError)
  deriving DecidableEq

/-- What a client gets. -/
structure FcgiResponse where
  status : StatusCode
  headers : HeaderMap
  body : List Frame
  deriving DecidableEq

inductive ForwardError where
  | read (e : ReadError)
  | headTooLarge
  deriving DecidableEq

namespace StatusCode

def noContent : StatusCode := ⟨204, by decide⟩
def notModified : StatusCode := ⟨304, by decide⟩

def isInformational (s : StatusCode) : Bool := 100 ≤ s.code && s.code < 200
def isSuccess (s : StatusCode) : Bool := 200 ≤ s.code && s.code < 300

end StatusCode

def canHaveContentLength (method : Method) (status : StatusCode) : Bool :=
  if status.isInformational || (method = .connect && status.isSuccess) then false
  else !(status = .noContent || status = .notModified)

/-- May the response carry a body? -/
def canHaveBody (method : Method) (status : StatusCode) : Bool :=
  method ≠ .head && canHaveContentLength method status

/-- The characters of a header name. -/
def isTokenChar (c : Char) : Bool :=
  c.isAlphanum || "!#$%&'*+-.^_`|~".toList.contains c

def headerName (name : Str) : Option Str :=
  if name ≠ [] ∧ name.all isTokenChar ∧ byteLen name ≤ 65535 then some (lower name) else none

def xAccelBuffering : Str := "x-accel-buffering".toList

/-- The header that a line of the head becomes, if it becomes one. -/
def responseHeader (line : Str × Str) : Option (Str × Bytes) :=
  if lower line.1 = xAccelBuffering then none
  else
    match headerName line.1, headerValue line.2 with
    | some name, some value => some (name, value)
    | _, _ => none

/-- The headers, but for those of the connection. -/
def synthesiseResponse (head : Head) (body : List Frame) : FcgiResponse where
  status := head.status
  headers := stripHopByHopOnly (head.headers.filterMap responseHeader)
  body := body

/-! ## Reading the records -/

/-- One record as the loops see it. -/
abbrev Record := Header × Bytes

/-- The head, or what was buffered when the request ended without one. -/
inductive ReadHead where
  | head (head : Head)
  | ended (acc : HeadAccumulator)

/-- The first loop of `forward`: up to the end of the head. What is left comes with it. -/
def readHead (failure : ReadError) (acc : HeadAccumulator) :
    List Record → Except ForwardError (ReadHead × List Record)
  | [] => .error (.read failure)
  | (header, content) :: rest =>
    match header.recordType with
    | .stdout =>
      match acc.feed content with
      | (acc, .pending) => readHead failure acc rest
      | (_, .complete head) => .ok (.head head, rest)
      | (_, .tooLarge) => .error .headTooLarge
    | .endRequest => .ok (.ended acc, rest)
    | _ => readHead failure acc rest

def maxDiscardedBytes : Nat := 8 * 1024 * 1024

/-- Addition of 64-bit numbers, up to the largest one. -/
def saturatingAdd (a b : Nat) : Nat := min (a + b) (2 ^ 64 - 1)

/-- The bytes thrown away up to the end of the request; nothing past the cap. -/
def drainToEndRequest (failure : ReadError) (discarded : Nat) :
    List Record → Except ForwardError (Option Nat)
  | [] => .error (.read failure)
  | (header, content) :: rest =>
    match header.recordType with
    | .stdout =>
      if maxDiscardedBytes < saturatingAdd discarded content.length then .ok none
      else drainToEndRequest failure (saturatingAdd discarded content.length) rest
    | .endRequest => .ok (some discarded)
    | _ => drainToEndRequest failure discarded rest

/-- The loop of `read_response`, for a client that keeps reading. -/
def relay (failure : ReadError) : List Record → List Frame
  | [] => [.error failure]
  | (header, content) :: rest =>
    match header.recordType with
    | .stdout => if content.isEmpty then relay failure rest else .data content :: relay failure rest
    | .endRequest => []
    | _ => relay failure rest

/-- What is left of the last record comes first. -/
def readResponse (failure : ReadError) (bodyRemainder : Bytes) (records : List Record) :
    List Frame :=
  if bodyRemainder.isEmpty then relay failure records
  else .data bodyRemainder :: relay failure records

def contentLength : Str := "content-length".toList

/-- The spelling the forwarder writes. -/
def contentLengthName : Str := "Content-Length".toList

/-- Give a `HEAD` response the length its `GET` would have had. -/
def restoreHeadContentLength (head : Head) (method : Method) (bodyLen : Nat) : Head :=
  if method ≠ .head ∨ canHaveContentLength method head.status = false then head
  else if head.headers.any fun h => lower h.1 = contentLength then head
  else { head with headers := head.headers ++ [(contentLengthName, decimal bodyLen)] }

/-- `forward` from the head on. -/
def respond (method : Method) (failure : ReadError) (head : Head) (records : List Record) :
    Except ForwardError FcgiResponse :=
  if canHaveBody method head.status then
    .ok (synthesiseResponse head (readResponse failure head.bodyRemainder records))
  else
    match drainToEndRequest failure 0 records with
    | .error e => .error e
    | .ok none => .ok (synthesiseResponse head [])
    | .ok (some discarded) =>
      .ok (synthesiseResponse
        (restoreHeadContentLength head method
          (saturatingAdd head.bodyRemainder.length discarded)) [])

/-- What successive calls of `read_record` give, and how the last one fails. -/
def backendRecords (wire : Bytes) : List Record × ReadError :=
  readToError readRecord .backendProtocol wire

/-- The response half of `forward`, over all the bytes the backend sends. -/
def forward (method : Method) (wire : Bytes) : Except ForwardError FcgiResponse :=
  let (records, failure) := backendRecords wire
  match readHead failure .new records with
  | .error e => .error e
  | .ok (.ended acc, _) => .ok (synthesiseResponse acc.finish [])
  | .ok (.head head, rest) => respond method failure head rest

/-! ## Well-formed records on the wire -/

structure WireRecord where
  recordType : RecordType
  content : Bytes
  padding : Bytes
  content_le : content.length ≤ fcgiMaxPayload
  padding_le : padding.length ≤ 255

namespace WireRecord

def header (r : WireRecord) : Header where
  version := fcgiVersion
  recordType := r.recordType
  requestId := requestId
  contentLength := UInt16.ofNat r.content.length
  paddingLength := UInt8.ofNat r.padding.length

def record (r : WireRecord) : Record := (r.header, r.content)

def encode (r : WireRecord) : Bytes := r.header.encode ++ (r.content ++ r.padding)

theorem readRecord_encode (r : WireRecord) (rest : Bytes) :
    readRecord (r.encode ++ rest) = .ok (r.record, rest) := by
  have hlen : r.content.length = r.header.contentLength.toNat := by
    have := r.content_le
    unfold fcgiMaxPayload at this
    show _ = (UInt16.ofNat r.content.length).toNat
    rw [UInt16.toNat_ofNat']
    omega
  have hpad : r.padding.length = r.header.paddingLength.toNat := by
    have := r.padding_le
    show _ = (UInt8.ofNat r.padding.length).toNat
    rw [toNat_ofNat_of_lt (by omega)]
  have hdecode : Header.decode r.header.encode = .ok r.header := Header.decode_encode rfl
  have hid : ¬r.header.requestId ≠ requestId := not_not_intro rfl
  unfold readRecord encode
  rw [append_assoc, takeExact_append (Header.length_encode _)]
  simp only [hdecode, if_neg hid, append_assoc, takeExact_append hlen]
  by_cases hpadded : r.header.paddingLength > 0
  · simp only [if_pos hpadded, takeExact_append hpad]
    rfl
  · rw [if_neg hpadded]
    -- no padding was announced, so there is none
    have hzero : r.header.paddingLength.toNat = 0 := by
      have := mt UInt8.lt_iff_toNat_lt.2 hpadded
      have h0 : (0 : UInt8).toNat = 0 := rfl
      omega
    rw [length_eq_zero_iff.1 (hpad.trans hzero)]
    rfl

end WireRecord

theorem length_of_takeExact {n : Nat} {s a rest : Bytes} (h : takeExact n s = some (a, rest)) :
    a.length = n ∧ rest.length + n = s.length := by
  unfold takeExact at h
  split_ifs at h with hle
  cases h
  rw [length_take, length_drop]
  omega

theorem readRecord_usesUp : UsesUp readRecord := by
  intro s r rest h
  unfold readRecord at h
  split at h
  · cases h
  · next headerBuf s₁ h₁ =>
    have hlen₁ := (length_of_takeExact h₁).2
    split at h
    · cases h
    · split at h
      · cases h
      · split at h
        · cases h
        · next content s₂ h₂ =>
          have hlen₂ := (length_of_takeExact h₂).2
          split at h
          · split at h
            · cases h
            · next padding s₃ h₃ =>
              have hlen₃ := (length_of_takeExact h₃).2
              cases h
              omega
          · cases h
            omega

theorem backendRecords_encode (records : List WireRecord) {tail : Bytes} {failure : ReadError}
    (htail : readRecord tail = .error failure) :
    backendRecords (records.flatMap WireRecord.encode ++ tail) =
      (records.map WireRecord.record, failure) := by
  induction records with
  | nil => exact readToError_error htail
  | cons r records ih =>
    unfold backendRecords at ih ⊢
    rw [flatMap_cons, append_assoc,
      readToError_ok readRecord_usesUp (r.readRecord_encode _), ih]
    rfl

/-! ## What the records say -/

/-- The standard output of a request, up to its end. -/
def stdoutOf : List Record → Bytes
  | [] => []
  | (header, content) :: rest =>
    match header.recordType with
    | .stdout => content ++ stdoutOf rest
    | .endRequest => []
    | _ => stdoutOf rest

/-- The end of the request is among the records. -/
def isEnded : List Record → Bool
  | [] => false
  | (header, _) :: rest =>
    match header.recordType with
    | .endRequest => true
    | _ => isEnded rest

/-- The records behind the one that completes the head, for a buffer that holds none. -/
def afterHead (buf : Bytes) : List Record → List Record
  | [] => []
  | (header, content) :: rest =>
    match header.recordType with
    | .stdout =>
      if (findHeaderTerminator (buf ++ content) 0).isSome then rest
      else afterHead (buf ++ content) rest
    | _ => afterHead buf rest

/-- The bytes that get through. -/
def frameData (frames : List Frame) : Bytes :=
  frames.flatMap fun
    | .data bytes => bytes
    | .error _ => []

/-- No error ends it. -/
def endsClean (frames : List Frame) : Bool :=
  frames.all fun
    | .data _ => true
    | .error _ => false

theorem FirstTerminator.of_append {s t : Bytes} {i n j m : Nat} (h : FirstTerminator (s ++ t) i n)
    (hat : TerminatorAt s j m) : FirstTerminator s i n := by
  have hend := (h.1.end_le (hat.append t) (h.2 j m (hat.append t))).1
  have hbound := hat.length_bounds
  exact ⟨h.1.of_append (by omega), fun k l hk => h.2 k l (hk.append t)⟩

theorem HeadAccumulator.feed_pending {acc : HeadAccumulator} {content : Bytes}
    (hnone : ∀ j m, ¬TerminatorAt (acc.buf ++ content) j m)
    (hcap : (acc.buf ++ content).length ≤ maxHeadBytes) :
    acc.feed content = (⟨acc.buf ++ content⟩, .pending) := by
  refine Prod.ext rfl ?_
  show (acc.feed content).2 = .pending
  rw [feed_resumes fun j m hat => hnone j m (hat.append _),
    feed_of_none hnone, if_neg (by omega)]

/-- `head` is what the output `out` has in front of its terminator, and `rest` the records behind. -/
structure HeadOf (out : Bytes) (i n : Nat) (ended : Bool) (head : Head) (rest : List Record) :
    Prop where
  status : head.status = (parseHead (out.take i)).1
  headers : head.headers = (parseHead (out.take i)).2
  data : head.bodyRemainder ++ stdoutOf rest = out.drop (i + n)
  remainder : head.bodyRemainder.length ≤ fcgiMaxPayload
  ended : isEnded rest = ended

theorem readHead_of_first (failure : ReadError) {records : List Record} {acc : HeadAccumulator}
    {i n : Nat} (hlen : ∀ r ∈ records, r.2.length ≤ fcgiMaxPayload)
    (hnone : ∀ j m, ¬TerminatorAt acc.buf j m)
    (hfirst : FirstTerminator (acc.buf ++ stdoutOf records) i n) (hcap : i + n ≤ maxHeadBytes) :
    ∃ head, readHead failure acc records = .ok (.head head, afterHead acc.buf records) ∧
      HeadOf (acc.buf ++ stdoutOf records) i n (isEnded records) head
        (afterHead acc.buf records) := by
  induction records generalizing acc with
  | nil =>
    rw [stdoutOf, append_nil] at hfirst
    exact absurd hfirst.1 (hnone i n)
  | cons r records ih =>
    obtain ⟨header, content⟩ := r
    rw [forall_mem_cons] at hlen
    cases htype : header.recordType with
    | stdout =>
      simp only [readHead, stdoutOf, afterHead, isEnded, htype] at hfirst ⊢
      rw [← append_assoc] at hfirst ⊢
      by_cases hhere : ∀ j m, ¬TerminatorAt (acc.buf ++ content) j m
      · -- the terminator ends beyond the buffer, so the buffer is below the cap
        have hshort : (acc.buf ++ content).length < i + n := by
          by_contra hle
          exact hhere i n (hfirst.1.of_append (by omega))
        have hscan : findHeaderTerminator (acc.buf ++ content) 0 = none :=
          findHeaderTerminator_eq_none_iff.2 fun j m _ => hhere j m
        rw [feed_pending hhere (by omega), hscan]
        exact @ih ⟨acc.buf ++ content⟩ hlen.2 hhere hfirst
      · simp only [not_forall, not_not] at hhere
        obtain ⟨j, m, hat⟩ := hhere
        have hfed := hfirst.of_append hat
        have hbound := hfed.1.length_bounds
        have hfeed : (acc.feed content).2 = .complete (headAt (acc.buf ++ content) i n) := by
          rw [feed_resumes hnone, feed_of_first hfed]
        rw [findHeaderTerminator_of_first (Nat.zero_le i) hfed.1 fun j m _ => hfed.2 j m]
        have htake := @take_append_of_le_length _ (acc.buf ++ content) (stdoutOf records) i (by omega)
        refine ⟨headAt (acc.buf ++ content) i n, ?_, htake ▸ rfl, htake ▸ rfl, ?_, ?_, rfl⟩
        · rcases hstep : acc.feed content with ⟨acc', answer⟩
          rw [hstep] at hfeed
          obtain rfl : answer = _ := hfeed
          rfl
        · rw [drop_append_of_le_length hbound.2.2]
          rfl
        · -- the terminator ends in the new record
          have hend : acc.buf.length < i + n := by
            by_contra hle
            exact hnone i n (hfed.1.of_append (by omega))
          have hcontent : content.length ≤ fcgiMaxPayload := hlen.1
          show ((acc.buf ++ content).drop (i + n)).length ≤ fcgiMaxPayload
          rw [length_drop, length_append]
          omega
    | endRequest =>
      simp only [stdoutOf, htype, append_nil] at hfirst
      exact absurd hfirst.1 (hnone i n)
    | _ =>
      simp only [readHead, stdoutOf, afterHead, isEnded, htype] at hfirst ⊢
      exact ih hlen.2 hnone hfirst

theorem readHead_of_none (failure : ReadError) {records : List Record} {acc : HeadAccumulator}
    (hnone : ∀ j m, ¬TerminatorAt (acc.buf ++ stdoutOf records) j m)
    (hcap : (acc.buf ++ stdoutOf records).length ≤ maxHeadBytes) :
    (isEnded records = true →
      ∃ rest, readHead failure acc records = .ok (.ended ⟨acc.buf ++ stdoutOf records⟩, rest)) ∧
    (isEnded records = false → readHead failure acc records = .error (.read failure)) := by
  induction records generalizing acc with
  | nil => exact ⟨by rintro ⟨⟩, fun _ => rfl⟩
  | cons r records ih =>
    obtain ⟨header, content⟩ := r
    cases htype : header.recordType with
    | stdout =>
      simp only [readHead, stdoutOf, isEnded, htype] at hnone hcap ⊢
      rw [← append_assoc] at hnone hcap ⊢
      have hhere : ∀ j m, ¬TerminatorAt (acc.buf ++ content) j m :=
        fun j m hat => hnone j m (hat.append _)
      rw [length_append] at hcap
      rw [feed_pending hhere (by omega)]
      exact @ih ⟨acc.buf ++ content⟩ hnone (by rwa [length_append])
    | endRequest =>
      simp only [readHead, stdoutOf, isEnded, htype, append_nil]
      exact ⟨fun _ => ⟨records, rfl⟩, by rintro ⟨⟩⟩
    | _ =>
      simp only [readHead, stdoutOf, isEnded, htype] at hnone hcap ⊢
      exact ih hnone hcap

/-! ## The relay and the drain -/

theorem relay_spec (failure : ReadError) (records : List Record) :
    frameData (relay failure records) = stdoutOf records ∧
      endsClean (relay failure records) = isEnded records := by
  induction records with
  | nil => exact ⟨rfl, rfl⟩
  | cons r records ih =>
    obtain ⟨header, content⟩ := r
    cases htype : header.recordType with
    | stdout =>
      simp only [relay, stdoutOf, isEnded, htype]
      rw [← ih.1, ← ih.2]
      split_ifs with hempty
      · rw [isEmpty_iff.1 hempty]
        exact ⟨rfl, rfl⟩
      · exact ⟨rfl, rfl⟩
    | endRequest =>
      simp only [relay, stdoutOf, isEnded, htype]
      exact ⟨rfl, rfl⟩
    | _ =>
      simp only [relay, stdoutOf, isEnded, htype]
      exact ih

theorem readResponse_spec (failure : ReadError) (bodyRemainder : Bytes) (records : List Record) :
    frameData (readResponse failure bodyRemainder records) = bodyRemainder ++ stdoutOf records ∧
      endsClean (readResponse failure bodyRemainder records) = isEnded records := by
  rw [← (relay_spec failure records).1, ← (relay_spec failure records).2]
  unfold readResponse
  split_ifs with hempty
  · rw [isEmpty_iff.1 hempty]
    exact ⟨rfl, rfl⟩
  · exact ⟨rfl, rfl⟩

theorem drainToEndRequest_of_le (failure : ReadError) {records : List Record} {discarded : Nat}
    (hended : isEnded records = true)
    (hcap : discarded + (stdoutOf records).length ≤ maxDiscardedBytes) :
    drainToEndRequest failure discarded records =
      .ok (some (discarded + (stdoutOf records).length)) := by
  induction records generalizing discarded with
  | nil => cases hended
  | cons r records ih =>
    obtain ⟨header, content⟩ := r
    cases htype : header.recordType with
    | stdout =>
      simp only [isEnded, stdoutOf, drainToEndRequest, htype, length_append] at hended hcap ⊢
      have hadd : saturatingAdd discarded content.length = discarded + content.length := by
        unfold maxDiscardedBytes at hcap
        exact min_eq_left (by omega)
      rw [hadd, if_neg (by omega), ih hended (by omega), Nat.add_assoc]
    | endRequest =>
      simp only [stdoutOf, drainToEndRequest, htype]
      rfl
    | _ =>
      simp only [isEnded, stdoutOf, drainToEndRequest, htype] at hended hcap ⊢
      exact ih hended hcap

/-! ## The length of a `HEAD` response -/

variable {lines : List (Str × Str)}

theorem mem_filterMap_responseHeader {h : Str × Bytes} (hmem : h ∈ lines.filterMap responseHeader) :
    ∃ line ∈ lines, h.1 = lower line.1 := by
  obtain ⟨line, hline, heq⟩ := mem_filterMap.1 hmem
  refine ⟨line, hline, ?_⟩
  unfold responseHeader at heq
  split_ifs at heq
  split at heq
  · next name value hname hvalue =>
    cases heq
    unfold headerName at hname
    split_ifs at hname
    exact (Option.some.inj hname).symm
  · cases heq

theorem getAll_responseHeader_of_ne {name : Str} (h : ∀ line ∈ lines, lower line.1 ≠ name) :
    getAll (lines.filterMap responseHeader) name = [] := by
  refine getAll_eq_nil_iff.2 fun v hv => ?_
  obtain ⟨line, hline, heq⟩ := mem_filterMap_responseHeader hv
  exact h line hline heq.symm

theorem headerValue_decimal (n : Nat) : headerValue (decimal n) = some (utf8 (decimal n)) := by
  refine if_pos (all_eq_true.2 fun b hb => ?_)
  obtain ⟨c, hc, hb⟩ := mem_flatMap.1 hb
  exact isValueByte_of_isIpChar (isIpChar_of_isDigit (isDigit_of_mem_decimal hc)) b hb

theorem responseHeader_contentLength (n : Nat) :
    responseHeader (contentLengthName, decimal n) = some (contentLength, utf8 (decimal n)) := by
  have haccel : lower contentLengthName ≠ xAccelBuffering := by decide +kernel
  have hname : headerName contentLengthName = some contentLength := by decide +kernel
  unfold responseHeader
  simp only [if_neg haccel, hname, headerValue_decimal]

/-- The restored length is the only one, and nothing takes it away again. -/
theorem contentLength_restored {head : Head} {len : Nat}
    (hallowed : canHaveContentLength .head head.status = true)
    (hheaders : ∀ h ∈ head.headers, lower h.1 ≠ contentLength ∧ lower h.1 ≠ connection) :
    getAll (synthesiseResponse (restoreHeadContentLength head .head len) []).headers contentLength =
      [utf8 (decimal len)] := by
  have hrestored : (restoreHeadContentLength head .head len).headers =
      head.headers ++ [(contentLengthName, decimal len)] := by
    have hnone : ¬(head.headers.any fun h => lower h.1 = contentLength) = true := by
      rw [any_eq_true]
      rintro ⟨h, hmem, heq⟩
      exact (hheaders h hmem).1 (of_decide_eq_true heq)
    rw [restoreHeadContentLength, hallowed, if_neg (by simp), if_neg hnone]
  have hlines : ∀ line ∈ head.headers ++ [(contentLengthName, decimal len)],
      lower line.1 ≠ connection := by
    rw [forall_mem_append]
    refine ⟨fun line hline => (hheaders line hline).2, ?_⟩
    have : lower contentLengthName ≠ connection := by decide +kernel
    simpa using this
  have hhop : isHopByHop
      ((head.headers ++ [(contentLengthName, decimal len)]).filterMap responseHeader)
      contentLength = false := by
    have hfixed : (contentLength == upgrade) = false ∧ hopByHopFixed.contains contentLength = false :=
      by decide +kernel
    rw [isHopByHop, hfixed.1, hfixed.2, connectionTokens, getAll_responseHeader_of_ne hlines]
    rfl
  show getAll (stripHopByHopOnly _) contentLength = _
  rw [hrestored, getAll_stripHopByHopOnly, hhop, if_neg Bool.false_ne_true, filterMap_append,
    getAll_append, getAll_responseHeader_of_ne fun line hline => (hheaders line hline).1]
  rw [filterMap_cons_some (responseHeader_contentLength len)]
  simp [getAll]

/-! ## The whole response -/

/-- The head, with the blank line that ends it, is within the cap; so is output without one. -/
structure HeadFits (out : Bytes) : Prop where
  terminated : ∀ i n, FirstTerminator out i n → i + n ≤ maxHeadBytes
  unterminated : (∀ i n, ¬TerminatorAt out i n) → out.length ≤ maxHeadBytes

section Forward

variable {records : List WireRecord} {tail : Bytes} {failure : ReadError}

def readBack (records : List WireRecord) : List Record := records.map WireRecord.record

theorem length_of_mem_readBack {r : Record} (h : r ∈ readBack records) :
    r.2.length ≤ fcgiMaxPayload := by
  obtain ⟨w, -, rfl⟩ := mem_map.1 h
  exact w.content_le

theorem notMem_new (j m : Nat) : ¬TerminatorAt HeadAccumulator.new.buf j m := by
  intro hat
  have hbound := hat.length_bounds
  have hnil : new.buf.length = 0 := rfl
  omega

theorem forward_of_first (htail : readRecord tail = .error failure) {i n : Nat}
    (hfirst : FirstTerminator (stdoutOf (readBack records)) i n) (hcap : i + n ≤ maxHeadBytes) :
    ∃ head, (∀ method, forward method (records.flatMap WireRecord.encode ++ tail) =
        respond method failure head (afterHead [] (readBack records))) ∧
      HeadOf (stdoutOf (readBack records)) i n (isEnded (readBack records)) head
        (afterHead [] (readBack records)) := by
  obtain ⟨head, hread, hrest⟩ := @readHead_of_first failure (readBack records) .new i n
    (fun r hr => length_of_mem_readBack hr) notMem_new hfirst hcap
  refine ⟨head, fun method => ?_, hrest⟩
  simp only [forward, backendRecords_encode records htail]
  rw [show records.map WireRecord.record = readBack records from rfl, hread]
  rfl

theorem respond_body {method : Method} {head : Head} {rest : List Record}
    (hbody : canHaveBody method head.status = true) :
    ∃ resp, respond method failure head rest = .ok resp ∧ resp.status = head.status ∧
      frameData resp.body = head.bodyRemainder ++ stdoutOf rest ∧
      endsClean resp.body = isEnded rest := by
  refine ⟨_, if_pos hbody, rfl, ?_⟩
  exact readResponse_spec failure head.bodyRemainder rest

theorem respond_head {head : Head} {rest : List Record} (hended : isEnded rest = true)
    (hallowed : canHaveContentLength .head head.status = true)
    (hheaders : ∀ h ∈ head.headers, lower h.1 ≠ contentLength ∧ lower h.1 ≠ connection)
    (hremainder : head.bodyRemainder.length ≤ fcgiMaxPayload)
    (hdrained : (stdoutOf rest).length ≤ maxDiscardedBytes) :
    ∃ resp, respond .head failure head rest = .ok resp ∧
      getAll resp.headers contentLength =
        [utf8 (decimal (head.bodyRemainder ++ stdoutOf rest).length)] := by
  have hdrain := @drainToEndRequest_of_le failure rest 0 hended (by omega)
  rw [Nat.zero_add] at hdrain
  have hadd : saturatingAdd head.bodyRemainder.length (stdoutOf rest).length =
      (head.bodyRemainder ++ stdoutOf rest).length := by
    unfold fcgiMaxPayload at hremainder
    unfold maxDiscardedBytes at hdrained
    rw [length_append]
    exact min_eq_left (by omega)
  refine ⟨synthesiseResponse (restoreHeadContentLength head .head
    (head.bodyRemainder ++ stdoutOf rest).length) [], ?_, contentLength_restored hallowed hheaders⟩
  unfold respond
  rw [if_neg (by simp [canHaveBody]), hdrain]
  simp only [hadd]

end Forward

/-- PHP's output reaches the client as it is. For every sequence of well-formed records, followed by
anything that is not one, with a head within the cap: a response that may carry a body carries the
output behind the head and ends cleanly exactly when the request ended; output without a head gives
an empty body if the request ended and no response if it did not; and a drained `HEAD` response
announces the length of the body its `GET` gets. -/
theorem response_relayed (records : List WireRecord) {tail : Bytes} {failure : ReadError}
    (htail : readRecord tail = .error failure) (hfits : HeadFits (stdoutOf (readBack records))) :
    let wire := records.flatMap WireRecord.encode ++ tail
    let out := stdoutOf (readBack records)
    (∀ method i n, FirstTerminator out i n → canHaveBody method (parseHead (out.take i)).1 = true →
      ∃ resp, forward method wire = .ok resp ∧ resp.status = (parseHead (out.take i)).1 ∧
        frameData resp.body = out.drop (i + n) ∧
        (endsClean resp.body = true ↔ isEnded (readBack records) = true)) ∧
    (∀ method, (∀ i n, ¬TerminatorAt out i n) →
      (isEnded (readBack records) = true → ∃ resp, forward method wire = .ok resp ∧ resp.body = []) ∧
      (isEnded (readBack records) = false → forward method wire = .error (.read failure))) ∧
    ∀ i n, FirstTerminator out i n → isEnded (readBack records) = true →
      canHaveContentLength .head (parseHead (out.take i)).1 = true →
      (∀ h ∈ (parseHead (out.take i)).2, lower h.1 ≠ contentLength ∧ lower h.1 ≠ connection) →
      (stdoutOf (afterHead [] (readBack records))).length ≤ maxDiscardedBytes →
      ∃ resp got, forward .head wire = .ok resp ∧ forward .get wire = .ok got ∧
        getAll resp.headers contentLength = [utf8 (decimal (frameData got.body).length)] := by
  intro wire out
  refine ⟨?_, ?_, ?_⟩
  · intro method i n hfirst hbody
    obtain ⟨head, hforward, hhead⟩ := forward_of_first htail hfirst (hfits.terminated i n hfirst)
    obtain ⟨resp, hresp, hstatus, hframes, hclean⟩ :=
      @respond_body failure method head (afterHead [] (readBack records)) (hhead.status ▸ hbody)
    refine ⟨resp, (hforward method).trans hresp, hstatus.trans hhead.status,
      hframes.trans hhead.data, ?_⟩
    rw [hclean, hhead.ended]
  · intro method hnone
    have hread := @readHead_of_none failure (readBack records) .new hnone (hfits.unterminated hnone)
    have hrecords : backendRecords wire = (readBack records, failure) :=
      backendRecords_encode records htail
    constructor
    · intro hended
      obtain ⟨rest, hrest⟩ := hread.1 hended
      refine ⟨synthesiseResponse (mk out).finish [], ?_, rfl⟩
      simp only [forward, hrecords, hrest]
      rfl
    · intro hended
      simp only [forward, hrecords, hread.2 hended]
  · intro i n hfirst hended hallowed hheaders hdrained
    obtain ⟨head, hforward, hhead⟩ := forward_of_first htail hfirst (hfits.terminated i n hfirst)
    rw [← hhead.status] at hallowed
    rw [← hhead.headers] at hheaders
    obtain ⟨resp, hresp, hlength⟩ := @respond_head failure head (afterHead [] (readBack records))
      (hhead.ended.trans hended) hallowed hheaders hhead.remainder hdrained
    obtain ⟨got, hgot, -, hframes, -⟩ :=
      @respond_body failure .get head (afterHead [] (readBack records))
        (by simpa [canHaveBody, canHaveContentLength] using hallowed)
    refine ⟨resp, got, (hforward .head).trans hresp, (hforward .get).trans hgot, ?_⟩
    rw [hlength, hframes]

/-- A page in two records, with a warning in between, and the end of the request. -/
def pageRecords : List WireRecord :=
  [⟨.stdout, ascii "Content-Type: text/html\n\nhel", [0, 0], by decide +kernel, by decide⟩,
    ⟨.stderr, ascii "PHP Notice", [], by decide +kernel, by decide⟩,
    ⟨.stdout, ascii "lo", [], by decide +kernel, by decide⟩,
    ⟨.endRequest, [0, 0, 0, 0, 0, 0, 0, 0], [], by decide, by decide⟩]

theorem response_relayed_page :
    ∃ resp, forward .get (pageRecords.flatMap WireRecord.encode) = .ok resp ∧
      frameData resp.body = ascii "hello" ∧ endsClean resp.body = true := by
  have hfirst : FirstTerminator (stdoutOf (readBack pageRecords)) 23 2 := by
    have hfind : findHeaderTerminator (stdoutOf (readBack pageRecords)) 0 = some (23, 2) := by
      decide +kernel
    obtain ⟨-, hat, hleast⟩ := findHeaderTerminator_eq_some hfind
    exact ⟨hat, fun j m => hleast j m (Nat.zero_le j)⟩
  have hfits : HeadFits (stdoutOf (readBack pageRecords)) := by
    have hlen : (stdoutOf (readBack pageRecords)).length ≤ maxHeadBytes := by decide +kernel
    refine ⟨fun i n h => ?_, fun _ => hlen⟩
    have := h.1.length_bounds
    omega
  have hpage := (response_relayed pageRecords (show readRecord [] = .error .backendProtocol from rfl)
    hfits).1 .get 23 2 hfirst (by decide +kernel)
  rw [append_nil] at hpage
  obtain ⟨resp, hresp, -, hdata, hclean⟩ := hpage
  exact ⟨resp, hresp, hdata.trans (by decide +kernel), hclean.2 (by decide +kernel)⟩

end Orcker.Proxy
