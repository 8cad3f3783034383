import Orcker.Base.Wire

/-!
# IPC frames
-/

namespace Orcker.Ipc

open Base List

/-- The length that precedes a payload takes four bytes. -/
def headerLen : Nat := 4

def defaultMaxFrame : Nat := 16 * 1024 * 1024

inductive FrameError where
  | tooLarge (size max : Nat)
  | payloadOverflowsLengthPrefix (size : Nat)
  deriving DecidableEq

/-- The cap is inclusive; a length that passes it still has to fit the header. -/
def checkPayloadLength (len max : Nat) : Except FrameError Nat :=
  if len > max then .error (.tooLarge len max)
  else if len ≤ 0xFFFFFFFF then .ok len
  else .error (.payloadOverflowsLengthPrefix len)

/-- A four-byte big-endian length and that many bytes. -/
def encodeFrame (payload : Bytes) (max : Nat) : Except FrameError Bytes :=
  match checkPayloadLength payload.length max with
  | .error e => .error e
  | .ok len => .ok (beBytes 4 len ++ payload)

def frameBytes (payload : Bytes) : Bytes := beBytes 4 payload.length ++ payload

variable {payload : Bytes} {max : Nat}

theorem encodeFrame_ok {frame : Bytes} (h : encodeFrame payload max = .ok frame) :
    payload.length ≤ max ∧ payload.length < 256 ^ 4 ∧ frame = frameBytes payload := by
  unfold encodeFrame checkPayloadLength at h
  split_ifs at h with hmax hfit
  exact ⟨by omega, by omega, (Except.ok.inj h).symm⟩

/-- Buffers a socket's reads and hands out whole frames. -/
structure FrameDecoder where
  buf : Bytes
  max : Nat
  poisoned : Option FrameError
  deriving DecidableEq

namespace FrameDecoder

def withMax (max : Nat) : FrameDecoder := ⟨[], max, none⟩

def new : FrameDecoder := withMax defaultMaxFrame

def buffered (d : FrameDecoder) : Nat := d.buf.length

/-- Append socket bytes, unless the decoder is poisoned. -/
def extendFromSlice (d : FrameDecoder) (chunk : Bytes) : FrameDecoder :=
  if d.poisoned.isSome then d else { d with buf := d.buf ++ chunk }

/-- A frame that announces more than the cap poisons the decoder for good. -/
def nextFrame (d : FrameDecoder) : FrameDecoder × Except FrameError (Option Bytes) :=
  match d.poisoned with
  | some e => (d, .error e)
  | none =>
    if d.buf.length < headerLen then (d, .ok none)
    else
      let declared := ofBe (d.buf.take headerLen)
      if declared > d.max then
        let e := FrameError.tooLarge declared d.max
        ({ d with buf := [], poisoned := some e }, .error e)
      else
        let total := headerLen + declared
        if d.buf.length < total then (d, .ok none)
        else
          let consumed := d.buf.take total
          ({ d with buf := d.buf.drop total }, .ok (some (consumed.drop headerLen)))

/-- Pull frames until none is complete or the stream is refused. -/
def pullUpTo : Nat → FrameDecoder → FrameDecoder × List Bytes × Option FrameError
  | 0, d => (d, [], none)
  | fuel + 1, d =>
    match d.nextFrame with
    | (d, .error e) => (d, [], some e)
    | (d, .ok none) => (d, [], none)
    | (d, .ok (some payload)) =>
      let r := pullUpTo fuel d
      (r.1, payload :: r.2.1, r.2.2)

/-- Pull until nothing more comes; every frame takes bytes off the buffer. -/
def pull (d : FrameDecoder) : FrameDecoder × List Bytes × Option FrameError :=
  d.pullUpTo (d.buffered + 1)

/-- Feed chunks in order, pulling after each: the decoder, the frames and the
first error. -/
def run (d : FrameDecoder) : List Bytes → FrameDecoder × List Bytes × Option FrameError
  | [] => (d, [], none)
  | chunk :: chunks =>
    let r := (d.extendFromSlice chunk).pull
    let s := run r.1 chunks
    (s.1, r.2.1 ++ s.2.1, r.2.2.orElse fun _ => s.2.2)

end FrameDecoder

/-- Anything a user of the decoder does. -/
inductive DecoderOp where
  | extend (chunk : Bytes)
  | next

/-- What a use of a decoder leaves. -/
def DecoderOp.apply (d : FrameDecoder) : DecoderOp → FrameDecoder
  | extend chunk => d.extendFromSlice chunk
  | next => d.nextFrame.1

def FrameDecoder.after (d : FrameDecoder) (ops : List DecoderOp) : FrameDecoder :=
  ops.foldl DecoderOp.apply d

/-- One look at the buffer of a decoder that is not poisoned. -/
def frameStep (max : Nat) (buf : Bytes) : Pull Bytes FrameError :=
  match FrameDecoder.nextFrame ⟨buf, max, none⟩ with
  | (_, .error e) => .fail e
  | (_, .ok none) => .more
  | (d, .ok (some payload)) => .item payload d.buf

theorem frameStep_eq (max : Nat) (buf : Bytes) :
    frameStep max buf =
      if buf.length < headerLen then .more
      else if ofBe (buf.take headerLen) > max then
        .fail (.tooLarge (ofBe (buf.take headerLen)) max)
      else if buf.length < headerLen + ofBe (buf.take headerLen) then .more
      else
        .item ((buf.take (headerLen + ofBe (buf.take headerLen))).drop headerLen)
          (buf.drop (headerLen + ofBe (buf.take headerLen))) := by
  unfold frameStep FrameDecoder.nextFrame
  simp only
  split_ifs <;> rfl

variable {buf : Bytes}

theorem header_eq (h : headerLen ≤ buf.length) :
    buf = beBytes 4 (ofBe (buf.take headerLen)) ++ buf.drop headerLen := by
  have hhead : beBytes 4 (ofBe (buf.take headerLen)) = buf.take headerLen :=
    beBytes_ofBe (length_take_of_le h)
  rw [hhead, take_append_drop]

theorem length_header (n : Nat) : (beBytes 4 n).length = headerLen := length_beBytes 4 n

theorem ofBe_header {n : Nat} (h : n < 256 ^ 4) (rest : Bytes) :
    ofBe ((beBytes 4 n ++ rest).take headerLen) = n := by
  rw [take_left' (length_header n), ofBe_beBytes h]

variable {e : FrameError}

theorem frameStep_eq_fail_iff :
    frameStep max buf = .fail e ↔
      ∃ size rest, buf = beBytes 4 size ++ rest ∧ size < 256 ^ 4 ∧ max < size ∧
        e = .tooLarge size max := by
  rw [frameStep_eq]
  constructor
  · intro h
    split_ifs at h with hshort hlarge
    cases h
    have hlt : ofBe (buf.take headerLen) < 256 ^ 4 := by
      have := ofBe_lt (buf.take headerLen)
      rwa [length_take_of_le (by omega)] at this
    exact ⟨_, _, header_eq (by omega), hlt, hlarge, rfl⟩
  · rintro ⟨size, rest, rfl, hsize, hmax, rfl⟩
    rw [ofBe_header hsize, if_neg, if_pos hmax]
    rw [length_append, length_header]
    omega

theorem frameStep_eq_item_iff {rest : Bytes} :
    frameStep max buf = .item payload rest ↔
      buf = frameBytes payload ++ rest ∧ payload.length ≤ max ∧ payload.length < 256 ^ 4 := by
  rw [frameStep_eq]
  constructor
  · intro h
    split_ifs at h with hshort hlarge hbody
    obtain ⟨rfl, rfl⟩ := Pull.item.inj h
    have hlen : ((buf.take (headerLen + ofBe (buf.take headerLen))).drop headerLen).length =
        ofBe (buf.take headerLen) := by
      rw [length_drop, length_take_of_le (by omega)]
      omega
    have hlt := ofBe_lt (buf.take headerLen)
    rw [length_take_of_le (by omega)] at hlt
    refine ⟨?_, by omega, by rw [hlen]; exact hlt⟩
    -- header, payload and rest are the buffer cut at two places
    unfold frameBytes
    rw [hlen, append_assoc, drop_take, Nat.add_sub_cancel_left, ← drop_drop,
      take_append_drop]
    exact header_eq (by omega)
  · rintro ⟨rfl, hmax, hfit⟩
    have hdecl : ofBe ((frameBytes payload ++ rest).take headerLen) = payload.length := by
      rw [frameBytes, append_assoc, ofBe_header hfit]
    have hlen : (frameBytes payload).length = headerLen + payload.length := by
      rw [frameBytes, length_append, length_header]
    rw [hdecl, if_neg (by rw [length_append]; omega), if_neg (by omega),
      if_neg (by rw [length_append]; omega), ← hlen, take_left, drop_left]
    rw [frameBytes, drop_left' (length_header _)]

/-- The decoder's step, which later bytes do not change. -/
def framePuller (max : Nat) : Puller Bytes FrameError where
  step := frameStep max
  item_append := by
    intro s x rest h t
    rw [frameStep_eq_item_iff] at h ⊢
    rw [h.1, List.append_assoc]
    exact ⟨rfl, h.2⟩
  fail_append := by
    intro s e h t
    rw [frameStep_eq_fail_iff] at h ⊢
    obtain ⟨size, rest, rfl, h⟩ := h
    exact ⟨size, rest ++ t, List.append_assoc _ _ _, h⟩
  length_lt := by
    intro s x rest h
    rw [(frameStep_eq_item_iff.1 h).1, frameBytes, List.length_append, List.length_append,
      length_beBytes]
    omega

/-- The decoder that holds what is left of a stream. -/
def FrameDecoder.ofLeft (max : Nat) : Puller.Left FrameError → FrameDecoder
  | .ok buf => ⟨buf, max, none⟩
  | .error e => ⟨[], max, some e⟩

/-- A drained stream as the decoder reports it. -/
def outcome (max : Nat) (r : List Bytes × Puller.Left FrameError) :
    FrameDecoder × List Bytes × Option FrameError :=
  (.ofLeft max r.2, r.1, (FrameDecoder.ofLeft max r.2).poisoned)

namespace FrameDecoder

theorem nextFrame_eq (max : Nat) (buf : Bytes) :
    nextFrame ⟨buf, max, none⟩ =
      match frameStep max buf with
      | .more => (⟨buf, max, none⟩, .ok none)
      | .fail e => (⟨[], max, some e⟩, .error e)
      | .item payload rest => (⟨rest, max, none⟩, .ok (some payload)) := by
  rw [frameStep_eq]
  unfold nextFrame
  simp only
  split_ifs <;> rfl

theorem pullUpTo_eq (max fuel : Nat) (buf : Bytes) :
    pullUpTo fuel ⟨buf, max, none⟩ = outcome max ((framePuller max).drainUpTo fuel buf) := by
  induction fuel generalizing buf with
  | zero => rfl
  | succ fuel ih =>
    rw [pullUpTo, nextFrame_eq, Puller.drainUpTo]
    have hstep : (framePuller max).step buf = frameStep max buf := rfl
    rw [hstep]
    cases frameStep max buf with
    | more | fail => rfl
    | item payload rest =>
      simp only [ih]
      rfl

theorem pull_eq (max : Nat) (buf : Bytes) :
    pull ⟨buf, max, none⟩ = outcome max ((framePuller max).drain buf) :=
  pullUpTo_eq max _ buf

theorem poisoned_stays {d : FrameDecoder} (h : d.poisoned = some e) (ops : List DecoderOp) :
    d.after ops = d := by
  have hstep : ∀ op : DecoderOp, op.apply d = d := by
    intro op
    cases op with
    | extend chunk =>
      show d.extendFromSlice chunk = d
      rw [extendFromSlice, if_pos (by rw [h]; rfl)]
    | next =>
      show d.nextFrame.1 = d
      rw [nextFrame, h]
  induction ops with
  | nil => rfl
  | cons op ops ih =>
    show FrameDecoder.after (op.apply d) ops = d
    rw [hstep op, ih]

theorem run_poisoned (max : Nat) (e : FrameError) (chunks : List Bytes) :
    (run ⟨[], max, some e⟩ chunks).1 = ⟨[], max, some e⟩ ∧
      (run ⟨[], max, some e⟩ chunks).2.1 = [] := by
  induction chunks with
  | nil => exact ⟨rfl, rfl⟩
  | cons c cs ih => exact ih

theorem run_eq (h : frameStep max buf = .more) (chunks : List Bytes) :
    run ⟨buf, max, none⟩ chunks =
      outcome max ((framePuller max).drain (buf ++ chunks.flatten)) := by
  induction chunks generalizing buf with
  | nil =>
    rw [flatten_nil, append_nil, (framePuller max).drain_more h]
    rfl
  | cons c cs ih =>
    show (let r := pull ⟨buf ++ c, max, none⟩
      ((run r.1 cs).1, r.2.1 ++ (run r.1 cs).2.1, r.2.2.orElse fun _ => (run r.1 cs).2.2)) = _
    rw [pull_eq, flatten_cons, ← append_assoc,
      (framePuller max).drain_append (buf ++ c)]
    cases hleft : ((framePuller max).drain (buf ++ c)).2 with
    | error e =>
      obtain ⟨hd, hframes⟩ := run_poisoned max e cs
      simp only [outcome, hleft, ofLeft, hd, hframes, Puller.feed, append_nil]
      rfl
    | ok left =>
      simp only [outcome, hleft, ofLeft, Puller.feed]
      rw [ih ((framePuller max).step_of_drain hleft)]
      rfl

theorem run_withMax (max : Nat) (chunks : List Bytes) :
    (withMax max).run chunks = outcome max ((framePuller max).drain chunks.flatten) :=
  @run_eq max [] rfl chunks

end FrameDecoder

theorem drain_decompose (max : Nat) (s : Bytes) :
    ∃ tail, s = ((framePuller max).drain s).1.flatMap frameBytes ++ tail ∧
      match ((framePuller max).drain s).2 with
      | .ok left => tail = left
      | .error e => ∃ size rest, tail = beBytes 4 size ++ rest ∧ max < size ∧
          e = .tooLarge size max := by
  induction s using (framePuller max).drain_induction with
  | more s hs =>
    rw [(framePuller max).drain_more hs]
    exact ⟨s, rfl, rfl⟩
  | fail s e hs =>
    rw [(framePuller max).drain_fail hs]
    obtain ⟨size, rest, rfl, -, hmax, rfl⟩ := frameStep_eq_fail_iff.1 hs
    exact ⟨_, rfl, size, rest, rfl, hmax, rfl⟩
  | item s payload rest hs ih =>
    obtain ⟨rfl, -, -⟩ := frameStep_eq_item_iff.1 hs
    obtain ⟨tail, htail, hleft⟩ := ih
    rw [(framePuller max).drain_item hs]
    refine ⟨tail, ?_, hleft⟩
    rw [flatMap_cons, append_assoc, ← htail]

variable {left : Puller.Left FrameError}

namespace FrameDecoder

theorem exists_left_apply (max : Nat) (left : Puller.Left FrameError) (op : DecoderOp) :
    ∃ left', op.apply (ofLeft max left) = ofLeft max left' := by
  cases left with
  | error e =>
    exact ⟨.error e, poisoned_stays (d := ofLeft max (.error e)) rfl [op]⟩
  | ok buf =>
    cases op with
    | extend chunk => exact ⟨.ok (buf ++ chunk), rfl⟩
    | next =>
      show ∃ left', (nextFrame ⟨buf, max, none⟩).1 = _
      rw [nextFrame_eq]
      cases frameStep max buf with
      | more => exact ⟨.ok buf, rfl⟩
      | fail e => exact ⟨.error e, rfl⟩
      | item payload rest => exact ⟨.ok rest, rfl⟩

theorem exists_left_after (max : Nat) (ops : List DecoderOp) :
    ∃ left, (withMax max).after ops = ofLeft max left := by
  have hrun : ∀ (ops : List DecoderOp) left,
      ∃ left', (ofLeft max left).after ops = ofLeft max left' := by
    intro ops
    induction ops with
    | nil => exact fun left => ⟨left, rfl⟩
    | cons op ops ih =>
      intro left
      obtain ⟨left', hleft⟩ := exists_left_apply max left op
      show ∃ left', (op.apply (ofLeft max left)).after ops = _
      rw [hleft]
      exact ih left'
  exact hrun ops (.ok [])

theorem poisoned_of_error (h : (ofLeft max left).nextFrame.2 = .error e) :
    (ofLeft max left).nextFrame.1 = ⟨[], max, some e⟩ := by
  cases left with
  | error e' =>
    cases h
    rfl
  | ok buf =>
    simp only [ofLeft, nextFrame_eq] at h ⊢
    cases hs : frameStep max buf with
    | more | item => simp [hs] at h
    | fail e' =>
      simp only [hs] at h
      cases h
      rfl

theorem declared_of_frame (h : (ofLeft max left).nextFrame.2 = .ok (some payload)) :
    ofBe ((ofLeft max left).buf.take headerLen) = payload.length ∧ payload.length ≤ max := by
  cases left with
  | error e => cases h
  | ok buf =>
    simp only [ofLeft, nextFrame_eq] at h ⊢
    cases hs : frameStep max buf with
    | more | fail => simp [hs] at h
    | item x rest =>
      simp only [hs, Except.ok.injEq, Option.some.injEq] at h
      subst h
      obtain ⟨rfl, hmax, hfit⟩ := frameStep_eq_item_iff.1 hs
      rw [frameBytes, append_assoc, ofBe_header hfit]
      exact ⟨rfl, hmax⟩

end FrameDecoder

theorem encoded_stream {payloads frames : List Bytes}
    (h : List.Forall₂ (fun payload frame => encodeFrame payload max = .ok frame) payloads frames) :
    frames.flatten = payloads.flatMap frameBytes ∧
      ∀ payload ∈ payloads, payload.length ≤ max ∧ payload.length < 256 ^ 4 := by
  induction h with
  | nil => exact ⟨rfl, fun _ h => nomatch h⟩
  | cons hone _ ih =>
    obtain ⟨hmax, hfit, rfl⟩ := encodeFrame_ok hone
    rw [flatten_cons, flatMap_cons, ih.1]
    exact ⟨rfl, forall_mem_cons.2 ⟨⟨hmax, hfit⟩, ih.2⟩⟩

/-- Frames survive the wire however it is cut. Encoded payloads come back and
leave the buffer empty; the frames and the refusal of an arbitrary stream depend
on its bytes only, the refusal being of the header right after the last frame; a
refused decoder repeats its error and stays empty; no frame exceeds the cap. -/
theorem framing_lossless (max : Nat) :
    (∀ payloads frames chunks : List Bytes,
      List.Forall₂ (fun payload frame => encodeFrame payload max = .ok frame) payloads frames →
      chunks.flatten = frames.flatten →
      ((FrameDecoder.withMax max).run chunks).2 = (payloads, none) ∧
        ((FrameDecoder.withMax max).run chunks).1.buffered = 0) ∧
    (∀ chunks chunks' : List Bytes, chunks.flatten = chunks'.flatten →
      (FrameDecoder.withMax max).run chunks = (FrameDecoder.withMax max).run chunks') ∧
    (∀ chunks : List Bytes, ∃ tail,
      chunks.flatten = ((FrameDecoder.withMax max).run chunks).2.1.flatMap frameBytes ++ tail ∧
        match ((FrameDecoder.withMax max).run chunks).2.2 with
        | none => tail = ((FrameDecoder.withMax max).run chunks).1.buf
        | some e => ∃ size rest, tail = beBytes 4 size ++ rest ∧ max < size ∧
            e = .tooLarge size max) ∧
    (∀ ops e, ((FrameDecoder.withMax max).after ops).nextFrame.2 = .error e → ∀ later,
      let d := ((FrameDecoder.withMax max).after ops).nextFrame.1.after later
      d.buffered = 0 ∧ d.nextFrame.2 = .error e) ∧
    (∀ ops payload, ((FrameDecoder.withMax max).after ops).nextFrame.2 = .ok (some payload) →
      ofBe (((FrameDecoder.withMax max).after ops).buf.take headerLen) = payload.length ∧
        payload.length ≤ max) := by
  refine ⟨?_, ?_, ?_, ?_, ?_⟩
  · intro payloads frames chunks henc hcut
    obtain ⟨hstream, hfit⟩ := encoded_stream henc
    have hdrain := (framePuller max).drain_flatMap
      (fun payload hmem rest => frameStep_eq_item_iff.2 ⟨rfl, hfit payload hmem⟩) []
    rw [append_nil, (framePuller max).drain_more (s := []) rfl,
      append_nil] at hdrain
    rw [FrameDecoder.run_withMax, hcut, hstream, hdrain]
    exact ⟨rfl, rfl⟩
  · intro chunks chunks' hcut
    rw [FrameDecoder.run_withMax, FrameDecoder.run_withMax, hcut]
  · intro chunks
    rw [FrameDecoder.run_withMax]
    obtain ⟨tail, htail, hleft⟩ := drain_decompose max chunks.flatten
    refine ⟨tail, htail, ?_⟩
    simp only [outcome]
    cases hr : ((framePuller max).drain chunks.flatten).2 with
    | ok | error => simpa [hr, FrameDecoder.ofLeft] using hleft
  · intro ops e h later
    obtain ⟨left, hleft⟩ := FrameDecoder.exists_left_after max ops
    rw [hleft] at h ⊢
    rw [FrameDecoder.poisoned_of_error h, FrameDecoder.poisoned_stays rfl]
    exact ⟨rfl, rfl⟩
  · intro ops payload h
    obtain ⟨left, hleft⟩ := FrameDecoder.exists_left_after max ops
    rw [hleft] at h ⊢
    exact FrameDecoder.declared_of_frame h

end Orcker.Ipc
