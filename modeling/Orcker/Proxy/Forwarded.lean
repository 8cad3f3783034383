import Orcker.Base.Map
import Orcker.Core.Site
import Orcker.Proxy.CgiParams

/-!
# Headers handed to an upstream

The first rewrite comes first, so the second one sees the new headers too, and which names it
removes is up to the client.
-/

namespace Orcker.Proxy

open Base Base.Multimap List

def isValueByte (b : UInt8) : Bool := (32 ≤ b.toNat && b.toNat ≠ 127) || b == 9

def headerValue (s : Str) : Option Bytes := if (utf8 s).all isValueByte then some (utf8 s) else none

def comma : UInt8 := 0x2c

/-- Readable header values have no white space but blanks and tabs. -/
def isBlank (b : UInt8) : Bool := b == 9 || b == 32

def trimBlanks (b : Bytes) : Bytes := ((b.dropWhile isBlank).reverse.dropWhile isBlank).reverse

def listTokens (value : Bytes) : List Bytes := (value.splitOn comma).map trimBlanks

/-- The token is a header's name. -/
def namesHeader (name : Str) (token : Bytes) : Bool := eqIgnoreAsciiCase token (utf8 name)

def connection : Str := "connection"
def upgrade : Str := "upgrade"
def forwardedProto : Str := "x-forwarded-proto"
def forwardedHost : Str := "x-forwarded-host"
def realIp : Str := "x-real-ip"
def forwardedFor : Str := "x-forwarded-for"

def forwardedNames : List Str := [forwardedProto, forwardedHost, realIp, forwardedFor]

/-- Set a header, unless the text is not a header value. -/
def setHeader (headers : HeaderMap) (name text : Str) : HeaderMap :=
  match headerValue text with
  | some value => replace headers name value
  | none => headers

def schemeText (https : Bool) : Str := if https then "https" else "http"

/-- A proxied request is given headers that name its peer. -/
def addForwardedHeaders (headers : HeaderMap) (peer : IpAddr) (https : Bool) (clientHost : Str) :
    HeaderMap :=
  let headers := setHeader headers forwardedProto (schemeText https)
  let headers := setHeader headers forwardedHost clientHost
  let headers := setHeader headers realIp peer.toText
  setHeader headers forwardedFor peer.toText

def hopByHopFixed : List Str :=
  ["connection", "proxy-connection", "keep-alive", "te",
    "transfer-encoding", "trailer"]

/-- The members of the `Connection` values that are readable as text. -/
def connectionTokens (headers : HeaderMap) : List Bytes :=
  ((getAll headers connection).filterMap headerText).flatMap listTokens

/-- Also whatever a `Connection` header names. -/
def isHopByHop (headers : HeaderMap) (name : Str) : Bool :=
  name == upgrade || hopByHopFixed.contains name || (connectionTokens headers).any (namesHeader name)

/-- It loses those that only concern the connection to the client. -/
def stripHopByHopOnly (headers : HeaderMap) : HeaderMap :=
  headers.filter fun h => !isHopByHop headers h.1

/-- The client asks for another protocol. -/
def isUpgrade (headers : HeaderMap) : Bool :=
  !(getAll headers upgrade).isEmpty && (connectionTokens headers).any (namesHeader upgrade)

/-- The headers of the request that `forward` hands to the HTTP client. -/
def forwardHeaders (headers : HeaderMap) (peer : IpAddr) (https : Bool) (clientHost : Str) :
    HeaderMap :=
  let headers := addForwardedHeaders headers peer https clientHost
  if isUpgrade headers then headers else stripHopByHopOnly headers

/-- Each of the four headers once, with the value the proxy knows. -/
structure Trusted (headers : HeaderMap) (peer : IpAddr) (https : Bool) (clientHost : Str) :
    Prop where
  forwardedFor : getAll headers forwardedFor = [utf8 peer.toText]
  realIp : getAll headers realIp = [utf8 peer.toText]
  proto : getAll headers forwardedProto = [utf8 (schemeText https)]
  host : getAll headers forwardedHost = [utf8 clientHost]

/-- A `Connection` value, readable or not, names the header. -/
def NamedByClient (client : HeaderMap) (name : Str) : Prop :=
  ∃ value ∈ getAll client connection, ∃ token ∈ listTokens value, namesHeader name token = true

/-- Nothing is left of what concerned the client's connection. -/
structure Stripped (client headers : HeaderMap) : Prop where
  fixed : ∀ name ∈ hopByHopFixed, getAll headers name = []
  upgrade : getAll headers upgrade = []
  named : ∀ name ∉ forwardedNames, NamedByClient client name → getAll headers name = []

/-- No readable `Connection` value names one of the four headers. -/
def SparesForwarded (client : HeaderMap) : Prop :=
  ∀ name ∈ forwardedNames, ∀ token ∈ connectionTokens client, namesHeader name token = false

/-- What an unreadable `Connection` value names is not there, or goes for another reason. -/
def UnreadableHarmless (client : HeaderMap) : Prop :=
  ∀ value ∈ getAll client connection, headerText value = none →
    ∀ token ∈ listTokens value, ∀ h ∈ client, namesHeader h.1 token = true →
      h.1 ∈ forwardedNames ∨ isHopByHop client h.1 = true

theorem isValueByte_of_isIpChar {c : Char} (h : isIpChar c = true) :
    ∀ b ∈ encodeChar c, isValueByte b = true := by
  have hrange : 46 ≤ c.toNat ∧ c.toNat < 127 := by
    simp only [isIpChar, digitVal, Bool.or_eq_true, beq_iff_eq] at h
    rcases h with (h | rfl) | rfl
    · split_ifs at h <;> first | omega | simp at h
    · decide
    · decide
  intro b hb
  unfold encodeChar at hb
  simp only [if_pos (show c.toNat < 0x80 by omega), mem_singleton] at hb
  rw [hb, isValueByte, toNat_ofNat_of_lt (by omega)]
  simp only [Bool.or_eq_true, Bool.and_eq_true, decide_eq_true_eq]
  exact .inl ⟨by omega, by simp; omega⟩

theorem headerValue_toText (ip : IpAddr) : headerValue ip.toText = some (utf8 ip.toText) := by
  refine if_pos (all_eq_true.2 fun b hb => ?_)
  obtain ⟨c, hc, hb⟩ := mem_flatMap.1 hb
  exact isValueByte_of_isIpChar (ip.toText_chars c hc) b hb

theorem headerValue_schemeText (https : Bool) :
    headerValue (schemeText https) = some (utf8 (schemeText https)) := by
  cases https <;> decide +kernel

variable {value : Bytes}

theorem eq_of_headerValue {s : Str} (h : headerValue s = some value) : value = utf8 s := by
  unfold headerValue at h
  split_ifs at h
  exact (Option.some.inj h).symm

theorem setHeader_of_some {text : Str} (h : headerValue text = some value) (headers : HeaderMap)
    (name : Str) : setHeader headers name text = replace headers name value := by
  rw [setHeader, h]

variable {name : Str}

section Rewrites

variable {client : HeaderMap} {peer : IpAddr} {https : Bool} {clientHost : Str}

theorem trusted_addForwardedHeaders (client : HeaderMap) (peer : IpAddr) (https : Bool)
    (hhost : (headerValue clientHost).isSome = true) :
    Trusted (addForwardedHeaders client peer https clientHost) peer https clientHost := by
  have hdistinct : forwardedNames.Nodup := by decide +kernel
  simp only [forwardedNames, nodup_cons, mem_cons, not_mem_nil, or_false, not_or]
    at hdistinct
  obtain ⟨⟨hph, hpr, hpf⟩, ⟨hhr, hhf⟩, hrf, -⟩ := hdistinct
  obtain ⟨value, hvalue⟩ := Option.isSome_iff_exists.1 hhost
  have hhost : headerValue clientHost = some (utf8 clientHost) := eq_of_headerValue hvalue ▸ hvalue
  simp only [addForwardedHeaders, setHeader_of_some (headerValue_schemeText https),
    setHeader_of_some hhost, setHeader_of_some (headerValue_toText peer)]
  constructor
  · simp
  · simp [hrf]
  · simp [hph, hpr, hpf]
  · simp [hhr, hhf]

theorem getAll_addForwardedHeaders (hname : name ∉ forwardedNames) :
    getAll (addForwardedHeaders client peer https clientHost) name = getAll client name := by
  have hset : ∀ headers text, ∀ other ∈ forwardedNames,
      getAll (setHeader headers other text) name = getAll headers name := by
    intro headers text other hother
    unfold setHeader
    split
    · exact getAll_replace_of_ne _ _ fun heq => hname (heq ▸ hother)
    · rfl
  simp only [addForwardedHeaders]
  rw [hset _ _ forwardedFor (by simp [forwardedNames]), hset _ _ realIp (by simp [forwardedNames]),
    hset _ _ forwardedHost (by simp [forwardedNames]),
    hset _ _ forwardedProto (by simp [forwardedNames])]

theorem connectionTokens_addForwardedHeaders :
    connectionTokens (addForwardedHeaders client peer https clientHost) =
      connectionTokens client := by
  have hname : connection ∉ forwardedNames := by decide +kernel
  rw [connectionTokens, connectionTokens, getAll_addForwardedHeaders hname]

theorem isUpgrade_addForwardedHeaders :
    isUpgrade (addForwardedHeaders client peer https clientHost) = isUpgrade client := by
  have hname : upgrade ∉ forwardedNames := by decide +kernel
  rw [isUpgrade, isUpgrade, getAll_addForwardedHeaders hname, connectionTokens_addForwardedHeaders]

theorem getAll_stripHopByHopOnly (headers : HeaderMap) (name : Str) :
    getAll (stripHopByHopOnly headers) name =
      if isHopByHop headers name then [] else getAll headers name := by
  rw [stripHopByHopOnly, getAll_filter_key headers (fun k => !isHopByHop headers k) name]
  cases isHopByHop headers name <;> rfl

theorem getAll_forwardHeaders (peer : IpAddr) (https : Bool) (clientHost : Str)
    (hplain : isUpgrade client = false) (name : Str) :
    getAll (forwardHeaders client peer https clientHost) name =
      if isHopByHop client name then []
      else getAll (addForwardedHeaders client peer https clientHost) name := by
  have hplain' : ¬isUpgrade (addForwardedHeaders client peer https clientHost) = true := by
    rw [isUpgrade_addForwardedHeaders, hplain]
    exact Bool.false_ne_true
  simp only [forwardHeaders]
  rw [if_neg hplain', getAll_stripHopByHopOnly, isHopByHop, isHopByHop,
    connectionTokens_addForwardedHeaders]

theorem isHopByHop_of_forwarded (hname : name ∈ forwardedNames) :
    isHopByHop client name = (connectionTokens client).any (namesHeader name) := by
  have hfixed : ∀ name ∈ forwardedNames, (name == upgrade) = false ∧
      hopByHopFixed.contains name = false := by decide +kernel
  rw [isHopByHop, (hfixed name hname).1, (hfixed name hname).2]
  rfl

theorem sparesForwarded_iff :
    SparesForwarded client ↔ ∀ name ∈ forwardedNames, isHopByHop client name = false := by
  refine forall_congr' fun name => forall_congr' fun hname => ?_
  rw [isHopByHop_of_forwarded hname, any_eq_false]
  simp only [Bool.not_eq_true]

theorem trusted_forwardHeaders_iff (hhost : (headerValue clientHost).isSome = true)
    (hplain : isUpgrade client = false) :
    Trusted (forwardHeaders client peer https clientHost) peer https clientHost ↔
      SparesForwarded client := by
  have hadded := trusted_addForwardedHeaders client peer https hhost
  rw [sparesForwarded_iff]
  constructor
  · intro h name hname
    cases hhop : isHopByHop client name with
    | false => rfl
    | true =>
      -- a header that is stripped is not there at all
      have hgone := getAll_forwardHeaders peer https clientHost hplain name
      rw [if_pos hhop] at hgone
      simp only [forwardedNames, mem_cons, not_mem_nil, or_false] at hname
      rcases hname with rfl | rfl | rfl | rfl
      · cases h.proto.symm.trans hgone
      · cases h.host.symm.trans hgone
      · cases h.realIp.symm.trans hgone
      · cases h.forwardedFor.symm.trans hgone
  · intro h
    have hkept : ∀ name ∈ forwardedNames,
        getAll (forwardHeaders client peer https clientHost) name =
          getAll (addForwardedHeaders client peer https clientHost) name := by
      intro name hname
      rw [getAll_forwardHeaders peer https clientHost hplain, h name hname]
      rfl
    constructor
    · rw [hkept _ (by simp [forwardedNames])]
      exact hadded.forwardedFor
    · rw [hkept _ (by simp [forwardedNames])]
      exact hadded.realIp
    · rw [hkept _ (by simp [forwardedNames])]
      exact hadded.proto
    · rw [hkept _ (by simp [forwardedNames])]
      exact hadded.host

theorem isHopByHop_of_readable {token : Bytes} (hvalue : value ∈ getAll client connection)
    (hreadable : headerText value ≠ none) (htoken : token ∈ listTokens value)
    (hnames : namesHeader name token = true) : isHopByHop client name = true := by
  have htext : headerText value = some value := by
    unfold headerText at hreadable ⊢
    split_ifs at hreadable ⊢ with hvisible
    · rfl
    · exact absurd rfl hreadable
  have hmem : token ∈ connectionTokens client :=
    mem_flatMap.2 ⟨value, mem_filterMap.2 ⟨value, hvalue, htext⟩, htoken⟩
  rw [isHopByHop, any_eq_true.2 ⟨token, hmem, hnames⟩, Bool.or_true]

theorem stripped_forwardHeaders_iff (hplain : isUpgrade client = false) :
    Stripped client (forwardHeaders client peer https clientHost) ↔ UnreadableHarmless client := by
  have hother : ∀ name ∉ forwardedNames, getAll (forwardHeaders client peer https clientHost) name =
      if isHopByHop client name then [] else getAll client name := by
    intro name hname
    rw [getAll_forwardHeaders peer https clientHost hplain, getAll_addForwardedHeaders hname]
  constructor
  · intro h value hvalue hunreadable token htoken header hheader hnames
    by_contra hkept
    rw [not_or, Bool.not_eq_true] at hkept
    -- the header is named and kept
    have hgone := h.named header.1 hkept.1 ⟨value, hvalue, token, htoken, hnames⟩
    rw [hother _ hkept.1, hkept.2, if_neg Bool.false_ne_true] at hgone
    exact getAll_eq_nil_iff.1 hgone header.2 hheader
  · intro h
    refine ⟨?_, ?_, ?_⟩
    · intro name hname
      have hhop : isHopByHop client name = true := by
        rw [isHopByHop, contains_iff_mem.2 hname, Bool.or_true, Bool.true_or]
      rw [getAll_forwardHeaders peer https clientHost hplain, if_pos hhop]
    · have hhop : isHopByHop client upgrade = true := by
        rw [isHopByHop, beq_self_eq_true, Bool.true_or, Bool.true_or]
      rw [getAll_forwardHeaders peer https clientHost hplain, if_pos hhop]
    · rintro name hname ⟨value, hvalue, token, htoken, hnames⟩
      rw [hother name hname]
      split_ifs with hhop
      · rfl
      · refine getAll_eq_nil_iff.2 fun v hv => hhop ?_
        by_cases hreadable : headerText value = none
        · exact (h value hvalue hreadable token htoken (name, v) hv hnames).resolve_left hname
        · exact isHopByHop_of_readable hvalue hreadable htoken hnames

end Rewrites

/-- An upstream can trust the forwarded headers, and sees nothing of the client's connection, exactly
for upgrades and for requests whose readable `Connection` values spare the four headers and whose
unreadable ones name nothing that would have to go. -/
theorem forwarded_headers_iff (client : HeaderMap) (peer : IpAddr) (https : Bool) {clientHost : Str}
    (hhost : (headerValue clientHost).isSome = true) :
    (Trusted (forwardHeaders client peer https clientHost) peer https clientHost ∧
      (isUpgrade client = false →
        Stripped client (forwardHeaders client peer https clientHost))) ↔
      isUpgrade client = true ∨ (SparesForwarded client ∧ UnreadableHarmless client) := by
  cases hupgrade : isUpgrade client with
  | true =>
    have htrusted : Trusted (forwardHeaders client peer https clientHost) peer https clientHost := by
      simp only [forwardHeaders]
      rw [if_pos (isUpgrade_addForwardedHeaders.trans hupgrade)]
      exact trusted_addForwardedHeaders client peer https hhost
    simp [htrusted]
  | false =>
    rw [trusted_forwardHeaders_iff hhost hupgrade, stripped_forwardHeaders_iff hupgrade]
    simp

def peerAddr : IpAddr := .v4 [192, 168, 1, 9]

/-- The headers of a browser that asks to keep its connection. -/
def keepAliveRequest : HeaderMap :=
  [("host", ascii "app.test"), (connection, ascii "keep-alive"),
    ("keep-alive", ascii "timeout=5"), (forwardedFor, ascii "10.0.0.1")]

theorem forwarded_keepAlive :
    Trusted (forwardHeaders keepAliveRequest peerAddr true "app.test".toList) peerAddr true
      "app.test".toList := by
  have hspares : SparesForwarded keepAliveRequest := by
    unfold SparesForwarded
    decide +kernel
  have hharmless : UnreadableHarmless keepAliveRequest := by
    unfold UnreadableHarmless
    decide +kernel
  exact ((forwarded_headers_iff keepAliveRequest peerAddr true (by decide +kernel)).2
    (.inr ⟨hspares, hharmless⟩)).1

/-- A client that asks for the headers to be dropped. -/
def dropForwardedFor : HeaderMap :=
  [("host", ascii "app.test"), (connection, ascii "X-Forwarded-For, X-Real-IP")]

theorem forwarded_headers_dropped :
    (headerValue "app.test".toList).isSome = true ∧ isUpgrade dropForwardedFor = false ∧
      getAll (forwardHeaders dropForwardedFor peerAddr true "app.test".toList) forwardedFor = [] ∧
      ¬Trusted (forwardHeaders dropForwardedFor peerAddr true "app.test".toList) peerAddr true
        "app.test".toList := by
  have hgone :
      getAll (forwardHeaders dropForwardedFor peerAddr true "app.test".toList) forwardedFor = [] := by
    decide +kernel
  refine ⟨by decide +kernel, by decide +kernel, hgone, fun h => ?_⟩
  cases h.forwardedFor.symm.trans hgone

/-- How each step of an exchange ends; a step that takes too long fails. The response head comes
last. -/
structure Upstream where
  connect : Except Str Unit
  serverName : Except Str Unit
  tls : Except Str Unit
  handshake : Except Str Unit
  head : Except Str (StatusCode × HeaderMap)

/-- The body is none where it is the upstream's. -/
structure Relayed where
  status : StatusCode
  headers : HeaderMap
  body : Option Bytes
  deriving DecidableEq

inductive ProxyError where
  | hyper (source : Str)
  deriving DecidableEq

def badGatewayResponse : Relayed :=
  ⟨⟨502, by decide⟩,
    [("server", utf8 proxyServerId), ("content-type", utf8 "text/plain; charset=utf-8")],
    some (utf8 "Proxy upstream unavailable.\n")⟩

/-- The tunnel keeps `Upgrade`. -/
def stripHopByHop (headers : HeaderMap) : HeaderMap :=
  replace (headers.filter fun h => h.1 == upgrade || !isHopByHop headers h.1) connection
    (utf8 upgrade)

/-- An upgrade that the upstream may refuse. -/
def tunnelOver (up : Upstream) : Except ProxyError Relayed := do
  up.handshake.mapError .hyper
  let (status, headers) ← up.head.mapError .hyper
  if status.code ≠ 101 then return ⟨status, stripHopByHopOnly headers, none⟩
  return ⟨status, stripHopByHop headers, some []⟩

/-- An upstream that fails is a bad gateway. -/
def forwardPlain (up : Upstream) : Except ProxyError Relayed :=
  match up.handshake with
  | .error _ => .ok badGatewayResponse
  | .ok () =>
    match up.head with
    | .error _ => .ok badGatewayResponse
    | .ok (status, headers) => .ok ⟨status, stripHopByHopOnly headers, none⟩

def Upstream.forward (up : Upstream) (client : HeaderMap) (target : Core.UpstreamTarget)
    (peer : IpAddr) (https : Bool) (clientHost : Str) : Except ProxyError Relayed :=
  let run :=
    if isUpgrade (addForwardedHeaders client peer https clientHost) then tunnelOver up
    else forwardPlain up
  match up.connect with
  | .error _ => .ok badGatewayResponse
  | .ok () =>
    if target.secure then
      match up.serverName with
      | .error _ => .ok badGatewayResponse
      | .ok () =>
        match up.tls with
        | .error _ => .ok badGatewayResponse
        | .ok () => run
    else run

/-- A connection stands, for an https upstream a secured one. -/
def Upstream.Reached (up : Upstream) (target : Core.UpstreamTarget) : Prop :=
  up.connect = .ok () ∧ (target.secure = true → up.serverName = .ok () ∧ up.tls = .ok ())

/-- The response head arrives. -/
def Upstream.Answers (up : Upstream) (target : Core.UpstreamTarget) : Prop :=
  up.Reached target ∧ up.handshake = .ok () ∧ ∃ head, up.head = .ok head

variable {up : Upstream}

theorem exchange_fails (h : ¬(up.handshake = .ok () ∧ ∃ head, up.head = .ok head)) :
    forwardPlain up = .ok badGatewayResponse ∧ ∃ e, tunnelOver up = .error e := by
  unfold forwardPlain tunnelOver
  cases hshake : up.handshake with
  | error e => exact ⟨rfl, _, rfl⟩
  | ok _ =>
    cases hhead : up.head with
    | error e => exact ⟨rfl, _, rfl⟩
    | ok head => exact absurd ⟨hshake, head, hhead⟩ h

theorem forward_of_not_reached {target : Core.UpstreamTarget} (h : ¬up.Reached target) :
    up.forward client target peer https clientHost = .ok badGatewayResponse := by
  unfold Upstream.forward
  cases hconnect : up.connect with
  | error e => rfl
  | ok _ =>
    cases hsecure : target.secure with
    | false => exact absurd ⟨hconnect, by simp [hsecure]⟩ h
    | true =>
      cases hname : up.serverName with
      | error e => rfl
      | ok _ =>
        cases htls : up.tls with
        | error e => rfl
        | ok _ => exact absurd ⟨hconnect, fun _ => ⟨hname, htls⟩⟩ h

/-- An upstream that fails before its response head gives a 502, except to an upgrade once the
connection stands. -/
theorem bad_gateway_iff (client : HeaderMap) (target : Core.UpstreamTarget) (peer : IpAddr)
    (https : Bool) (clientHost : Str) (up : Upstream) (hfails : ¬up.Answers target) :
    up.forward client target peer https clientHost = .ok badGatewayResponse ↔
      isUpgrade client = false ∨ ¬up.Reached target := by
  by_cases hreached : up.Reached target
  · obtain ⟨hplain, e, htunnel⟩ := exchange_fails fun h => hfails ⟨hreached, h⟩
    have hrun : up.forward client target peer https clientHost
        = if isUpgrade client then tunnelOver up else forwardPlain up := by
      unfold Upstream.forward
      rw [isUpgrade_addForwardedHeaders, hreached.1]
      cases hsecure : target.secure with
      | false => rfl
      | true => simp [hreached.2 hsecure]
    rw [hrun, hplain, htunnel]
    cases isUpgrade client <;> simp [hreached]
  · simp [forward_of_not_reached hreached, hreached]

def upstreamTarget : Core.UpstreamTarget :=
  Core.ContainerProject.loopback 8080 (by decide)

def refusing : Upstream := ⟨.error "connection refused", .ok (), .ok (), .ok (), .error ""⟩

def closing : Upstream := { refusing with connect := .ok (), head := .error "connection closed" }

theorem bad_gateway_refused :
    refusing.forward [] upstreamTarget peerAddr true "ws.test" = .ok badGatewayResponse :=
  (bad_gateway_iff [] upstreamTarget peerAddr true "ws.test" refusing fun h => nomatch h.1.1).2
    (.inl (by decide))

/-- A websocket whose upstream closes the connection: the error becomes a 500. -/
theorem bad_gateway_upgrade :
    closing.forward [(upgrade, ascii "websocket"), (connection, ascii "Upgrade")] upstreamTarget
      peerAddr true "ws.test" = .error (.hyper "connection closed") := by
  decide +kernel

end Orcker.Proxy
