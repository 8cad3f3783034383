import Orcker.Base.Json
import Orcker.Daemon.LoopGuard

/-!
# The MCP server

The server sorts a message into requests, notifications and stray responses; a tool call becomes a
daemon request, which a closed gate holds back.
-/

namespace Orcker.Mcp

open Base Orcker.Core

/-! ## The tool catalog

What agents may call, and the one daemon request each call becomes. An upstream has to name this
machine. -/

/-- The requests tools are made of; the changes to sites and proxies are the mutations. -/
inductive ToolRequest where
  | mutation (req : Daemon.Request)
  | listSites
  | listParked
  | listProxies
  | setMailEnabled (enabled : Bool)
  | listMails
  | getMail (id : Str)
  | status
  | diagnose
  | jobStatus (jobId : Str) (cursor : Nat)

/-- Why an argument has the right type and is refused all the same. -/
inductive InvalidReason where
  | core (e : CoreError)
  | notLoopback (host : Str)
  deriving DecidableEq

inductive ArgError where
  | unknownTool (name : Str)
  | missing (name : Str)
  | type (name expected : Str)
  | invalid (name : Str) (reason : InvalidReason)
  deriving DecidableEq

/-- The catalog, in the order agents see it. -/
def tools : List Str :=
  ["list_sites", "link_site", "park_directory", "list_parked", "set_site_secure", "add_domain",
    "remove_domain", "add_proxy", "remove_proxy", "add_proxy_rule", "remove_proxy_rule",
    "list_proxies", "set_mail_enabled", "list_mails", "get_mail", "status", "diagnose",
    "job_status"].map String.toList

/-- An argument that has to be there, of the type that `read` accepts. -/
def required {α : Type} (read : Json → Option α) (expected : Str) (args : Json) (name : Str) :
    Except ArgError α :=
  match args.get name with
  | none | some .null => .error (.missing name)
  | some v =>
    match read v with
    | some a => .ok a
    | none => .error (.type name expected)

def reqStr : Json → Str → Except ArgError Str := required Json.asStr "a string"

def reqBool : Json → Str → Except ArgError Bool := required Json.asBool "a boolean"

def optU64 (args : Json) (name : Str) (default : Nat) : Except ArgError Nat :=
  match args.get name with
  | none | some .null => .ok default
  | some v =>
    match v.asU64 with
    | some n => .ok n
    | none => .error (.type name "a non-negative integer")

/-- The host names this machine, whatever a resolver would say. -/
def isLoopbackHost (host : Str) : Bool :=
  host == "localhost" || (parseIp host).any (·.isLoopback)

/-- An upstream is checked on a parsed copy, and sent as text. -/
def reqLocalUrl (args : Json) (name : Str) : Except ArgError Str := do
  let raw ← reqStr args name
  let target ← (UpstreamTarget.fromUrlStr raw).mapError fun e => ArgError.invalid name (.core e)
  if !isLoopbackHost target.host then
    .error (.invalid name (.notLoopback target.host))
  else return raw

/-- The request of one tool; names outside the catalog do not get here. -/
def buildRequest (name : Str) (args : Json) : Except ArgError ToolRequest :=
  let arg (key : String) := reqStr args key.toList
  if name = "list_sites" then .ok .listSites
  else if name = "link_site" then do
    let siteName ← arg "name"
    let path ← arg "path"
    return .mutation (.link (.ofStr path) siteName)
  else if name = "park_directory" then do
    let path ← arg "path"
    return .mutation (.park (.ofStr path))
  else if name = "list_parked" then .ok .listParked
  else if name = "set_site_secure" then do
    let siteName ← arg "name"
    let secure ← reqBool args "secure"
    return .mutation (.setSecure siteName secure)
  else if name = "add_domain" then do
    let siteName ← arg "name"
    let domain ← arg "domain"
    return .mutation (.addDomain siteName domain)
  else if name = "remove_domain" then do
    let siteName ← arg "name"
    let domain ← arg "domain"
    return .mutation (.removeDomain siteName domain)
  else if name = "add_proxy" then do
    let proxyName ← arg "name"
    let url ← reqLocalUrl args "url"
    return .mutation (.addProxy proxyName url)
  else if name = "remove_proxy" then do
    let proxyName ← arg "name"
    return .mutation (.removeProxy proxyName)
  else if name = "add_proxy_rule" then do
    let site ← arg "site"
    let pathPrefix ← arg "prefix"
    let url ← reqLocalUrl args "url"
    return .mutation (.addProxyRule site pathPrefix url)
  else if name = "remove_proxy_rule" then do
    let site ← arg "site"
    let pathPrefix ← arg "prefix"
    return .mutation (.removeProxyRule site pathPrefix)
  else if name = "list_proxies" then .ok .listProxies
  else if name = "set_mail_enabled" then do
    let enabled ← reqBool args "enabled"
    return .setMailEnabled enabled
  else if name = "list_mails" then .ok .listMails
  else if name = "get_mail" then do
    let id ← arg "id"
    return .getMail id
  else if name = "status" then .ok .status
  else if name = "diagnose" then .ok .diagnose
  else if name = "job_status" then do
    let jobId ← arg "job_id"
    let cursor ← optU64 args "cursor" 0
    return .jobStatus jobId cursor
  else .error (.unknownTool name)

/-- Look a tool up and make its request; the catalog's name comes with it. -/
def build (name : Str) (args : Json) : Except ArgError (Str × ToolRequest) :=
  match tools.find? (· = name) with
  | none => .error (.unknownTool name)
  | some tool => (buildRequest tool args).map fun request => (tool, request)

theorem isLoopbackHost_of_reqLocalUrl {args : Json} {name raw : Str}
    (h : reqLocalUrl args name = .ok raw) :
    ∃ target, UpstreamTarget.fromUrlStr raw = .ok target ∧ isLoopbackHost target.host = true := by
  simp only [reqLocalUrl, bind_eq_ok_iff, mapError_eq_ok_iff] at h
  obtain ⟨raw', -, target, htarget, h⟩ := h
  cases hloop : isLoopbackHost target.host with
  | false =>
    rw [hloop] at h
    cases h
  | true =>
    rw [hloop] at h
    cases h
    exact ⟨target, htarget, hloop⟩

/-- Whether the user lets agents in. -/
inductive Availability where
  | enabled
  | disabled
  | unknown
  deriving DecidableEq

structure Server where
  initialized : Bool
  availability : Availability
  version : Str

/-- A call that waits for the daemon. -/
structure PendingCall where
  request : ToolRequest
  id : Json
  tool : Str

/-- Replies are kept as values here; they are printed when they are written. -/
inductive Outgoing where
  | reply (reply : Json)
  | none
  | callDaemon (call : PendingCall)
  | policyBlocked (call : PendingCall)

/-- What replies say beside their ids: the catalog with its schemas, how a daemon's response is
told, and the text of a core error. -/
structure Wording (Response : Type) where
  listResult : Json
  render : Str → Response → Json
  describe : CoreError → Str

def field (key : String) (v : Json) : Str × Json := (key.toList, v)

def text (s : String) : Json := .string s.toList

def resultReply (id result : Json) : Json :=
  .object [field "jsonrpc" (text "2.0"), field "id" id, field "result" result]

/-- The codes are all negative. -/
def errorReply (id : Json) (code : Nat) (message : Str) : Json :=
  .object [field "jsonrpc" (text "2.0"), field "id" id,
    field "error" (.object [field "code" (.number (.negInt code)),
      field "message" (.string message)])]

def parseError : Nat := 32700
def invalidRequest : Nat := 32600
def methodNotFound : Nat := 32601
def invalidParams : Nat := 32602
def notInitializedCode : Nat := 32000

def notInitialized (id : Json) : Json :=
  errorReply id notInitializedCode "server not initialized; send `initialize` first"

def parseErrorReply (message : Str) : Json := errorReply .null parseError message

def toolError (message : Str) : Json :=
  .object [field "content" (.array [.object [field "type" (text "text"),
    field "text" (.string message)]]), field "isError" (.bool true)]

def instructions : Availability → Json
  | .enabled => text
      ("Orcker serves local sites on .test domains, with mail capture. Tools that start " ++
        "background work return a job_id immediately: poll job_status with the job_id and the " ++
        "returned next_cursor until state is succeeded, failed, or cancelled.")
  | .disabled => text
      ("Orcker's MCP tools are currently disabled. The user can enable them in Orcker under " ++
        "Settings > General > AI Agents; enabling applies to this session on the next tool call, " ++
        "so there is no need to restart.")
  | .unknown => text
      ("Orcker's MCP tools could not be checked because the Orcker daemon was not reachable at " ++
        "startup. If Orcker is not running, ask the user to start it (open the Orcker app, or " ++
        "run orckerd); if a tool reports the feature is disabled, ask the user to enable it " ++
        "under Settings > General > AI Agents.")

/-- What an agent is told behind a closed gate. -/
def gateGuidance : Availability → Str
  | .enabled | .disabled =>
    ("Orcker's MCP tools are disabled. Ask the user to enable them in Orcker under Settings > " ++
      "General > AI Agents, then retry - the change applies to this session on the next tool " ++
      "call.").toList
  | .unknown =>
    ("Orcker's MCP tools are unavailable: the Orcker daemon could not be reached, so the setting " ++
      "could not be read. Ask the user to start Orcker (open the Orcker app, or run orckerd), " ++
      "and to enable Settings > General > AI Agents if it is off.").toList

def gateReply (server : Server) (call : PendingCall) : Json :=
  resultReply call.id (toolError (gateGuidance server.availability))

def PendingCall.complete {Response : Type} (wording : Wording Response) (call : PendingCall)
    (result : Except Str Response) : Json :=
  resultReply call.id
    (match result with
    | .ok resp => wording.render call.tool resp
    | .error e => toolError e)

def ArgError.message (describe : CoreError → Str) : ArgError → Str
  | .unknownTool name => "unknown tool `" ++ name ++ "`"
  | .missing name => "missing required argument `" ++ name ++ "`"
  | .type name expected => "argument `" ++ name ++ "` must be " ++ expected
  | .invalid name (.core e) => "argument `" ++ name ++ "` is invalid: " ++ describe e
  | .invalid name (.notLoopback host) =>
    "argument `" ++ name ++ "` is invalid: `" ++ host ++
      ("` is not a loopback address. Proxy upstreams must name this machine explicitly: " ++
        "localhost, 127.0.0.0/8, or ::1. A dev server that advertises 0.0.0.0:PORT is reachable " ++
        "at 127.0.0.1:PORT. If a genuinely remote upstream is wanted, ask the user to add it " ++
        "themselves with `orcker proxy add`.").toList

def latestProtocolVersion : Str := "2025-11-25"

def supportedProtocolVersions : List Str :=
  [latestProtocolVersion, "2025-06-18", "2025-03-26", "2024-11-05"]

def initializeResult (server : Server) (params : Json) : Json :=
  let requested := (params.get "protocolVersion").bind Json.asStr
  let version := (requested.filter (· ∈ supportedProtocolVersions)).getD latestProtocolVersion
  .object [field "protocolVersion" (.string version),
    field "capabilities" (.object [field "tools" (.object [])]),
    field "serverInfo" (.object [field "name" (text "orcker"),
      field "version" (.string server.version)]),
    field "instructions" (instructions server.availability)]

section Handle

variable {Response : Type} (crate : JsonCrate) (wording : Wording Response)

/-- A tool call; a closed gate holds it back. -/
def toolsCall (server : Server) (id params : Json) : Outgoing :=
  if !server.initialized then .reply (notInitialized id)
  else
    match (params.get "name").bind Json.asStr with
    | none => .reply (errorReply id invalidParams "missing tool name in `params.name`")
    | some name =>
      let args := (params.get "arguments").getD (.object [])
      match build name args with
      | .error e => .reply (errorReply id invalidParams (e.message wording.describe))
      | .ok (tool, request) =>
        let call : PendingCall := { request, id, tool }
        if server.availability = .enabled then .callDaemon call else .policyBlocked call

/-- The methods. -/
def dispatch (server : Server) (method : Str) (id params : Json) : Server × Outgoing :=
  if method = "initialize" then
    let server := { server with initialized := true }
    (server, .reply (resultReply id (initializeResult server params)))
  else if method = "ping" then (server, .reply (resultReply id (.object [])))
  else if method = "tools/list" then
    if !server.initialized then (server, .reply (notInitialized id))
    else (server, .reply (resultReply id wording.listResult))
  else if method = "tools/call" then (server, toolsCall wording server id params)
  else
    (server, .reply (errorReply id methodNotFound
      ("unknown method `" ++ method ++ "`")))

/-- A response to a request this server never made. -/
def isStray (message : Json) : Bool :=
  (message.get "method").isNone &&
    ((message.get "result").isSome || (message.get "error").isSome)

/-- A message that is an object. -/
def handleObject (server : Server) (message : Json) : Server × Outgoing :=
  if isStray message then (server, .none)
  else
    match (message.get "method").bind Json.asStr with
    | none =>
      match message.get "id" with
      | some id =>
        (server, .reply (errorReply id invalidRequest "`method` is missing or not a string"))
      | none => (server, .none)
    | some method =>
      match message.get "id" with
      | none => (server, .none)
      | some id => dispatch wording server method id ((message.get "params").getD .null)

/-- One line in, at most one reply out. -/
def handleLine (server : Server) (line : Str) : Server × Outgoing :=
  match crate.fromStr line with
  | .error e => (server, .reply (parseErrorReply ("parse error: " ++ e)))
  | .ok (.object fields) => handleObject wording server (.object fields)
  | .ok (.array _) =>
    (server, .reply (errorReply .null invalidRequest
      "batched requests are not supported; send one message per line"))
  | .ok _ =>
    (server, .reply (errorReply .null invalidRequest "expected a JSON-RPC request object"))

end Handle

def replyId (reply : Json) : Option Json := reply.get "id"

@[simp] theorem replyId_resultReply (id result : Json) :
    replyId (resultReply id result) = some id := by
  rfl

@[simp] theorem replyId_errorReply (id : Json) (code : Nat) (message : Str) :
    replyId (errorReply id code message) = some id := by
  rfl

/-- The ids a message has to be answered with: an object's own, none for a notification or a stray
response, and null for what is no object. -/
def answerIds (message : Except Str Json) : List Json :=
  match message with
  | .ok (.object fields) =>
    if isStray (.object fields) then [] else ((Json.object fields).get "id").toList
  | _ => [.null]

/-- The ids that are answered, now or later. -/
def Outgoing.ids : Outgoing → List (Option Json)
  | .reply r => [replyId r]
  | .none => []
  | .callDaemon call | .policyBlocked call => [some call.id]

section Handle

variable {Response : Type} (crate : JsonCrate) (wording : Wording Response)

theorem toolsCall_ids (server : Server) (id params : Json) :
    (toolsCall wording server id params).ids = [some id] := by
  unfold toolsCall
  split
  · rfl
  · split
    · rfl
    · dsimp only
      split
      · rfl
      · split <;> rfl

theorem dispatch_ids (server : Server) (method : Str) (id params : Json) :
    (dispatch wording server method id params).2.ids = [some id] := by
  unfold dispatch
  split_ifs
  · rfl
  · rfl
  · rfl
  · rfl
  · exact toolsCall_ids wording server id params
  · rfl

theorem handleObject_ids (server : Server) (message : Json) :
    (handleObject wording server message).2.ids =
      (if isStray message then [] else (message.get "id").toList).map some := by
  unfold handleObject
  split_ifs with hstray
  · rfl
  · cases hid : message.get "id" with
    | none => split <;> rfl
    | some id =>
      split
      · rfl
      · exact dispatch_ids wording server _ id _

/-- Which id a reply carries does not depend on the server's state. -/
theorem handleLine_ids (server : Server) (line : Str) :
    (handleLine crate wording server line).2.ids =
      (answerIds (crate.fromStr line)).map some := by
  unfold handleLine
  cases hparse : crate.fromStr line with
  | error e => rfl
  | ok message =>
    cases message with
    | object fields => exact handleObject_ids wording server (.object fields)
    | null | bool | number | string | array => rfl

end Handle

end Orcker.Mcp
