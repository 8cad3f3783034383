import Orcker.Base.Numeral

/-!
# HTTP messages

The parts of a request and a response that the proxy decides on.
-/

namespace Orcker.Proxy

open Base

inductive Method where
  | options
  | get
  | post
  | put
  | delete
  | head
  | trace
  | connect
  | patch
  | extension (name : Str)
  deriving DecidableEq

def Method.asStr : Method → Str
  | options => "OPTIONS"
  | get => "GET"
  | post => "POST"
  | put => "PUT"
  | delete => "DELETE"
  | head => "HEAD"
  | trace => "TRACE"
  | connect => "CONNECT"
  | patch => "PATCH"
  | extension name => name

structure StatusCode where
  code : Nat
  valid : 100 ≤ code ∧ code < 1000
  deriving DecidableEq

namespace StatusCode

def ok : StatusCode := ⟨200, by decide⟩
def movedPermanently : StatusCode := ⟨301, by decide⟩
def forbidden : StatusCode := ⟨403, by decide⟩
def methodNotAllowed : StatusCode := ⟨405, by decide⟩

def fromU16 (n : Nat) : Option StatusCode :=
  if h : 100 ≤ n ∧ n < 1000 then some ⟨n, h⟩ else none

end StatusCode

/-- A response the proxy builds itself; header names are in lower case. -/
structure Response where
  status : StatusCode
  headers : List (Str × Str)
  body : Bytes
  deriving DecidableEq

/-- The `server` header of the proxy's own responses. -/
def proxyServerId : Str := "orcker"

/-- The methods that static content answers. -/
def Method.isRead (m : Method) : Bool := m = get || m = head

/-! ## Request targets

The path and query of a request, the query parameter that carries a login token, and the location
of the proxy's own trailing-slash redirect. -/

/-- The path and query of a request; an authority-form target has neither. -/
structure Uri where
  target : Option (Str × Option Str)
  deriving DecidableEq

namespace Uri

def path (uri : Uri) : Str := (uri.target.map Prod.fst).getD []

def query (uri : Uri) : Option Str := uri.target.bind Prod.snd

def pathAndQueryOrRoot (uri : Uri) : Str :=
  match uri.target with
  | none => ['/']
  | some (path, none) => path
  | some (path, some query) => path ++ '?' :: query

end Uri

/-- The first value of a parameter, as it stands in the query. -/
def getParam (query : Option Str) (name : Str) : Option Str :=
  query.bind fun q => (q.splitOn '&').findSome? fun pair =>
    match splitOnce '=' pair with
    | none => none
    | some (key, value) => if key = name then some value else none

def paramKey (pair : Str) : Str :=
  match splitOnce '=' pair with
  | some (key, _) => key
  | none => pair

/-- Remove a parameter, and the `?` with it when no other is left. -/
def stripParam (pathAndQuery name : Str) : Str :=
  match splitOnce '?' pathAndQuery with
  | none => pathAndQuery
  | some (path, query) =>
    let kept := ((query.splitOn '&').filter fun pair => !pair.isEmpty).filter fun pair =>
      paramKey pair ≠ name
    if kept.isEmpty then path else path ++ '?' :: List.intercalate ['&'] kept

/-- The target with a slash after its path. -/
def directoryRedirectLocation (pathAndQuery : Str) : Str :=
  let (path, query) := match splitOnce '?' pathAndQuery with
    | some (path, query) => (path, some query)
    | none => (pathAndQuery, none)
  let out :=
    if path.isEmpty then ['/'] else if path.getLast? == some '/' then path else path ++ ['/']
  match query with
  | some query => out ++ '?' :: query
  | none => out

end Orcker.Proxy
