import Orcker.Base.Path
import Orcker.Proxy.Http

/-!
# CGI parameters

The script is the one resolved on disk, else the `index.php` of the document root.
-/

namespace Orcker.Proxy

open Base List

/-- Header lines in iteration order; names are in lower case. -/
abbrev HeaderMap := List (Str × Bytes)

def HeaderMap.get (headers : HeaderMap) (name : Str) : Option Bytes :=
  (headers.find? (·.1 = name)).map Prod.snd

/-- A header value that is visible ASCII text. -/
def headerText (value : Bytes) : Option Bytes :=
  if value.all fun b => (32 ≤ b.toNat && b.toNat < 127) || b == 9 then some value else none

/-- A socket address, by the text of its IP. -/
structure SocketAddr where
  ip : Str
  port : UInt16

/-- What a consumed login token adds to one request. -/
structure AutoLoginParams where
  prependScript : Path
  targetUser : Str

def ascii (s : String) : Bytes := utf8 s.toList

def splitPathQuery (pathAndQuery : Str) : Str × Str :=
  match splitOnce '?' pathAndQuery with
  | some (path, query) => (path, query)
  | none => (pathAndQuery, [])

/-- The script to run and the name it is known by. -/
def scriptOf (documentRoot : Path) : Option Path → Path × Str
  | some rel =>
    (documentRoot.join rel, '/' :: rel.toStringLossy.map fun c => if c = '\\' then '/' else c)
  | none => (documentRoot.join (Path.ofStr "index.php"), "/index.php")

/-- `HTTP_` and the name in upper case, with dashes as underscores. -/
def headerKey (name : Str) : Bytes :=
  ascii "HTTP_" ++ (utf8 name).map fun b =>
    if b = 45 then 95 else if 97 ≤ b.toNat ∧ b.toNat ≤ 122 then b - 32 else b

/-- The parameters that do not come from the client's headers. -/
def serverParams (method : Str) (pathAndQuery : Str) (documentRoot : Path)
    (scriptRel : Option Path) (https : Bool) (remoteAddr serverAddr : SocketAddr)
    (autoLogin : Option AutoLoginParams) : List (Bytes × Bytes) :=
  let (path, query) := splitPathQuery pathAndQuery
  let (scriptFilename, scriptName) := scriptOf documentRoot scriptRel
  [(ascii "GATEWAY_INTERFACE", ascii "CGI/1.1"),
    (ascii "SERVER_PROTOCOL", ascii "HTTP/1.1"),
    (ascii "REQUEST_METHOD", utf8 method),
    (ascii "REQUEST_URI", utf8 pathAndQuery),
    (ascii "QUERY_STRING", utf8 query),
    (ascii "SCRIPT_NAME", utf8 scriptName),
    (ascii "SCRIPT_FILENAME", utf8 scriptFilename.toStringLossy),
    (ascii "DOCUMENT_ROOT", utf8 documentRoot.toStringLossy),
    (ascii "PATH_INFO", utf8 path),
    (ascii "REMOTE_ADDR", utf8 remoteAddr.ip),
    (ascii "REMOTE_PORT", utf8 (decimal remoteAddr.port.toNat)),
    (ascii "SERVER_ADDR", utf8 serverAddr.ip),
    (ascii "SERVER_PORT", utf8 (decimal serverAddr.port.toNat)),
    (ascii "SERVER_SOFTWARE", ascii "orcker (nginx-compatible)")] ++
    (if https then [(ascii "HTTPS", ascii "on")] else []) ++
    match autoLogin with
    | some login =>
      [(ascii "PHP_VALUE", ascii "auto_prepend_file=" ++ utf8 login.prependScript.toStringLossy),
        (ascii "ORCKER_LOGIN_USER", utf8 login.targetUser)]
    | none => []

/-- The headers that reach PHP under names of their own. -/
def namedHeaderParams (headers : HeaderMap) : List (Bytes × Bytes) :=
  (match (headers.get "host").bind headerText with
    | some host => [(ascii "SERVER_NAME", host), (ascii "HTTP_HOST", host)]
    | none => []) ++
  (match (headers.get "content-type").bind headerText with
    | some value => [(ascii "CONTENT_TYPE", value)]
    | none => []) ++
  match (headers.get "content-length").bind headerText with
  | some value => [(ascii "CONTENT_LENGTH", value)]
  | none => []

/-- The headers that have no parameter of their own. -/
def plainHeaders (headers : HeaderMap) : HeaderMap :=
  headers.filter fun h =>
    !(["host".toList, "content-type".toList, "content-length".toList].contains h.1)

/-- The parameter list of one FastCGI request. -/
def buildParams (method : Str) (pathAndQuery : Str) (headers : HeaderMap) (documentRoot : Path)
    (scriptRel : Option Path) (https : Bool) (remoteAddr serverAddr : SocketAddr)
    (autoLogin : Option AutoLoginParams) : List (Bytes × Bytes) :=
  serverParams method pathAndQuery documentRoot scriptRel https remoteAddr serverAddr autoLogin ++
    namedHeaderParams headers ++
    (plainHeaders headers).map fun h => (headerKey h.1, h.2)

theorem headerKey_ne {name : Str} {key : Bytes} (h : key.take 5 ≠ ascii "HTTP_") :
    headerKey name ≠ key := by
  rintro rfl
  refine h ?_
  unfold headerKey
  exact take_left' rfl

theorem mem_namedHeaderParams {headers : HeaderMap} {p : Bytes × Bytes}
    (h : p ∈ namedHeaderParams headers) :
    p.1 ∈ [ascii "SERVER_NAME", ascii "HTTP_HOST", ascii "CONTENT_TYPE",
      ascii "CONTENT_LENGTH"] := by
  unfold namedHeaderParams at h
  rcases mem_append.1 h with h | h
  · rcases mem_append.1 h with h | h
    · split at h
      · rcases mem_pair.1 h with rfl | rfl <;> simp
      · cases h
    · split at h
      · rcases mem_singleton.1 h with rfl
        simp
      · cases h
  · split at h
    · rcases mem_singleton.1 h with rfl
      simp
    · cases h

theorem mem_iff_of_keys {key value expected : Bytes} {before after : List (Bytes × Bytes)}
    (hbefore : ∀ p ∈ before, p.1 ≠ key) (hafter : ∀ p ∈ after, p.1 ≠ key) :
    (key, value) ∈ before ++ (key, expected) :: after ↔ value = expected := by
  rw [mem_append, mem_cons]
  constructor
  · rintro (h | h | h)
    · exact absurd rfl (hbefore _ h)
    · exact (Prod.mk.inj h).2
    · exact absurd rfl (hafter _ h)
  · rintro rfl
    exact Or.inr (Or.inl rfl)

/-- Header names reach PHP behind `HTTP_`, so no header can name the script. -/
theorem mem_buildParams_scriptFilename {method pathAndQuery : Str} {headers : HeaderMap}
    {documentRoot : Path} {scriptRel : Option Path} {https : Bool}
    {remoteAddr serverAddr : SocketAddr} {autoLogin : Option AutoLoginParams} {value : Bytes} :
    (ascii "SCRIPT_FILENAME", value) ∈ buildParams method pathAndQuery headers documentRoot
      scriptRel https remoteAddr serverAddr autoLogin ↔
      value = utf8 (scriptOf documentRoot scriptRel).1.toStringLossy := by
  have hnamed : (ascii "SCRIPT_FILENAME", value) ∉ namedHeaderParams headers := by
    intro hmem
    exact absurd (mem_namedHeaderParams hmem) (by simp only; decide)
  have hplain : (ascii "SCRIPT_FILENAME", value) ∉
      (plainHeaders headers).map fun h => (headerKey h.1, h.2) := by
    intro hmem
    obtain ⟨h, -, heq⟩ := mem_map.1 hmem
    exact headerKey_ne (by decide) (Prod.mk.inj heq).1
  unfold buildParams
  rw [mem_append, mem_append, or_iff_left hplain, or_iff_left hnamed]
  -- six parameters stand before the script, and those after it have other names
  show _ ∈ [_, _, _, _, _, _] ++ (ascii "SCRIPT_FILENAME", _) :: ([_, _, _, _, _, _, _] ++ _ ++ _) ↔ _
  refine mem_iff_of_keys ?_ ?_
  · simp only [forall_mem_cons]
    decide
  · simp only [forall_mem_append, forall_mem_cons]
    refine ⟨⟨by decide, ?_⟩, ?_⟩
    · split
      · exact forall_mem_singleton.2 (by decide)
      · exact fun _ h => nomatch h
    · split
      · simp only [forall_mem_cons]
        decide
      · exact fun _ h => nomatch h

end Orcker.Proxy
