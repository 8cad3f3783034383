import Orcker.Base.Path

/-!
# Static-file candidates

Which relative path a request URL asks for, before the filesystem is looked at.
-/

namespace Orcker.Proxy

open Base

def hexVal (b : UInt8) : Option UInt8 :=
  let n := b.toNat
  if 48 ≤ n ∧ n ≤ 57 then some (b - 48)
  else if 97 ≤ n ∧ n ≤ 102 then some (b - 97 + 10)
  else if 65 ≤ n ∧ n ≤ 70 then some (b - 65 + 10)
  else none

/-- The bytes of a segment with its escapes replaced; a `%` that does not start
an escape refuses the segment. -/
def percentBytes : Bytes → Option Bytes
  | [] => some []
  | b :: rest =>
    if b = 37 then
      match rest with
      | c :: d :: rest =>
        match hexVal c, hexVal d with
        | some hi, some lo => (percentBytes rest).map ((hi * 16 + lo) :: ·)
        | _, _ => none
      | _ => none
    else (percentBytes rest).map (b :: ·)

/-- What comes out has to be text. -/
def percentDecode (s : Str) : Option Str := (percentBytes (utf8 s)).bind fromUtf8

/-- The segment may become one component of a path. -/
def isPlainSegment (seg : Str) : Bool :=
  !(seg.isEmpty || seg == ['.'] || seg == ['.', '.']) &&
    !(utf8 seg).any fun b => b == 47 || b == 92 || b == 0

/-- Push every decoded segment onto `rel`. -/
def pushSegments (rel : Path) : List Str → Option Path
  | [] => some rel
  | raw :: rest =>
    if raw.isEmpty then pushSegments rel rest
    else
      match percentDecode raw with
      | none => none
      | some seg =>
        if isPlainSegment seg then pushSegments (rel.join (Path.ofStr seg)) rest else none

/-- Every segment is percent-decoded and has to be a single plain component. -/
def resolveSegments (path : Str) : Option Path := pushSegments ⟨[]⟩ (path.splitOn '/')

def beforeQuery (urlPath : Str) : Str := urlPath.takeWhile (· ≠ '?')

def endsWithSlash (path : Str) : Bool := path.getLast? == some '/'

/-- The file a request could mean, unless it asks for a directory. -/
def staticCandidate (urlPath : Str) : Option Path :=
  let path := beforeQuery urlPath
  if path.isEmpty || endsWithSlash path then none
  else
    match resolveSegments path with
    | none => none
    | some rel => if rel.isEmpty then none else some rel

/-- The directory a request asks for. -/
def directoryCandidate (urlPath : Str) : Option Path :=
  let path := beforeQuery urlPath
  if path.head? ≠ some '/' || (path ≠ ['/'] && !endsWithSlash path) then none
  else resolveSegments path

/-- The extension in lower case, when it is text. -/
def extLower (path : Path) : Option Str := (path.extension.bind fromUtf8).map lower

def phpExtensions : List Str :=
  ["php", "phtml", "php3", "php4", "php5", "php7",
    "phps", "pht"]

/-- PHP source must never be served as a static file. -/
def isPhpSource (path : Path) : Bool := (extLower path).any fun ext => ext ∈ phpExtensions

def contentTypes : List (List Str × Str) :=
  [(["html", "htm"], "text/html; charset=utf-8"),
    (["css"], "text/css; charset=utf-8"),
    (["js", "mjs", "cjs"], "text/javascript; charset=utf-8"),
    (["json", "map"], "application/json"),
    (["webmanifest"], "application/manifest+json"),
    (["svg"], "image/svg+xml"),
    (["ico"], "image/x-icon"),
    (["png"], "image/png"),
    (["jpg", "jpeg"], "image/jpeg"),
    (["gif"], "image/gif"),
    (["webp"], "image/webp"),
    (["avif"], "image/avif"),
    (["bmp"], "image/bmp"),
    (["woff"], "font/woff"),
    (["woff2"], "font/woff2"),
    (["ttf"], "font/ttf"),
    (["otf"], "font/otf"),
    (["eot"], "application/vnd.ms-fontobject"),
    (["txt"], "text/plain; charset=utf-8"),
    (["xml"], "application/xml"),
    (["pdf"], "application/pdf"),
    (["wasm"], "application/wasm"),
    (["mp4"], "video/mp4"),
    (["webm"], "video/webm"),
    (["mp3"], "audio/mpeg"),
    (["wav"], "audio/wav"),
    (["zip"], "application/zip")]

def contentTypeFor (path : Path) : Str :=
  match extLower path with
  | none => "application/octet-stream"
  | some ext =>
    match contentTypes.find? fun entry => entry.1.contains ext with
    | some entry => entry.2
    | none => "application/octet-stream"

end Orcker.Proxy
