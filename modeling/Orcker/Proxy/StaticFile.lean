import Orcker.Proxy.Http
import Orcker.Proxy.TryFiles

/-!
# Static files

A file is reached by the decoded URL, by the index probe in a resolved directory, or as the target
of a routing rule.
-/

namespace Orcker.Proxy

open Base

inductive StaticOutcome where
  | served (resp : Response)
  | notFound
  | symlinkEscape (requestedPath : Str) (resolved allowedRoot : Path)
  deriving DecidableEq

/-- A candidate that leaves the site through a symlink is refused while symlink protection is on. -/
inductive Containment where
  | ok (path : Path)
  | escaped (path : Path)

/-- Resolve `candidate` and compare it with an already resolved root. -/
def canonicalWithin (fs : Fs) (candidate realRoot : Path) : Option Containment :=
  match fs.canonicalize candidate with
  | none => none
  | some real => if real.startsWith realRoot then some (.ok real) else some (.escaped real)

/-- What a containment check means under the symlink policy. -/
inductive Resolved where
  | usable (path : Path)
  | refused (path : Path)
  | missing

/-- An escaping candidate is used from where it leads only when protection is off. -/
def resolveWithin (fs : Fs) (candidate realRoot : Path) (symlinkProtection : Bool) : Resolved :=
  match canonicalWithin fs candidate realRoot with
  | some (.ok path) => .usable path
  | some (.escaped resolved) => if symlinkProtection then .refused resolved else .usable resolved
  | none => .missing

theorem resolveWithin_usable {fs : Fs} {candidate realRoot file : Path} {protect : Bool}
    (h : resolveWithin fs candidate realRoot protect = .usable file) :
    fs.canonicalize candidate = some file ∧ (protect = true → file.startsWith realRoot = true) := by
  unfold resolveWithin canonicalWithin at h
  cases hc : fs.canonicalize candidate with
  | none =>
    simp only [hc] at h
    cases h
  | some real =>
    simp only [hc] at h
    by_cases hin : real.startsWith realRoot = true
    · simp only [if_pos hin] at h
      cases h
      exact ⟨rfl, fun _ => hin⟩
    · simp only [if_neg hin] at h
      cases protect with
      | true => cases h
      | false =>
        cases h
        exact ⟨rfl, fun hon => nomatch hon⟩

/-- A `200` with a guessed content type; HEAD stats the file instead of reading it. -/
def respondWithFile (fs : Fs) (method : Method) (path : Path) : Option Response :=
  let respond (body : Bytes) (len : Nat) : Response :=
    { status := .ok
      headers :=
        [("content-type", contentTypeFor path), ("content-length", decimal len),
          ("server", proxyServerId)]
      body := body }
  if method = .head then (fs.metadata path).map fun info => respond [] info.len
  else (fs.read path).map fun bytes => respond bytes bytes.length

/-- Answer with a resolved file, unless it is PHP source or not a regular file. -/
def respondIfServable (fs : Fs) (method : Method) (realFile : Path) : Option Response :=
  if isPhpSource realFile then none
  else if !fs.isFile realFile then none
  else respondWithFile fs method realFile

/-- Serve `rel` below `servedRoot`, once a caller has derived it. -/
def serveContainedFile (fs : Fs) (method : Method) (requestedPath : Str)
    (servedRoot allowedRoot rel : Path) (symlinkProtection : Bool) : StaticOutcome :=
  if !method.isRead then .notFound
  else
    match fs.canonicalize allowedRoot with
    | none => .notFound
    | some realRoot =>
      match resolveWithin fs (servedRoot.join rel) realRoot symlinkProtection with
      | .usable realFile =>
        match respondIfServable fs method realFile with
        | some resp => .served resp
        | none => .notFound
      | .refused resolved => .symlinkEscape requestedPath resolved realRoot
      | .missing => .notFound

/-- A GET or HEAD whose URL resolves to a regular file that is not PHP source is answered from disk.
-/
def tryServe (fs : Fs) (method : Method) (uriPath : Str) (servedRoot allowedRoot : Path)
    (symlinkProtection : Bool) : StaticOutcome :=
  match staticCandidate uriPath with
  | none => .notFound
  | some rel =>
    serveContainedFile fs method uriPath servedRoot allowedRoot rel symlinkProtection

def serveTargetFile (fs : Fs) (method : Method) (requestedPath : Str)
    (servedRoot allowedRoot targetRel : Path) (symlinkProtection : Bool) : StaticOutcome :=
  serveContainedFile fs method requestedPath servedRoot allowedRoot targetRel symlinkProtection

/-- Probe the index names in order, remembering the first that escaped. -/
def probeIndexes (fs : Fs) (method : Method) (realDir realRoot : Path) (symlinkProtection : Bool) :
    List Path → Option Path → Option Response × Option Path
  | [], firstEscape => (none, firstEscape)
  | name :: names, firstEscape =>
    let next := probeIndexes fs method realDir realRoot symlinkProtection names
    match resolveWithin fs (realDir.join name) realRoot symlinkProtection with
    | .usable realFile =>
      match respondIfServable fs method realFile with
      | some resp => (some resp, firstEscape)
      | none => next firstEscape
    | .refused resolved => next (firstEscape.orElse fun _ => some resolved)
    | .missing => next firstEscape

def indexNames : List Path := [Path.ofStr "index.html", Path.ofStr "index.htm"]

def indexPhp : Path := Path.ofStr "index.php"

/-- Serve the index file of a directory that has no `index.php`. -/
def tryServeIndex (fs : Fs) (method : Method) (uriPath : Str) (servedRoot allowedRoot : Path)
    (symlinkProtection : Bool) : StaticOutcome :=
  if !method.isRead then .notFound
  else
    match directoryCandidate uriPath with
    | none => .notFound
    | some rel =>
      match fs.canonicalize allowedRoot with
      | none => .notFound
      | some realRoot =>
        match resolveWithin fs (servedRoot.join rel) realRoot symlinkProtection with
        | .usable realDir =>
          if !fs.isDir realDir then .notFound
          else if (fs.metadata (realDir.join indexPhp)).isSome then .notFound
          else
            match probeIndexes fs method realDir realRoot symlinkProtection indexNames none with
            | (some resp, _) => .served resp
            | (none, some resolved) => .symlinkEscape uriPath resolved realRoot
            | (none, none) => .notFound
        | .refused resolved => .symlinkEscape uriPath resolved realRoot
        | .missing => .notFound

/-- A file that may be answered: named by its own resolved path, under the
resolved root while symlink protection is on, regular, and not PHP source. -/
structure Servable (fs : Fs) (allowedRoot : Path) (symlinkProtection : Bool) (file : Path) :
    Prop where
  canonical : fs.canonicalize file = some file
  contained : symlinkProtection = true →
    ∃ realRoot, fs.canonicalize allowedRoot = some realRoot ∧ file.startsWith realRoot = true
  regular : fs.isFile file = true
  notPhp : isPhpSource file = false

/-- The response is made from a file that may be served. -/
def AnsweredFrom (fs : Fs) (method : Method) (allowedRoot : Path) (symlinkProtection : Bool)
    (resp : Response) : Prop :=
  ∃ file, Servable fs allowedRoot symlinkProtection file ∧
    respondWithFile fs method file = some resp

variable {resp : Response} {servedRoot : Path} {uriPath : Str}

section Served

variable {fs : Fs} {method : Method} {allowedRoot realRoot : Path} {protect : Bool}

theorem answeredFrom_of_usable {candidate file : Path}
    (hroot : fs.canonicalize allowedRoot = some realRoot)
    (hfile : resolveWithin fs candidate realRoot protect = .usable file)
    (hresp : respondIfServable fs method file = some resp) :
    AnsweredFrom fs method allowedRoot protect resp := by
  obtain ⟨hcanon, hin⟩ := resolveWithin_usable hfile
  unfold respondIfServable at hresp
  split_ifs at hresp with hphp hregular
  refine ⟨file, ⟨fs.idem hcanon, ?_, ?_, ?_⟩, hresp⟩
  · intro hon
    exact ⟨realRoot, hroot, hin hon⟩
  · simpa using hregular
  · simpa using hphp

theorem serveContainedFile_served {requestedPath : Str} {rel : Path}
    (h : serveContainedFile fs method requestedPath servedRoot allowedRoot rel protect =
      .served resp) : AnsweredFrom fs method allowedRoot protect resp := by
  unfold serveContainedFile at h
  split_ifs at h
  split at h
  · cases h
  · rename_i realRoot hroot
    split at h
    · rename_i realFile hfile
      split at h
      · rename_i hresp
        cases h
        exact answeredFrom_of_usable hroot hfile hresp
      · cases h
    · cases h
    · cases h

theorem probeIndexes_served {realDir : Path} {names : List Path} {firstEscape : Option Path}
    (hroot : fs.canonicalize allowedRoot = some realRoot)
    (h : (probeIndexes fs method realDir realRoot protect names firstEscape).1 = some resp) :
    AnsweredFrom fs method allowedRoot protect resp := by
  induction names generalizing firstEscape with
  | nil => cases h
  | cons name names ih =>
    unfold probeIndexes at h
    simp only at h
    split at h
    · rename_i realFile hfile
      split at h
      · rename_i hresp
        cases h
        exact answeredFrom_of_usable hroot hfile hresp
      · exact ih h
    · exact ih h
    · exact ih h

theorem tryServeIndex_served
    (h : tryServeIndex fs method uriPath servedRoot allowedRoot protect = .served resp) :
    AnsweredFrom fs method allowedRoot protect resp := by
  unfold tryServeIndex at h
  split_ifs at h
  split at h
  · cases h
  · split at h
    · cases h
    · rename_i realRoot hroot
      split at h
      · split_ifs at h
        split at h
        · rename_i hprobe
          cases h
          exact probeIndexes_served hroot (congrArg Prod.fst hprobe)
        · cases h
        · cases h
      · cases h
      · cases h

theorem tryServe_served
    (h : tryServe fs method uriPath servedRoot allowedRoot protect = .served resp) :
    AnsweredFrom fs method allowedRoot protect resp := by
  unfold tryServe at h
  split at h
  · cases h
  · exact serveContainedFile_served h

end Served

/-- Whatever the three entry points answer was built from a regular file that is
not PHP source and that, with symlink protection on, lies under the resolved
allowed root. -/
theorem static_responses_contained (fs : Fs) (method : Method) (path : Str)
    (servedRoot allowedRoot targetRel : Path) (protect : Bool) (resp : Response)
    (h : tryServe fs method path servedRoot allowedRoot protect = .served resp ∨
      tryServeIndex fs method path servedRoot allowedRoot protect = .served resp ∨
      serveTargetFile fs method path servedRoot allowedRoot targetRel protect = .served resp) :
    ∃ file,
      respondWithFile fs method file = some resp ∧
      fs.canonicalize file = some file ∧
      (protect = true → ∃ realRoot,
        fs.canonicalize allowedRoot = some realRoot ∧ file.startsWith realRoot = true) ∧
      fs.isFile file = true ∧
      isPhpSource file = false := by
  have hanswered : AnsweredFrom fs method allowedRoot protect resp := by
    rcases h with h | h | h
    · exact tryServe_served h
    · exact tryServeIndex_served h
    · exact serveContainedFile_served h
  obtain ⟨file, hservable, hresp⟩ := hanswered
  exact ⟨file, hresp, hservable.canonical, hservable.contained, hservable.regular,
    hservable.notPhp⟩

/-- A site of one stylesheet. -/
def stylesheetSite : FsTable where
  nodes :=
    [(Path.ofStr "/srv", ⟨.dir, 0⟩, []),
      (Path.ofStr "/srv/app.css", ⟨.file, 2⟩, [123, 125])]
  links := []
  links_ok := by decide
  nodes_ok := by decide

def stylesheetResponse : Response where
  status := .ok
  headers :=
    [("content-type", "text/css; charset=utf-8"), ("content-length", "2"),
      ("server", "orcker")]
  body := [123, 125]

theorem static_responses_contained_stylesheet :
    tryServe stylesheetSite.toFs .get "/app.css?v=1".toList (Path.ofStr "/srv".toList)
        (Path.ofStr "/srv".toList) true = .served stylesheetResponse ∧
      ∃ file,
        respondWithFile stylesheetSite.toFs .get file = some stylesheetResponse ∧
        stylesheetSite.toFs.canonicalize file = some file ∧
        (true = true → ∃ realRoot,
          stylesheetSite.toFs.canonicalize (Path.ofStr "/srv".toList) = some realRoot ∧
            file.startsWith realRoot = true) ∧
        stylesheetSite.toFs.isFile file = true ∧
        isPhpSource file = false := by
  have hserved : tryServe stylesheetSite.toFs .get "/app.css?v=1".toList (Path.ofStr "/srv".toList)
      (Path.ofStr "/srv".toList) true = .served stylesheetResponse := by
    decide +kernel
  exact ⟨hserved, static_responses_contained stylesheetSite.toFs .get "/app.css?v=1".toList
    (Path.ofStr "/srv".toList) (Path.ofStr "/srv".toList) ⟨[]⟩ true _ (Or.inl hserved)⟩

/-! ## Scripts

Which PHP script on disk a request runs: the file it names, or the `index.php` of the directory it
names. -/

section

inductive ScriptResolution where
  | script (rel : Path)
  | directoryRedirect
  | fallback
  deriving DecidableEq

/-- `rel`, if it is a PHP file on disk that the symlink policy lets through. -/
def existingPhpFile (fs : Fs) (servedRoot realRoot rel : Path) (symlinkProtection : Bool) :
    Option Path :=
  if !isPhpSource rel then none
  else
    match resolveWithin fs (servedRoot.join rel) realRoot symlinkProtection with
    | .usable realFile => if fs.isFile realFile then some rel else none
    | .refused _ => none
    | .missing => none

/-- `rel` is a directory on disk that the symlink policy lets through. -/
def isExistingDirectory (fs : Fs) (servedRoot realRoot rel : Path) (symlinkProtection : Bool) :
    Bool :=
  match resolveWithin fs (servedRoot.join rel) realRoot symlinkProtection with
  | .usable realDir => fs.isDir realDir
  | .refused _ => false
  | .missing => false

/-- The script that a URL names, directly or as its directory's index. -/
def resolveScript (fs : Fs) (uriPath : Str) (servedRoot allowedRoot : Path)
    (symlinkProtection : Bool) : ScriptResolution :=
  match fs.canonicalize allowedRoot with
  | none => .fallback
  | some realRoot =>
    match staticCandidate uriPath with
    | some rel =>
      match existingPhpFile fs servedRoot realRoot rel symlinkProtection with
      | some script => .script script
      | none =>
        if isExistingDirectory fs servedRoot realRoot rel symlinkProtection then .directoryRedirect
        else .fallback
    | none =>
      match directoryCandidate uriPath with
      | none => .fallback
      | some dirRel =>
        match existingPhpFile fs servedRoot realRoot (dirRel.join indexPhp) symlinkProtection with
        | some script => .script script
        | none => .fallback

/-- The script a routing rule's PHP target runs. -/
def resolveRuleTarget (fs : Fs) (servedRoot allowedRoot targetRel : Path)
    (symlinkProtection : Bool) : Option Path :=
  match fs.canonicalize allowedRoot with
  | none => none
  | some realRoot => existingPhpFile fs servedRoot realRoot targetRel symlinkProtection

variable {fs : Fs} {servedRoot allowedRoot rel : Path}

theorem existingPhpFile_contained {realRoot script : Path}
    (hroot : fs.canonicalize allowedRoot = some realRoot)
    (h : existingPhpFile fs servedRoot realRoot rel true = some script) :
    script = rel ∧ fs.Contained allowedRoot (servedRoot.join rel) := by
  unfold existingPhpFile at h
  split_ifs at h
  split at h
  · rename_i realFile hfile
    split_ifs at h
    cases h
    obtain ⟨hcanon, hin⟩ := resolveWithin_usable hfile
    refine ⟨rfl, ?_⟩
    intro real hreal
    rw [hcanon, Option.some.injEq] at hreal
    subst hreal
    exact ⟨realRoot, hroot, hin rfl⟩
  · cases h
  · cases h

theorem pushSegments_isText {segs : List Str} {out : Path} (hrel : rel.IsText)
    (h : pushSegments rel segs = some out) : out.IsText := by
  induction segs generalizing rel with
  | nil =>
    cases h
    exact hrel
  | cons raw rest ih =>
    unfold pushSegments at h
    split_ifs at h
    · exact ih hrel h
    · split at h
      · cases h
      · split_ifs at h
        exact ih (hrel.join ⟨_, rfl⟩) h

theorem resolveSegments_isText {path : Str} {out : Path} (h : resolveSegments path = some out) :
    out.IsText :=
  pushSegments_isText ⟨[], rfl⟩ h

variable {uriPath : Str}

theorem staticCandidate_isText (h : staticCandidate uriPath = some rel) : rel.IsText := by
  unfold staticCandidate at h
  simp only at h
  split_ifs at h
  split at h
  · cases h
  · rename_i hrel
    split_ifs at h
    cases h
    exact resolveSegments_isText hrel

theorem directoryCandidate_isText (h : directoryCandidate uriPath = some rel) : rel.IsText := by
  unfold directoryCandidate at h
  simp only at h
  split_ifs at h
  exact resolveSegments_isText h

theorem resolveScript_contained
    (h : resolveScript fs uriPath servedRoot allowedRoot true = .script rel) :
    rel.IsText ∧ fs.Contained allowedRoot (servedRoot.join rel) := by
  unfold resolveScript at h
  split at h
  · cases h
  · rename_i realRoot hroot
    split at h
    · rename_i candidate hcandidate
      split at h
      · rename_i script hscript
        cases h
        obtain ⟨rfl, hin⟩ := existingPhpFile_contained hroot hscript
        exact ⟨staticCandidate_isText hcandidate, hin⟩
      · split_ifs at h
    · split at h
      · cases h
      · rename_i dirRel hdir
        split at h
        · rename_i script hscript
          cases h
          obtain ⟨rfl, hin⟩ := existingPhpFile_contained hroot hscript
          exact ⟨(directoryCandidate_isText hdir).join ⟨_, rfl⟩, hin⟩
        · cases h

theorem resolveRuleTarget_contained {target : Path}
    (h : resolveRuleTarget fs servedRoot allowedRoot target true = some rel) :
    rel = target ∧ fs.Contained allowedRoot (servedRoot.join rel) := by
  unfold resolveRuleTarget at h
  split at h
  · cases h
  · rename_i realRoot hroot
    obtain ⟨rfl, hin⟩ := existingPhpFile_contained hroot h
    exact ⟨rfl, hin⟩

end

end Orcker.Proxy
