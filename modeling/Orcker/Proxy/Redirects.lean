import Orcker.Proxy.Candidates
import Orcker.Proxy.Serve
import Orcker.Proxy.Unbound

/-!
# Redirects to paths

Two redirects of the proxy are built from the path of a request: the one that adds the slash to a
directory, and the one that a switch URL ends in. The second cleans the path, the first does not.
-/

namespace Orcker.Proxy

open Base Orcker.Core List

/-- One slash, and no second that a browser could read as the start of a host. -/
def StaysOnOrigin (location : Str) : Prop :=
  location.head? = some '/' ∧ location.tail.head? ≠ some '/' ∧ location.tail.head? ≠ some '\\'

instance (location : Str) : Decidable (StaysOnOrigin location) :=
  inferInstanceAs (Decidable (_ ∧ _))

theorem staysOnOrigin_joinPathQuery (path : Str) (query : Option Str) :
    StaysOnOrigin (joinPathQuery path query) := by
  have hfree : ∀ tail : Str, tail.head? ≠ some '/' → tail.head? ≠ some '\\' →
      StaysOnOrigin (sanitizeDest path ++ tail) := by
    intro tail hslash hback
    rw [sanitizeDest_eq, cons_append]
    refine ⟨rfl, ?_⟩
    show (path.dropWhile isSlash ++ tail).head? ≠ _ ∧ (path.dropWhile isSlash ++ tail).head? ≠ _
    cases hrest : path.dropWhile isSlash with
    | nil => exact ⟨hslash, hback⟩
    | cons c rest =>
      have hc := head?_dropWhile_isSlash path (c := c) (by rw [hrest]; rfl)
      simpa [isSlash] using hc
  unfold joinPathQuery
  cases query with
  | none => simpa using hfree [] (by simp) (by simp)
  | some q =>
    simp only
    split_ifs
    · simpa using hfree [] (by simp) (by simp)
    · exact hfree ('?' :: q) (by simp) (by simp)

variable {method : Method} {path : Str} {query : Option Str}

theorem classifyUnbound_switch {router : SiteRouter} {siteHeader cookie accept : Option Str}
    {name location : Str} (h : classifyUnbound router method path query siteHeader cookie accept =
      .switch name location) : ∃ rest, location = joinPathQuery rest query := by
  have hdecide {isHtmlGet clear : Bool} {dest : Str} :
      decidePicker isHtmlGet dest clear ≠ .switch name location := by
    cases isHtmlGet <;> simp [decidePicker]
  unfold classifyUnbound at h
  simp only at h
  split at h
  · split at h <;> cases h
  · split at h
    · cases h
    · split at h
      · split at h
        · cases h
          exact ⟨_, rfl⟩
        · exact absurd h hdecide
      · split at h
        · split at h
          · cases h
          · exact absurd h hdecide
        · exact absurd h hdecide

theorem PercentDecodes.mem {raw out : Bytes} (h : PercentDecodes raw out) {b : UInt8}
    (hb : b ≠ 37) (hdigit : hexVal b = none) (hmem : b ∈ raw) : b ∈ out := by
  induction h with
  | nil => exact hmem
  | literal _ _ ih =>
    rcases mem_cons.1 hmem with rfl | hmem
    · exact mem_cons_self
    · exact mem_cons_of_mem _ (ih hmem)
  | escape hhi hlo _ ih =>
    simp only [mem_cons] at hmem
    rcases hmem with rfl | rfl | rfl | hmem
    · exact absurd rfl hb
    · rw [hdigit] at hhi
      cases hhi
    · rw [hdigit] at hlo
      cases hlo
    · exact mem_cons_of_mem _ (ih hmem)

theorem backslash_notMem {rel : Path} (h : resolveSegments path = some rel) : '\\' ∉ path := by
  obtain ⟨names, hnames, hall, -⟩ := resolveSegments_eq_some_iff.1 h
  have hseg : ∀ raw ∈ path.splitOn '/', ∀ c ∈ raw, c ≠ '\\' := by
    rintro raw hraw c hc rfl
    have hmem : raw ∈ segments path :=
      mem_filter.2 ⟨hraw, by simpa using ne_nil_of_mem hc⟩
    obtain ⟨name, hname, heq⟩ :=
      mem_map.1 (hnames ▸ mem_map_of_mem (f := percentDecode) hmem)
    have hback {s : Str} : (92 : UInt8) ∈ utf8 s ↔ '\\' ∈ s :=
      mem_utf8_of_ascii (by decide) (by decide)
    exact (hall name hname).backslash (hback.1
      ((percentDecode_eq_some_iff.1 heq.symm).mem (by decide) (by decide) (hback.2 hc)))
  intro hmem
  rcases forall_mem_of_splitOn hseg _ hmem with h | h
  · cases h
  · exact h rfl

/-- All the server is given beside a request. -/
structure Serving where
  env : Env
  site : Site
  loginPrependScript : Option Path
  servedRoot : Path
  allowedRoot : Path
  route : Option RouteRule
  serverAddr : SocketAddr
  peerAddr : SocketAddr
  https : Bool
  symlinkProtection : Bool

def Serving.serve (s : Serving) (req : Request) : Served :=
  servePhpFpm s.env req s.site s.loginPrependScript s.servedRoot s.allowedRoot s.route s.serverAddr
    s.peerAddr s.https s.symlinkProtection

/-- The request is sent elsewhere. -/
def Serving.Moves (s : Serving) (req : Request) (resp : Response) : Prop :=
  s.serve req = .answer (.respond resp) ∧ resp.status = .movedPermanently

def Response.location (resp : Response) : Option Str := resp.headers.lookup "location".toList

/-- What a browser asks for then. -/
def Uri.ofLocation (location : Str) : Uri :=
  match splitOnce '?' location with
  | some (path, query) => ⟨some (path, some query)⟩
  | none => ⟨some (location, none)⟩

variable {fs : Fs} {resp : Response}

theorem status_respondWithFile {file : Path} (h : respondWithFile fs method file = some resp) :
    resp.status = .ok := by
  unfold respondWithFile at h
  simp only at h
  split_ifs at h
  · obtain ⟨info, -, rfl⟩ := Option.map_eq_some_iff.1 h
    rfl
  · obtain ⟨bytes, -, rfl⟩ := Option.map_eq_some_iff.1 h
    rfl

variable {allowedRoot : Path} {protect : Bool}

theorem resolveStaticOutcome_status {outcome : StaticOutcome}
    (hserved : ∀ resp, outcome = .served resp → AnsweredFrom fs method allowedRoot protect resp)
    (h : resolveStaticOutcome outcome = some resp) : resp.status ≠ .movedPermanently := by
  cases outcome with
  | served resp' =>
    obtain rfl := Option.some.inj h
    obtain ⟨file, -, hresp⟩ := hserved _ rfl
    rw [status_respondWithFile hresp]
    decide
  | symlinkEscape requestedPath resolved root =>
    obtain rfl := Option.some.inj h
    show StatusCode.forbidden ≠ _
    decide
  | notFound => cases h

variable {req : Request} {servedRoot : Path}

theorem applyRoute_status {env : Env} {route : Option RouteRule}
    (h : applyRoute env req route servedRoot allowedRoot protect = .respond resp) :
    resp.status ≠ .movedPermanently := by
  unfold applyRoute at h
  split at h
  · split at h
    · rename_i hout
      cases h
      exact resolveStaticOutcome_status (fun _ => tryServeIndex_served) hout
    · cases h
  · simp only at h
    split_ifs at h
    · split at h <;> cases h
    · cases h
      show StatusCode.methodNotAllowed ≠ _
      decide
    · split at h
      · cases h
      · rename_i hout
        cases h
        exact resolveStaticOutcome_status (fun _ => serveContainedFile_served) hout

theorem Serving.moves {s : Serving} (h : s.Moves req resp) :
    resolveScript s.env.fs req.uri.path s.servedRoot s.allowedRoot s.symlinkProtection =
        .directoryRedirect ∧
      resp.location = some (directoryRedirectLocation req.uri.pathAndQueryOrRoot) := by
  obtain ⟨hserve, hstatus⟩ := h
  have hroute {out : RouteOutcome} (hout : Choice.ofRoute out = .answer (.respond resp))
      (happly : applyRoute s.env req s.route s.servedRoot s.allowedRoot s.symlinkProtection = out) :
      False := by
    cases out with
    | respond resp' =>
      cases hout
      exact applyRoute_status happly hstatus
    | script | fallback => cases hout
  have hchoose : chooseScript s.env req s.site s.servedRoot s.allowedRoot s.route
      s.symlinkProtection = .answer (.respond resp) := by
    unfold Serving.serve servePhpFpm at hserve
    split at hserve
    · rename_i answer hanswer
      cases hserve
      exact hanswer
    · cases hserve
  unfold chooseScript at hchoose
  split at hchoose
  · rename_i hout
    cases hchoose
    exact absurd hstatus (resolveStaticOutcome_status (fun _ => tryServe_served) hout)
  · split at hchoose
    · rename_i hout
      cases hchoose
      exact absurd hstatus (resolveStaticOutcome_status (fun _ => tryServeIndex_served) hout)
    · split at hchoose
      · cases hchoose
      · rename_i hredirect
        split_ifs at hchoose with hread
        · refine ⟨?_, ?_⟩
          · unfold resolveScriptIfAllowed at hredirect
            split_ifs at hredirect
            exact hredirect
          · have hanswer := Choice.answer.inj hchoose
            unfold trailingSlashRedirect at hanswer
            simp only at hanswer
            split_ifs at hanswer
            cases hanswer
            rfl
        · exact (hroute hchoose rfl).elim
      · exact (hroute hchoose rfl).elim

theorem resolveScript_directoryRedirect {uriPath : Str}
    (h : resolveScript fs uriPath servedRoot allowedRoot protect = .directoryRedirect) :
    ∃ rel, staticCandidate uriPath = some rel := by
  unfold resolveScript at h
  split at h
  · cases h
  · split at h
    · rename_i rel hrel
      exact ⟨rel, hrel⟩
    · split at h
      · cases h
      · split at h <;> cases h

theorem beforeQuery_eq_self (h : '?' ∉ path) : beforeQuery path = path :=
  takeWhile_eq_self_iff.2 fun c hc => by simpa using fun heq : c = '?' => h (heq ▸ hc)

theorem beforeQuery_append {rest : Str} (h : '?' ∉ path) :
    beforeQuery (path ++ '?' :: rest) = path := by
  unfold beforeQuery
  rw [takeWhile_append_of_pos, takeWhile_cons_of_neg (by simp), append_nil]
  intro c hc
  simpa using fun heq : c = '?' => h (heq ▸ hc)

theorem directoryRedirectLocation_spec (query : Option Str) (hpath : '?' ∉ path) (hne : path ≠ [])
    (hend : endsWithSlash path = false) :
    let location := directoryRedirectLocation (Uri.pathAndQueryOrRoot ⟨some (path, query)⟩)
    (∃ tail, location = path ++ '/' :: tail) ∧ beforeQuery location = path ++ ['/'] ∧
      Uri.ofLocation location = ⟨some (path ++ ['/'], query)⟩ := by
  have hmark : '?' ∉ path ++ ['/'] := by simp [hpath]
  have hslash : (if path.isEmpty then ['/'] else if path.getLast? == some '/' then path
      else path ++ ['/']) = path ++ ['/'] := by
    rw [if_neg (by simp [hne]), if_neg]
    simpa [endsWithSlash] using hend
  intro location
  cases query with
  | none =>
    have hlocation : location = path ++ ['/'] := by
      show directoryRedirectLocation path = _
      unfold directoryRedirectLocation
      rw [splitOnce_eq_none_iff.2 hpath]
      exact hslash
    refine ⟨⟨[], hlocation⟩, ?_, ?_⟩
    · rw [hlocation, beforeQuery_eq_self hmark]
    · rw [hlocation, Uri.ofLocation, splitOnce_eq_none_iff.2 hmark]
  | some q =>
    have hlocation : location = path ++ ['/'] ++ '?' :: q := by
      show directoryRedirectLocation (path ++ '?' :: q) = _
      unfold directoryRedirectLocation
      rw [splitOnce_append hpath]
      simp only [hslash]
    refine ⟨⟨'?' :: q, by rw [hlocation]; simp⟩, ?_, ?_⟩
    · rw [hlocation, beforeQuery_append hmark]
    · rw [hlocation, Uri.ofLocation, splitOnce_append hmark]

theorem staysOnOrigin_append_slash {tail : Str} (hroot : path.head? = some '/')
    (hend : endsWithSlash path = false) (hback : '\\' ∉ path) :
    StaysOnOrigin (path ++ '/' :: tail) ↔ ¬['/', '/'] <+: path := by
  cases path with
  | nil => cases hroot
  | cons first rest =>
    obtain rfl := Option.some.inj hroot
    cases rest with
    | nil => cases hend
    | cons c rest =>
      have hc : c ≠ '\\' := fun heq => hback (by simp [heq])
      simp [StaysOnOrigin, hc, eq_comm]

theorem not_moves_of_slash {s : Serving} (huri : req.uri = ⟨some (path ++ ['/'], query)⟩)
    (hpath : '?' ∉ path) (resp : Response) : ¬s.Moves req resp := by
  intro h
  obtain ⟨rel, hrel⟩ := resolveScript_directoryRedirect (Serving.moves h).1
  have hends := (resolves_of_staticCandidate hrel).1
  rw [huri, show Uri.path ⟨some (path ++ ['/'], query)⟩ = path ++ ['/'] from rfl,
    beforeQuery_eq_self (by simp [hpath])] at hends
  simp [endsWithSlash] at hends

/-- For every path and query: the redirect to a directory stays on its host exactly if the path
does not begin with two slashes; it always leads to the directory that was found, with the same
query, and no server redirects it again. The destination of a switch always stays. -/
theorem redirects_stay_iff (path : Str) (query : Option Str) (hroot : path.head? = some '/')
    (hpath : '?' ∉ path) :
    (∀ (s : Serving) method headers resp, s.Moves ⟨method, ⟨some (path, query)⟩, headers⟩ resp →
      ∃ location, resp.location = some location ∧
        (StaysOnOrigin location ↔ ¬['/', '/'] <+: path) ∧
        (staticCandidate path).isSome ∧ directoryCandidate location = staticCandidate path ∧
        (Uri.ofLocation location).query = query ∧
        ∀ (s' : Serving) method' headers' resp',
          ¬s'.Moves ⟨method', Uri.ofLocation location, headers'⟩ resp') ∧
    (∀ router method siteHeader cookie accept name location,
      classifyUnbound router method path query siteHeader cookie accept = .switch name location →
        StaysOnOrigin location) := by
  refine ⟨fun s method headers resp hmoves => ?_,
    fun router method siteHeader cookie accept name location hswitch => ?_⟩
  · obtain ⟨hredirect, hlocation⟩ := Serving.moves hmoves
    obtain ⟨rel, hrel⟩ := resolveScript_directoryRedirect hredirect
    have hrel' : staticCandidate path = some rel := hrel
    obtain ⟨hend, hsegments⟩ := resolves_of_staticCandidate hrel'
    rw [beforeQuery_eq_self hpath] at hend hsegments
    have hne : path ≠ [] := by
      rintro rfl
      cases hroot
    obtain ⟨⟨tail, htail⟩, hbefore, huri⟩ := directoryRedirectLocation_spec query hpath hne hend
    refine ⟨_, hlocation, ?_, by rw [hrel']; rfl, ?_, ?_, ?_⟩
    · show StaysOnOrigin (directoryRedirectLocation _) ↔ _
      rw [htail]
      exact staysOnOrigin_append_slash hroot hend (backslash_notMem hsegments)
    · rw [hrel']
      refine directoryCandidate_eq_some_iff.2 ?_
      show (beforeQuery (directoryRedirectLocation _)).head? = _ ∧
        endsWithSlash (beforeQuery (directoryRedirectLocation _)) = _ ∧
        resolveSegments (beforeQuery (directoryRedirectLocation _)) = _
      rw [hbefore, resolveSegments_append_slash]
      exact ⟨by simp [hroot], by simp [endsWithSlash], hsegments⟩
    · show (Uri.ofLocation (directoryRedirectLocation _)).query = _
      rw [huri]
      rfl
    · intro s' method' headers' resp'
      exact not_moves_of_slash huri hpath resp'
  · obtain ⟨rest, rfl⟩ := classifyUnbound_switch hswitch
    exact staysOnOrigin_joinPathQuery rest query

def directorySite : FsTable where
  nodes :=
    [(Path.ofStr "/srv/app", ⟨.dir, 0⟩, []), (Path.ofStr "/srv/app/x", ⟨.dir, 0⟩, [])]
  links := [(Path.ofStr "/srv/app/", Path.ofStr "/srv/app")]
  links_ok := by decide
  nodes_ok := by decide

def directoryServing : Serving where
  env := { linkedIndexEnv with fs := directorySite.toFs }
  site := appSite
  loginPrependScript := none
  servedRoot := appSite.servedRoot
  allowedRoot := appSite.documentRoot
  route := none
  serverAddr := localAddr
  peerAddr := localAddr
  https := false
  symlinkProtection := true

def movedTo (location : Str) : Response where
  status := .movedPermanently
  headers := [("location", location), ("cache-control", "no-store")]
  body := []

theorem redirects_stay_directory :
    directoryServing.Moves ⟨.get, ⟨some ("/x", some "q=1")⟩, []⟩ (movedTo "/x/?q=1") ∧
      directoryCandidate "/x/?q=1" = staticCandidate "/x" := by
  have hmoves : directoryServing.Moves ⟨.get, ⟨some ("/x", some "q=1")⟩, []⟩
      (movedTo "/x/?q=1") := by
    constructor <;> decide +kernel
  obtain ⟨location, hlocation, -, -, hcandidate, -⟩ :=
    (redirects_stay_iff "/x" (some "q=1") (by decide) (by decide)).1 _ _ _ _ hmoves
  obtain rfl := Option.some.inj hlocation
  exact ⟨hmoves, hcandidate⟩

/-- `GET //x` is sent to a host `x`. -/
theorem redirect_leaves :
    directoryServing.serve ⟨.get, ⟨some ("//x", none)⟩, []⟩ =
        .answer (.respond (movedTo "//x/")) ∧
      ¬StaysOnOrigin "//x/" := by
  constructor <;> decide +kernel

end Orcker.Proxy
