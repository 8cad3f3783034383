import Orcker.Core.Site
import Orcker.Proxy.CgiParams
import Orcker.Proxy.StaticFile

/-!
# Serving a PHP site
-/

namespace Orcker.Proxy

open Base Orcker.Core

/-- What the server is given: the filesystem, the resolver's script policy, the
pending login tokens and the URI parser. -/
structure Env where
  fs : Fs
  allowsDirectScriptExecution : Site → Bool
  consume : Str → Str → Option Str
  parseUri : Str → Option Uri

structure Request where
  method : Method
  uri : Uri
  headers : HeaderMap

/-- What the proxy answers by itself; a response it cannot build is an error. -/
inductive Answer where
  | respond (resp : Response)
  | failed
  deriving DecidableEq

/-- What becomes of a request: an answer, or a FastCGI request with its parameters. -/
inductive Served where
  | answer (answer : Answer)
  | forward (params : List (Bytes × Bytes))
  deriving DecidableEq

/-- Says nothing of where the link leads. -/
def symlinkEscapeResponse (requestedPath : Str) : Response where
  status := .forbidden
  headers :=
    [("content-type", "text/plain; charset=utf-8"),
      ("server", proxyServerId)]
  body := utf8 ("403 Forbidden\n\nThe requested path \"" ++ requestedPath ++
    "\" resolves, via a symlink, to a location outside this site's root directory.\n\n" ++
    "See the orckerd daemon log for the resolved path and the site's document root.\n")

def methodNotAllowedResponse : Response where
  status := .methodNotAllowed
  headers :=
    [("server", proxyServerId), ("allow", "GET, HEAD"),
      ("cache-control", "no-store"),
      ("content-type", "text/plain; charset=utf-8")]
  body := ascii ("405 Method Not Allowed\n\nThis path is served by a static routing rule target, " ++
    "which only answers GET and HEAD.\n")

/-- Bytes that may stand in a header value. -/
def isHeaderValue (s : Str) : Bool :=
  (utf8 s).all fun b => (32 ≤ b.toNat && b != 127) || b == 9

/-- A location that no header can hold is a failure. -/
def trailingSlashRedirect (uri : Uri) : Answer :=
  let location := directoryRedirectLocation uri.pathAndQueryOrRoot
  if isHeaderValue location then
    .respond
      { status := .movedPermanently
        headers := [("location", location), ("cache-control", "no-store")]
        body := [] }
  else .failed

/-- The response a static lookup settles on, or none to go on. -/
def resolveStaticOutcome : StaticOutcome → Option Response
  | .served resp => some resp
  | .symlinkEscape requestedPath _ _ => some (symlinkEscapeResponse requestedPath)
  | .notFound => none

/-- The script policy of the site decides whether the disk is consulted at all. -/
def resolveScriptIfAllowed (env : Env) (site : Site) (uriPath : Str)
    (servedRoot allowedRoot : Path) (symlinkProtection : Bool) : ScriptResolution :=
  if env.allowsDirectScriptExecution site then
    resolveScript env.fs uriPath servedRoot allowedRoot symlinkProtection
  else .fallback

/-- What routing makes of a request. -/
inductive RouteOutcome where
  | respond (resp : Response)
  | script (rel : Path)
  | fallback

/-- Apply the matched routing rule, or the single-page default when none matched. -/
def applyRoute (env : Env) (req : Request) (route : Option RouteRule)
    (servedRoot allowedRoot : Path) (symlinkProtection : Bool) : RouteOutcome :=
  match route with
  | none =>
    match resolveStaticOutcome
        (tryServeIndex env.fs req.method ['/'] servedRoot allowedRoot symlinkProtection) with
    | some resp => .respond resp
    | none => .fallback
  | some rule =>
    let target := Path.ofStr rule.target
    if isPhpSource target then
      match resolveRuleTarget env.fs servedRoot allowedRoot target symlinkProtection with
      | none => .fallback
      | some rel => .script rel
    else if !req.method.isRead then .respond methodNotAllowedResponse
    else
      match resolveStaticOutcome (serveTargetFile env.fs req.method req.uri.path servedRoot
          allowedRoot target symlinkProtection) with
      | none => .fallback
      | some resp => .respond resp

/-- What the cascade settles on: an answer, or a script to run (`none` being the
`index.php` of the served root). -/
inductive Choice where
  | answer (answer : Answer)
  | run (scriptRel : Option Path)
  deriving DecidableEq

def Choice.ofRoute : RouteOutcome → Choice
  | .respond resp => .answer (.respond resp)
  | .script rel => .run (some rel)
  | .fallback => .run none

/-- The cascade in front of FastCGI: a static file, a directory index, a script on disk, a routing
rule or the automatic single-page default, and at last the `index.php` of the served root. -/
def chooseScript (env : Env) (req : Request) (site : Site) (servedRoot allowedRoot : Path)
    (route : Option RouteRule) (symlinkProtection : Bool) : Choice :=
  match resolveStaticOutcome
      (tryServe env.fs req.method req.uri.path servedRoot allowedRoot symlinkProtection) with
  | some resp => .answer (.respond resp)
  | none =>
    match resolveStaticOutcome
        (tryServeIndex env.fs req.method req.uri.path servedRoot allowedRoot symlinkProtection) with
    | some resp => .answer (.respond resp)
    | none =>
      match resolveScriptIfAllowed env site req.uri.path servedRoot allowedRoot
          symlinkProtection with
      | .script rel => .run (some rel)
      | .directoryRedirect =>
        if req.method.isRead then .answer (trailingSlashRedirect req.uri)
        else .ofRoute (applyRoute env req route servedRoot allowedRoot symlinkProtection)
      | .fallback => .ofRoute (applyRoute env req route servedRoot allowedRoot symlinkProtection)

def loginTokenParam : Str := "orcker_login_token"

/-- A valid login token is consumed and taken off the URI. -/
def consumeLoginTokenIfPresent (env : Env) (uri : Uri) (siteName : Str) : Option (Str × Uri) :=
  if "/wp-admin".toList.isPrefixOf uri.path then
    match getParam uri.query loginTokenParam with
    | none => none
    | some token =>
      match env.consume siteName token with
      | none => none
      | some targetUser =>
        let stripped := stripParam uri.pathAndQueryOrRoot loginTokenParam
        some (targetUser, (env.parseUri stripped).getD uri)
  else none

/-- The parameters of the request that runs `scriptRel`. -/
def forwardParams (env : Env) (req : Request) (site : Site) (loginPrependScript : Option Path)
    (servedRoot : Path) (scriptRel : Option Path) (serverAddr peerAddr : SocketAddr)
    (https : Bool) : List (Bytes × Bytes) :=
  let consumed := consumeLoginTokenIfPresent env req.uri site.name.text
  let uri := (consumed.map Prod.snd).getD req.uri
  let autoLogin := match consumed, loginPrependScript with
    | some (targetUser, _), some prependScript => some { prependScript, targetUser }
    | _, _ => none
  buildParams req.method.asStr uri.pathAndQueryOrRoot req.headers servedRoot scriptRel https
    peerAddr serverAddr autoLogin

/-- Run the cascade and forward to FastCGI what it chose to run. -/
def servePhpFpm (env : Env) (req : Request) (site : Site) (loginPrependScript : Option Path)
    (servedRoot allowedRoot : Path) (route : Option RouteRule) (serverAddr peerAddr : SocketAddr)
    (https symlinkProtection : Bool) : Served :=
  match chooseScript env req site servedRoot allowedRoot route symlinkProtection with
  | .answer answer => .answer answer
  | .run scriptRel =>
    .forward (forwardParams env req site loginPrependScript servedRoot scriptRel serverAddr
      peerAddr https)

/-- No static lookup answers the request. -/
def NoStaticAnswer (env : Env) (req : Request) (site : Site) : Prop :=
  tryServe env.fs req.method req.uri.path site.servedRoot site.documentRoot true = .notFound ∧
    tryServeIndex env.fs req.method req.uri.path site.servedRoot site.documentRoot true = .notFound

/-- The disk yields neither a script nor a redirect. -/
def NoScriptOnDisk (env : Env) (req : Request) (site : Site) : Prop :=
  env.allowsDirectScriptExecution site = true →
    resolveScript env.fs req.uri.path site.servedRoot site.documentRoot true = .fallback ∨
      resolveScript env.fs req.uri.path site.servedRoot site.documentRoot true =
        .directoryRedirect ∧ req.method.isRead = false

/-- The rule, or the single-page default without one, has no usable target. -/
def NoRouteTarget (env : Env) (req : Request) (site : Site) : Option RouteRule → Prop
  | none => tryServeIndex env.fs req.method ['/'] site.servedRoot site.documentRoot true = .notFound
  | some rule =>
    if isPhpSource (Path.ofStr rule.target) then
      resolveRuleTarget env.fs site.servedRoot site.documentRoot (Path.ofStr rule.target) true = none
    else
      req.method.isRead = true ∧ serveTargetFile env.fs req.method req.uri.path site.servedRoot
        site.documentRoot (Path.ofStr rule.target) true = .notFound

/-- The request is left to the `index.php` of the served root. -/
structure FallsBack (env : Env) (req : Request) (site : Site) (route : Option RouteRule) :
    Prop where
  noStatic : NoStaticAnswer env req site
  noScript : NoScriptOnDisk env req site
  noTarget : NoRouteTarget env req site route

/-- The request runs the script `rel`, found on disk or named by the rule. -/
structure RunsScript (env : Env) (req : Request) (site : Site) (route : Option RouteRule)
    (rel : Path) : Prop where
  noStatic : NoStaticAnswer env req site
  script : env.allowsDirectScriptExecution site = true ∧
      resolveScript env.fs req.uri.path site.servedRoot site.documentRoot true = .script rel ∨
    NoScriptOnDisk env req site ∧ ∃ rule, route = some rule ∧
      isPhpSource (Path.ofStr rule.target) = true ∧
      resolveRuleTarget env.fs site.servedRoot site.documentRoot (Path.ofStr rule.target) true =
        some rel

theorem resolveStaticOutcome_eq_none_iff {outcome : StaticOutcome} :
    resolveStaticOutcome outcome = none ↔ outcome = .notFound := by
  cases outcome <;> simp [resolveStaticOutcome]

section Cascade

variable {env : Env} {req : Request} {site : Site} {route : Option RouteRule}

theorem noStatic_of_run {rel : Option Path}
    (h : chooseScript env req site site.servedRoot site.documentRoot route true = .run rel) :
    NoStaticAnswer env req site := by
  unfold chooseScript at h
  split at h
  · cases h
  · rename_i hfile
    split at h
    · cases h
    · rename_i hindex
      exact ⟨resolveStaticOutcome_eq_none_iff.1 hfile, resolveStaticOutcome_eq_none_iff.1 hindex⟩

theorem applyRoute_iff :
    (Choice.ofRoute (applyRoute env req route site.servedRoot site.documentRoot true) = .run none ↔
      NoRouteTarget env req site route) ∧
    ∀ rel, Choice.ofRoute (applyRoute env req route site.servedRoot site.documentRoot true) =
        .run (some rel) ↔
      ∃ rule, route = some rule ∧ isPhpSource (Path.ofStr rule.target) = true ∧
        resolveRuleTarget env.fs site.servedRoot site.documentRoot (Path.ofStr rule.target) true =
          some rel := by
  cases route with
  | none =>
    rw [NoRouteTarget, ← resolveStaticOutcome_eq_none_iff, applyRoute]
    cases resolveStaticOutcome
      (tryServeIndex env.fs req.method ['/'] site.servedRoot site.documentRoot true) <;>
    simp [Choice.ofRoute]
  | some rule =>
    simp only [NoRouteTarget, applyRoute, Option.some.injEq, exists_eq_left']
    by_cases hphp : isPhpSource (Path.ofStr rule.target) = true
    · rw [if_pos hphp, if_pos hphp]
      cases resolveRuleTarget env.fs site.servedRoot site.documentRoot (Path.ofStr rule.target)
        true <;>
      simp [Choice.ofRoute, hphp]
    · -- a static target is answered or given up, never run
      rw [if_neg hphp, if_neg hphp, ← resolveStaticOutcome_eq_none_iff]
      cases req.method.isRead with
      | false => simp [Choice.ofRoute, hphp]
      | true =>
        cases resolveStaticOutcome (serveTargetFile env.fs req.method req.uri.path site.servedRoot
          site.documentRoot (Path.ofStr rule.target) true) <;>
        simp [Choice.ofRoute, hphp]

theorem chooseScript_run_iff {rel : Option Path} :
    chooseScript env req site site.servedRoot site.documentRoot route true = .run rel ↔
      NoStaticAnswer env req site ∧
        ((∃ script, rel = some script ∧ env.allowsDirectScriptExecution site = true ∧
            resolveScript env.fs req.uri.path site.servedRoot site.documentRoot true =
              .script script) ∨
          NoScriptOnDisk env req site ∧
            Choice.ofRoute (applyRoute env req route site.servedRoot site.documentRoot true) =
              .run rel) := by
  by_cases hstatic : NoStaticAnswer env req site
  · rw [and_iff_right hstatic, chooseScript, hstatic.1, hstatic.2]
    simp only [resolveStaticOutcome]
    unfold resolveScriptIfAllowed NoScriptOnDisk
    cases env.allowsDirectScriptExecution site with
    | false => simp
    | true =>
      cases resolveScript env.fs req.uri.path site.servedRoot site.documentRoot true with
      | fallback => simp
      | script script =>
        simp only [if_true, Choice.run.injEq, reduceCtorEq, false_and, or_false, imp_false,
          not_true_eq_false, ScriptResolution.script.injEq, true_and]
        constructor
        · rintro rfl
          exact ⟨script, rfl, rfl⟩
        · rintro ⟨other, rfl, rfl⟩
          rfl
      | directoryRedirect =>
        cases req.method.isRead <;> simp
  · constructor
    · intro h
      exact absurd (noStatic_of_run h) hstatic
    · intro h
      exact absurd h.1 hstatic

theorem chooseScript_fallback_iff :
    chooseScript env req site site.servedRoot site.documentRoot route true = .run none ↔
      FallsBack env req site route := by
  rw [chooseScript_run_iff, applyRoute_iff.1]
  constructor
  · rintro ⟨hstatic, ⟨script, hscript, -⟩ | ⟨hdisk, htarget⟩⟩
    · cases hscript
    · exact ⟨hstatic, hdisk, htarget⟩
  · rintro ⟨hstatic, hdisk, htarget⟩
    exact ⟨hstatic, Or.inr ⟨hdisk, htarget⟩⟩

theorem chooseScript_script_iff {rel : Path} :
    chooseScript env req site site.servedRoot site.documentRoot route true = .run (some rel) ↔
      RunsScript env req site route rel := by
  rw [chooseScript_run_iff, applyRoute_iff.2]
  constructor
  · rintro ⟨hstatic, ⟨script, hscript, hdisk⟩ | hrule⟩
    · cases hscript
      exact ⟨hstatic, Or.inl hdisk⟩
    · exact ⟨hstatic, Or.inr hrule⟩
  · rintro ⟨hstatic, hdisk | hrule⟩
    · exact ⟨hstatic, Or.inl ⟨rel, rfl, hdisk⟩⟩
    · exact ⟨hstatic, Or.inr hrule⟩

theorem runsScript_contained {rel : Path} (h : RunsScript env req site route rel) :
    rel.IsText ∧ env.fs.Contained site.documentRoot (site.servedRoot.join rel) := by
  rcases h.script with ⟨-, hdisk⟩ | ⟨-, rule, -, -, hrule⟩
  · exact resolveScript_contained hdisk
  · obtain ⟨rfl, hin⟩ := resolveRuleTarget_contained hrule
    exact ⟨⟨rule.target, rfl⟩, hin⟩

theorem forwarded_iff {loginPrependScript : Option Path} {serverAddr peerAddr : SocketAddr}
    {https : Bool} {P : Path → Prop} :
    (∀ params, servePhpFpm env req site loginPrependScript site.servedRoot site.documentRoot route
        serverAddr peerAddr https true = .forward params →
      ∀ f, (ascii "SCRIPT_FILENAME", f) ∈ params → P ⟨f⟩) ↔
      ∀ rel, chooseScript env req site site.servedRoot site.documentRoot route true = .run rel →
        P (scriptOf site.servedRoot rel).1.rendered := by
  have hscript : ∀ rel f, (ascii "SCRIPT_FILENAME", f) ∈ forwardParams env req site
      loginPrependScript site.servedRoot rel serverAddr peerAddr https ↔
      f = utf8 (scriptOf site.servedRoot rel).1.toStringLossy :=
    fun rel f => mem_buildParams_scriptFilename
  constructor
  · intro h rel hrel
    refine h (forwardParams env req site loginPrependScript site.servedRoot rel serverAddr peerAddr
      https) ?_ _ ((hscript rel _).2 rfl)
    rw [servePhpFpm, hrel]
  · intro h params hparams f hf
    unfold servePhpFpm at hparams
    split at hparams
    · cases hparams
    · rename_i rel hrel
      cases hparams
      rw [(hscript rel f).1 hf]
      exact h rel hrel

end Cascade

/-- With symlink protection on, the script that FastCGI is told to run lies
inside the site if and only if the fallback does whenever it is reached, and,
where the served root is not text, the rendering of a chosen script does. -/
theorem forwarded_script_contained_iff (env : Env) (req : Request) (site : Site)
    (loginPrependScript : Option Path) (route : Option RouteRule)
    (serverAddr peerAddr : SocketAddr) (https : Bool) :
    (∀ params, servePhpFpm env req site loginPrependScript site.servedRoot site.documentRoot route
        serverAddr peerAddr https true = .forward params →
      ∀ f, (ascii "SCRIPT_FILENAME", f) ∈ params → env.fs.Contained site.documentRoot ⟨f⟩) ↔
      (FallsBack env req site route →
        env.fs.Contained site.documentRoot (site.servedRoot.join indexPhp).rendered) ∧
      (site.servedRoot.toStr = none → ∀ rel, RunsScript env req site route rel →
        env.fs.Contained site.documentRoot (site.servedRoot.join rel).rendered) := by
  rw [forwarded_iff (P := env.fs.Contained site.documentRoot)]
  constructor
  · intro h
    constructor
    · intro hback
      exact h none (chooseScript_fallback_iff.2 hback)
    · intro _ rel hrel
      exact h (some rel) (chooseScript_script_iff.2 hrel)
  · rintro ⟨hback, hlossy⟩ rel hrel
    cases rel with
    | none => exact hback (chooseScript_fallback_iff.1 hrel)
    | some rel =>
      have hruns := chooseScript_script_iff.1 hrel
      by_cases htext : site.servedRoot.toStr = none
      · exact hlossy htext rel hruns
      · -- both parts of the path are text, so it is sent as it is
        obtain ⟨hrelText, hin⟩ := runsScript_contained hruns
        have hjoin := (Path.isText_iff_toStr.2 htext).join hrelText
        show env.fs.Contained site.documentRoot (site.servedRoot.join rel).rendered
        rw [hjoin.rendered]
        exact hin

/-- A site whose `index.php` is a link to a file elsewhere. -/
def linkedIndex : FsTable where
  nodes :=
    [(Path.ofStr "/srv/app", ⟨.dir, 0⟩, []), (Path.ofStr "/etc/evil.php", ⟨.file, 0⟩, [])]
  links :=
    [(Path.ofStr "/srv/app/", Path.ofStr "/srv/app"),
      (Path.ofStr "/srv/app/index.php", Path.ofStr "/etc/evil.php")]
  links_ok := by decide
  nodes_ok := by decide

def linkedIndexEnv : Env where
  fs := linkedIndex.toFs
  allowsDirectScriptExecution _ := true
  consume _ _ := none
  parseUri _ := none

def appSite : Site :=
  Site.ofName .linked ⟨"app", by decide⟩ (Path.ofStr "/srv/app") ⟨8, 3⟩

def getRoot : Request := ⟨.get, ⟨some (['/'], none)⟩, []⟩

def localAddr : SocketAddr := ⟨"127.0.0.1", 80⟩

/-- `GET /` runs the file that the link leads to. -/
theorem fallback_script_escapes :
    ¬∀ params, servePhpFpm linkedIndexEnv getRoot appSite none appSite.servedRoot
        appSite.documentRoot none localAddr localAddr false true = .forward params →
      ∀ f, (ascii "SCRIPT_FILENAME", f) ∈ params →
        linkedIndexEnv.fs.Contained appSite.documentRoot ⟨f⟩ := by
  rw [forwarded_iff (P := linkedIndexEnv.fs.Contained appSite.documentRoot)]
  intro h
  have hback : chooseScript linkedIndexEnv getRoot appSite appSite.servedRoot appSite.documentRoot
      none true = .run none := by
    decide +kernel
  have hreal : linkedIndexEnv.fs.canonicalize (scriptOf appSite.servedRoot none).1.rendered =
      some (Path.ofStr "/etc/evil.php".toList) := by
    decide +kernel
  have hroot : linkedIndexEnv.fs.canonicalize appSite.documentRoot =
      some (Path.ofStr "/srv/app".toList) := by
    decide +kernel
  obtain ⟨realRoot, hrealRoot, hin⟩ := h none hback _ hreal
  rw [hroot, Option.some.injEq] at hrealRoot
  subst hrealRoot
  revert hin
  decide +kernel

end Orcker.Proxy
