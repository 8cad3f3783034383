import Orcker.Daemon.Commit
import Orcker.Daemon.Upstreams
import Orcker.Mcp.Protocol

/-!
# Agents keep traffic on the machine

The daemon parses the text that an agent sends again and stores the target; saving prints it and the
next start parses what was printed. The parser is the same function each time and printing is undone
by it.
-/

namespace Orcker.Mcp

open Base Orcker.Core Orcker.Schema Orcker.Daemon

/-- What the daemon finds when a request reaches it: the world outside, the router of the time and
the ports it listens on. -/
structure Moment where
  input : Commit.Input
  router : SiteRouter
  boundPorts : List Nat

/-- The configuration after a commit, which needs it to be valid, to be routable and to be saved. -/
def commitConfig (toml : TomlCrate) (m : Moment) (cfg new : Config) : Config :=
  match validate new with
  | .error _ => cfg
  | .ok () =>
    match Commit.buildRouting m.input.world new with
    | .error _ => cfg
    | .ok _ =>
      match Commit.save toml m.input new with
      | .error _ => cfg
      | .ok _ => new

/-- `handle_mutation` behind the dispatcher's loop check, with nobody else at the mutex. -/
def handleMutation (toml : TomlCrate) (m : Moment) (cfg : Config) (req : Request) : Config :=
  if dispatchRefuses req m.boundPorts then cfg
  else
    match Commit.beginMutation m.input (.plain req) with
    | .mutating _ canonical subpath =>
      match Commit.applyMutation m.input ⟨cfg, m.router, none⟩ (.plain req) canonical with
      | .error _ => cfg
      | .ok new => commitConfig toml m cfg (Commit.setLinkSubpath new (.plain req) subpath)
    | _ => cfg

/-- This one is saved without being validated. -/
def setMailEnabled (toml : TomlCrate) (m : Moment) (cfg : Config) (enabled : Bool) : Config :=
  let new := { cfg with mail := { cfg.mail with enabled } }
  match Commit.save toml m.input new with
  | .error _ => cfg
  | .ok _ => new

/-- The configuration after a request; the ones that only ask change nothing. -/
def serve (toml : TomlCrate) (m : Moment) (cfg : Config) : ToolRequest → Config
  | .mutation req => handleMutation toml m cfg req
  | .setMailEnabled enabled => setMailEnabled toml m cfg enabled
  | _ => cfg

/-- One `tools/call` and the moment it is served. -/
structure Call where
  name : Str
  args : Json
  moment : Moment

/-- A call that is built is served. -/
def Call.run (toml : TomlCrate) (cfg : Config) (call : Call) : Config :=
  match build call.name call.args with
  | .error _ => cfg
  | .ok (_, request) => serve toml call.moment cfg request

def runCalls (toml : TomlCrate) (cfg : Config) (calls : List Call) : Config :=
  calls.foldl (Call.run toml) cfg

/-- The host is `localhost`, in `127.0.0.0/8`, or `::1`. -/
def OnThisMachine (host : Str) : Prop :=
  host = "localhost" ∨ (∃ rest, parseIp host = some (.v4 (127 :: rest))) ∨
    parseIp host = some (.v6 [0, 0, 0, 0, 0, 0, 0, 1])

theorem onThisMachine_of_isLoopbackHost {host : Str} (h : isLoopbackHost host = true) :
    OnThisMachine host := by
  rw [isLoopbackHost, Bool.or_eq_true, beq_iff_eq, Option.any_eq_true] at h
  rcases h with hname | ⟨ip, hip, hloop⟩
  · exact .inl hname
  · cases ip with
    | v4 octets =>
      rw [IpAddr.isLoopback, beq_iff_eq, List.head?_eq_some_iff] at hloop
      obtain ⟨rest, rfl⟩ := hloop
      exact .inr (.inl ⟨rest, hip⟩)
    | v6 segments =>
      rw [IpAddr.isLoopback, beq_iff_eq] at hloop
      exact .inr (.inr (hloop ▸ hip))

/-- Whatever URL the request adds an upstream with has passed the check. -/
def UrlsChecked (args : Json) (result : Except ArgError ToolRequest) : Prop :=
  ∀ req url, result = .ok (.mutation req) → req.upstreamUrl = some url →
    ∃ key, reqLocalUrl args key = .ok url

namespace UrlsChecked

variable {args : Json}

theorem ite {c : Prop} [Decidable c] {a b : Except ArgError ToolRequest} (ha : UrlsChecked args a)
    (hb : UrlsChecked args b) : UrlsChecked args (if c then a else b) := by
  split
  · exact ha
  · exact hb

theorem bind {α : Type} {x : Except ArgError α} {f : α → Except ArgError ToolRequest}
    (h : ∀ a, x = .ok a → UrlsChecked args (f a)) : UrlsChecked args (x >>= f) := by
  intro req url hresult hurl
  obtain ⟨a, ha, hf⟩ := bind_eq_ok_iff.1 hresult
  exact h a ha req url hf hurl

theorem plain {req : Request} (h : req.upstreamUrl = none) :
    UrlsChecked args (.ok (.mutation req)) := by
  intro req' url hresult hurl
  cases hresult
  rw [h] at hurl
  cases hurl

theorem checked {req : Request} {key url : Str} (h : req.upstreamUrl = some url)
    (hurl : reqLocalUrl args key = .ok url) : UrlsChecked args (.ok (.mutation req)) := by
  intro req' url' hresult hurl'
  cases hresult
  obtain rfl := Option.some.inj (h.symm.trans hurl')
  exact ⟨key, hurl⟩

theorem other {result : Except ArgError ToolRequest} (h : ∀ req, result ≠ .ok (.mutation req)) :
    UrlsChecked args result := fun req _ hresult => absurd hresult (h req)

end UrlsChecked

theorem buildRequest_urlsChecked (name : Str) (args : Json) :
    UrlsChecked args (buildRequest name args) := by
  unfold buildRequest
  extract_lets arg
  refine .ite (.other nofun) <|
    .ite (.bind fun _ _ => .bind fun _ _ => .plain rfl) <|
    .ite (.bind fun _ _ => .plain rfl) <|
    .ite (.other nofun) <|
    .ite (.bind fun _ _ => .bind fun _ _ => .plain rfl) <|
    .ite (.bind fun _ _ => .bind fun _ _ => .plain rfl) <|
    .ite (.bind fun _ _ => .bind fun _ _ => .plain rfl) <|
    .ite ?_ <|
    .ite (.bind fun _ _ => .plain rfl) <|
    .ite ?_ <|
    .ite (.bind fun _ _ => .bind fun _ _ => .plain rfl) <|
    .ite (.other nofun) <|
    .ite (.bind fun _ _ => .other nofun) <|
    .ite (.other nofun) <|
    .ite (.bind fun _ _ => .other nofun) <|
    .ite (.other nofun) <|
    .ite (.other nofun) <|
    .ite (.bind fun _ _ => .bind fun _ _ => .other nofun) (.other nofun)
  -- The two tools that name an upstream hand on the text they have checked.
  · -- add_proxy
    exact .bind fun _ _ => .bind fun _ hurl => .checked rfl hurl
  · -- add_proxy_rule
    exact .bind fun _ _ => .bind fun _ _ => .bind fun _ hurl => .checked rfl hurl

theorem onThisMachine_of_build {name tool url : Str} {args : Json} {req : Request}
    {target : UpstreamTarget} (hbuild : build name args = .ok (tool, .mutation req))
    (hurl : req.upstreamUrl = some url) (htarget : UpstreamTarget.fromUrlStr url = .ok target) :
    OnThisMachine target.host := by
  rw [build] at hbuild
  split at hbuild
  · cases hbuild
  · obtain ⟨request, hrequest, heq⟩ := map_eq_ok_iff.1 hbuild
    cases heq
    obtain ⟨key, hkey⟩ := buildRequest_urlsChecked _ _ req url hrequest hurl
    obtain ⟨target', htarget', hlocal⟩ := isLoopbackHost_of_reqLocalUrl hkey
    obtain rfl := Except.ok.inj (htarget.symm.trans htarget')
    exact onThisMachine_of_isLoopbackHost hlocal

/-- Nothing leads off the machine that did not before, and nothing more is exposed. -/
structure Confined (start cfg : Config) : Prop where
  upstreams : ∀ target ∈ upstreams cfg, target ∈ Daemon.upstreams start ∨ OnThisMachine target.host
  exposure : exposure cfg = Daemon.exposure start

theorem Confined.refl (cfg : Config) : Confined cfg cfg := ⟨fun _ h => .inl h, rfl⟩

variable {toml : TomlCrate} {m : Moment} {start cfg : Config}

theorem Confined.commitConfig {new : Config} (hcfg : Confined start cfg) (hnew : Confined start new)
    : Confined start (commitConfig toml m cfg new) := by
  unfold Mcp.commitConfig
  split
  · exact hcfg
  split
  · exact hcfg
  split
  · exact hcfg
  · exact hnew

theorem Confined.setLinkSubpath (h : Confined start cfg) (req : Commit.Mutating)
    (subpath : Option Str) : Confined start (Commit.setLinkSubpath cfg req subpath) := by
  unfold Commit.setLinkSubpath
  split
  · exact ⟨h.upstreams, h.exposure⟩
  · exact h

theorem Confined.handleMutation {name tool : Str} {args : Json} {req : Request}
    (hcfg : Confined start cfg) (hbuild : build name args = .ok (tool, .mutation req)) :
    Confined start (handleMutation toml m cfg req) := by
  unfold Mcp.handleMutation
  split
  · exact hcfg
  split
  · next canonical subpath _ =>
    split
    · exact hcfg
    · next new hnew =>
      refine hcfg.commitConfig (Confined.setLinkSubpath ?_ _ _)
      simp only [Commit.applyMutation] at hnew
      split at hnew
      · next applied happly =>
        cases hnew
        refine ⟨fun target htarget => ?_, ?_⟩
        · rcases mem_upstreams_of_apply happly htarget with hold | ⟨url, hurl, hparse⟩
          · exact hcfg.upstreams target hold
          · exact .inr (onThisMachine_of_build hbuild hurl hparse)
        · exact (exposure_of_step (step_of_apply happly)).trans hcfg.exposure
      · cases hnew
  · exact hcfg

theorem Confined.setMailEnabled (hcfg : Confined start cfg) (enabled : Bool) :
    Confined start (setMailEnabled toml m cfg enabled) := by
  unfold Mcp.setMailEnabled
  extract_lets new
  split
  · exact hcfg
  · exact ⟨hcfg.upstreams, hcfg.exposure⟩

theorem Confined.call (hcfg : Confined start cfg) (call : Call) :
    Confined start (call.run toml cfg) := by
  unfold Call.run
  split
  · exact hcfg
  · next tool request hbuild =>
    cases request with
    | mutation req => exact hcfg.handleMutation hbuild
    | setMailEnabled enabled => exact hcfg.setMailEnabled enabled
    | _ => exact hcfg

theorem Confined.runCalls (calls : List Call) :
    ∀ {cfg : Config}, Confined start cfg → Confined start (runCalls toml cfg calls) := by
  induction calls with
  | nil => exact id
  | cons call calls ih => exact fun hcfg => ih (hcfg.call call)

/-- Whatever an agent calls, with whatever arguments: after the next save and load every upstream
that is new is on this machine, and the tunnel and the LAN settings are the old ones. -/
theorem agent_upstreams_local {toml : TomlCrate} {start loaded : Config} {calls : List Call}
    {text : Str} (htoml : toml.Faithful (runCalls toml start calls))
    (hsave : (runCalls toml start calls).toToml toml = .ok text)
    (hload : Config.fromToml toml text = .ok loaded) :
    (∀ target ∈ upstreams loaded, target ∉ upstreams start → OnThisMachine target.host) ∧
      loaded.tunnel = start.tunnel ∧ loaded.lanEnabled = start.lanEnabled ∧
      loaded.lanSetupPort = start.lanSetupPort := by
  have hrun : Confined start (runCalls toml start calls) := (Confined.refl start).runCalls calls
  obtain ⟨hsubset, hexposure⟩ := upstreams_of_reload htoml hsave hload
  refine ⟨fun target htarget hnew => ?_, ?_⟩
  · exact (hrun.upstreams target (hsubset htarget)).resolve_left hnew
  · exact Exposure.mk.inj (hexposure.trans hrun.exposure)

/-- What is written when the one proxy is all there is. -/
def apiLines : List String :=
  parkedLines.dropLast ++
    ["paths = []",
     "",
     "[[proxies]]",
     "name = \"api\"",
     "target = \"http://127.0.0.1:3000\"",
     "secure = false"]

def apiProxy : Except CoreError ProxySite := do
  ProxySite.new "api" (← UpstreamTarget.fromUrlStr "http://127.0.0.1:3000")

def apiConfig : Config := { Config.default with proxies := apiProxy.toOption.toList }

def apiDocument : Toml := apiConfig.document.toOption.getD (.table [])

def apiEntry : Str × Toml := (textOf apiLines, apiDocument)

def apiToml : TomlCrate := tomlOf [firstEntry, apiEntry]

def apiMoment : Moment where
  input := Commit.parkInput
  router := (Daemon.build Config.default []).router
  boundPorts := [80, 443]

/-- A dev server on this machine, and one on another: the second is refused. -/
def apiCalls : List Call :=
  [⟨"add_proxy", .object [("name", .string "api"),
      ("url", .string " HTTP://127.0.0.1:3000 ")], apiMoment⟩,
    ⟨"add_proxy", .object [("name", .string "out"),
      ("url", .string "http://203.0.113.9:3000")], apiMoment⟩]

theorem runCalls_apiCalls : runCalls apiToml Config.default apiCalls = apiConfig := by
  decide +kernel

theorem faithful_apiToml : apiToml.Faithful apiConfig := by
  intro v hv
  have hdocument : v = apiEntry.2 := by
    show v = apiConfig.document.toOption.getD (.table [])
    rw [hv]
    rfl
  have hne : firstEntry.1 ≠ apiEntry.1 := by decide +kernel
  rw [hdocument]
  exact ⟨apiEntry.1, by decide +kernel, by rw [apiToml, tomlOf_fromStr hne]⟩

theorem agent_upstreams_local_api :
    ∃ loaded, Config.fromToml apiToml apiEntry.1 = .ok loaded ∧
      (upstreams loaded).map UpstreamTarget.host = ["127.0.0.1".toList] ∧
      ∀ target ∈ upstreams loaded, target ∉ upstreams Config.default →
        OnThisMachine target.host := by
  have hsave : apiConfig.toToml apiToml = .ok apiEntry.1 := by decide +kernel
  have hload : Config.fromToml apiToml apiEntry.1 = .ok (reread apiConfig) := by decide +kernel
  rw [reread_eq] at hload
  have hhosts : (upstreams apiConfig).map UpstreamTarget.host = ["127.0.0.1".toList] := by
    decide +kernel
  rw [← runCalls_apiCalls] at hsave
  exact ⟨apiConfig, hload, hhosts,
    (agent_upstreams_local (runCalls_apiCalls ▸ faithful_apiToml) hsave hload).1⟩

end Orcker.Mcp
