import Orcker.Base.Locks
import Orcker.Daemon.LoopGuard

/-!
# Committing a configuration

The configuration lives three times: in memory behind a mutex, as the router built from it, and in
the file at `config_path`. The filesystem watcher rebuilds the router under the same mutex. Every
await ends a move here, and every check, scan and write may fail.
-/

namespace Orcker.Daemon.Commit

open Base Orcker.Core Orcker.Schema

/-! ## Requests and replies -/

/-- The requests of `handle_mutation`; choosing a web root has its own rule. -/
inductive Mutating where
  | plain (req : Request)
  | setWebRoot (name : Str) (path : Option Str)

inductive SaveError where
  | config (e : ConfigError)
  | io (source : Str)

/-- Why a request is refused. -/
inductive Failure where
  | cannotResolve (path : Path)
  | notDirectory (path : Path)
  | descriptor (path : Path) (e : ConfigError)
  | mutate (e : MutateError)
  | webRoot (e : WebRootError)
  | plan (e : LinkError)
  | loop (refusal : LoopRefusal)
  | writeDescriptor (path : Path) (source : Str)
  | validation (e : ConfigError)
  | rebuild (e : ScanError)
  | save (e : SaveError)

/-- The handler gives up before it asks for the mutex. -/
def Failure.early : Failure → Bool
  | .cannotResolve _ | .notDirectory _ | .descriptor .. => true
  | _ => false

/-- One project as it is reported, with what its descriptor says. -/
structure ProjectEntry where
  project : ContainerProject
  primaryDomain : Str
  descriptor : Option OrckerYml

/-- What a client is told. -/
inductive Reply where
  | ok
  | project (entry : ProjectEntry) (created wroteDescriptor : Bool)
  | error (failure : Failure)
  /-- The watcher's: the directories to watch from now on, unless the rebuild failed. -/
  | watch (desired : Option (List Path))

/-- How a section of the mutex ends: with the reply, or with a new project whose domain is looked
up afterwards. -/
inductive Outcome where
  | reply (reply : Reply)
  | linked (project : ContainerProject) (descriptor : Option OrckerYml) (wroteDescriptor : Bool)
      (tld : Tld)

/-! ## The state -/

/-- What the mutex guards, and the file. -/
structure Live where
  config : Config
  router : SiteRouter
  file : Option Str

/-- A section of the mutex that is over: what was live when the task took it and when it left. -/
structure Ended where
  task : Nat
  outcome : Outcome
  taken : Live
  left : Live

/-- What the tasks share, and the record of their sections. -/
structure Shared where
  holder : Option Nat
  live : Live
  /-- A save has succeeded. -/
  saved : Bool
  ended : List Ended

/-- A commit under way: the state it started from, the new config, and what is to be said. -/
structure Pending where
  taken : Live
  new : Config
  outcome : Outcome

/-- A request, or the watcher, at each of its awaits. -/
inductive Task where
  | mutation (req : Mutating)
  | mutating (req : Mutating) (canonical : Option Path) (subpath : Option Str)
  | linkProject (path : Path) (name : Option Str) (port : Option UInt16)
  | linking (root : Path) (name : Option Str) (port : Option UInt16) (existing : Option OrckerYml)
  | recompute
  | applying (taken : Live) (req : Mutating) (canonical : Option Path) (subpath : Option Str)
  | planning (taken : Live) (root : Path) (name : Option Str) (port : Option UInt16)
      (existing : Option OrckerYml)
  | validating (p : Pending)
  | building (p : Pending)
  | saving (p : Pending) (candidate : SiteRouter)
  | storing (p : Pending) (candidate : SiteRouter)
  | swapping (p : Pending) (candidate : SiteRouter)
  | scanning (taken : Live)
  | rerouting (taken : Live) (router : SiteRouter) (watchRoots : List Path)
  | leaving (taken : Live) (outcome : Outcome)
  | naming (project : ContainerProject) (descriptor : Option OrckerYml) (wroteDescriptor : Bool)
      (tld : Tld)
  | answered (reply : Reply)

/-- What a move finds outside the daemon. -/
structure Input where
  fs : Fs
  gatherProjectSignals : Path → ProjectSignals
  /-- `None` when there is no descriptor to read. -/
  descriptor : Path → Option (Except ConfigError OrckerYml)
  portIsFree : UInt16 → Bool
  writeDescriptor : Except Str Unit
  world : ScanWorld
  save : Except Str Unit

/-! ## The handlers -/

def canonicalizeDir (fs : Fs) (path : Path) : Except Failure Path :=
  match fs.canonicalize path with
  | none => .error (.cannotResolve path)
  | some p => if fs.isDir p then .ok p else .error (.notDirectory p)

/-- `handle_mutation` before it asks for the mutex. -/
def beginMutation (input : Input) (req : Mutating) : Task :=
  match req with
  | .plain (.park path) =>
    match canonicalizeDir input.fs path with
    | .error e => .answered (.error e)
    | .ok p => .mutating req (some p) none
  | .plain (.link path _) =>
    match canonicalizeDir input.fs path with
    | .error e => .answered (.error e)
    | .ok p => .mutating req (some p) (some (detectWebSubpath input.gatherProjectSignals p))
  | _ => .mutating req none none

/-- A linked site starts with the web root that was detected for it. -/
def setLinkSubpath (cfg : Config) (req : Mutating) (subpath : Option Str) : Config :=
  match req, subpath with
  | .plain (.link _ name), some subpath =>
    { cfg with
      linked := (updateFirst (fun s : Site => s.name.text = lower name)
        (·.set (.webSubpath (.ofStr subpath))) cfg.linked).getD cfg.linked }
  | _, _ => cfg

/-- A mutation clones the live configuration and changes the clone. -/
def applyMutation (input : Input) (live : Live) (req : Mutating) (canonical : Option Path) :
    Except Failure Config :=
  match req with
  | .setWebRoot name path =>
    match resolveWebRootMutation input.fs input.gatherProjectSignals live.config live.router name
        path with
    | .ok (new, _) => .ok new
    | .error e => .error (.webRoot e)
  | .plain req =>
    match apply live.config live.router req canonical live.config.php.default with
    | .ok (new, _) => .ok new
    | .error e => .error (.mutate e)

/-- `handle_link_project` before it asks for the mutex. -/
def beginLink (input : Input) (path : Path) (name : Option Str) (port : Option UInt16) : Task :=
  match canonicalizeDir input.fs path with
  | .error e => .answered (.error e)
  | .ok root =>
    let descriptorPath := root.join (.ofStr "orcker.yml")
    match input.descriptor descriptorPath with
    | none => .linking root name port none
    | some (.ok yml) => .linking root name port (some yml)
    | some (.error e) => .answered (.error (.descriptor descriptorPath e))

/-- The primary domain when it is not the default one, and the domains of the site. -/
def siteEntryDomains (router : SiteRouter) (name : ProxyName) (tld : Str) :
    Option Str × List Str :=
  let apex := Domain.apex name
  let effective := router.domains[name.text]?.getD []
  let primary := router.primaries[name.text]?
  if effective = [apex] ∧ primary = some apex then (none, [])
  else ((primary.filter (· ≠ apex)).map (·.toFqdn tld), effective.map (·.toFqdn tld))

def projectDomain (router : SiteRouter) (name : ProxyName) (tld : Str) : Str :=
  (siteEntryDomains router name tld).1.getD (name.text ++ '.' :: tld)

def projectEntry (router : SiteRouter) (project : ContainerProject)
    (descriptor : Option OrckerYml) (tld : Tld) : ProjectEntry :=
  ⟨project, projectDomain router project.name.toProxyName tld.text, descriptor⟩

/-- The decision of `handle_link_project`, and the descriptor it may write. -/
def linkUnderLock (boundPorts : List Nat) (input : Input) (live : Live) (root : Path)
    (name : Option Str) (port : Option UInt16) (existing : Option OrckerYml) :
    Except Failure (Config × Outcome) ⊕ Reply :=
  match planLink live.config root name port existing input.portIsFree with
  | .error e => .inl (.error (.plan e))
  | .ok (.alreadyLinked project) =>
    .inr (.project (projectEntry live.router project existing live.config.tld) false false)
  | .ok (.link project writeYml) =>
    match projectLoopRefusal project boundPorts with
    | some refusal => .inl (.error (.loop refusal))
    | none =>
      let new := { live.config with projects := live.config.projects ++ [project] }
      match writeYml with
      | none => .inl (.ok (new, .linked project existing false live.config.tld))
      | some yml =>
        match input.writeDescriptor with
        | .error source =>
          .inl (.error (.writeDescriptor (root.join (.ofStr "orcker.yml")) source))
        | .ok () => .inl (.ok (new, .linked project (some yml) true live.config.tld))

/-- `startup::build_routing`, as far as the router goes. -/
def buildRouting (world : ScanWorld) (cfg : Config) : Except ScanError (SiteRouter × List Path) :=
  match scanSites world cfg.php.default cfg with
  | .ok (sites, watchRoots) => .ok ((build cfg sites).router, watchRoots)
  | .error e => .error e

/-- `Config::save`, which replaces the whole file or leaves it alone. -/
def save (toml : TomlCrate) (input : Input) (cfg : Config) : Except SaveError Str :=
  match cfg.toToml toml with
  | .error e => .error (.config e)
  | .ok text =>
    match input.save with
    | .error source => .error (.io source)
    | .ok () => .ok text

/-- Where a section goes on after a step that may fail. -/
def orLeave {α : Type} (taken : Live) (result : Except Failure α) (next : α → Task) : Task :=
  match result with
  | .ok a => next a
  | .error e => .leaving taken (.reply (.error e))

def Outcome.after : Outcome → Task
  | .reply r => .answered r
  | .linked project descriptor wroteDescriptor tld => .naming project descriptor wroteDescriptor tld

/-- The mutex, if it is free. -/
def acquire (i : Nat) (s : Shared) (next : Live → Task) : Option (Shared × Task) :=
  if s.holder = none then some ({ s with holder := some i }, next s.live) else none

/-- What a task does up to its next await: a changed clone is validated, a router is built, the file
saved, then both are swapped in. -/
def move (toml : TomlCrate) (boundPorts : List Nat) (i : Nat) (input : Input) (s : Shared) :
    Task → Option (Shared × Task)
  | .mutation req => some (s, beginMutation input req)
  | .mutating req canonical subpath =>
    acquire i s fun taken => .applying taken req canonical subpath
  | .linkProject path name port => some (s, beginLink input path name port)
  | .linking root name port existing =>
    acquire i s fun taken => .planning taken root name port existing
  | .recompute => acquire i s .scanning
  | .applying taken req canonical subpath =>
    some (s, orLeave taken (applyMutation input s.live req canonical) fun new =>
      .validating ⟨taken, setLinkSubpath new req subpath, .reply .ok⟩)
  | .planning taken root name port existing =>
    match linkUnderLock boundPorts input s.live root name port existing with
    | .inl result => some (s, orLeave taken result fun (new, outcome) =>
        .validating ⟨taken, new, outcome⟩)
    | .inr reply => some (s, .leaving taken (.reply reply))
  | .validating p =>
    some (s, orLeave p.taken ((validate p.new).mapError .validation) fun _ => .building p)
  | .building p =>
    some (s, orLeave p.taken ((buildRouting input.world p.new).mapError .rebuild)
      fun (candidate, _) => .saving p candidate)
  | .saving p candidate =>
    match save toml input p.new with
    | .error e => some (s, .leaving p.taken (.reply (.error (.save e))))
    | .ok text =>
      some ({ s with live := { s.live with file := some text }, saved := true },
        .storing p candidate)
  | .storing p candidate =>
    some ({ s with live := { s.live with config := p.new } }, .swapping p candidate)
  | .swapping p candidate =>
    some ({ s with live := { s.live with router := candidate } }, .leaving p.taken p.outcome)
  | .scanning taken =>
    match buildRouting input.world s.live.config with
    | .error _ => some (s, .leaving taken (.reply (.watch none)))
    | .ok (router, watchRoots) => some (s, .rerouting taken router watchRoots)
  | .rerouting taken router watchRoots =>
    let desired := watchRoots ++ s.live.config.parked.paths.toList.map .ofStr
    some ({ s with live := { s.live with router } }, .leaving taken (.reply (.watch (some desired))))
  | .leaving taken outcome =>
    some ({ s with holder := none, ended := ⟨i, outcome, taken, s.live⟩ :: s.ended }, outcome.after)
  | .naming project descriptor wroteDescriptor tld =>
    some (s, .answered
      (.project (projectEntry s.live.router project descriptor tld) true wroteDescriptor))
  | .answered _ => none

/-! ## What holds -/

/-- The file has the configuration. -/
def Holds (toml : TomlCrate) (file : Option Str) (cfg : Config) : Prop :=
  ∃ text, file = some text ∧ cfg.toToml toml = .ok text

/-- The router is the build of the config and of what some scan with it found. -/
def Routed (cfg : Config) (router : SiteRouter) : Prop :=
  ∃ world sites watchRoots, scanSites world cfg.php.default cfg = .ok (sites, watchRoots) ∧
    router = (build cfg sites).router

/-- The three agree, the file once a save has succeeded. -/
structure Settled (toml : TomlCrate) (s : Shared) : Prop where
  file : s.saved = true → Holds toml s.live.file s.live.config
  routed : Routed s.live.config s.live.router

/-- The task has the mutex. -/
def Task.inSection : Task → Bool
  | .applying .. | .planning .. | .validating _ | .building _ | .saving .. | .storing ..
  | .swapping .. | .scanning _ | .rerouting .. | .leaving .. => true
  | _ => false

def Outcome.isError : Outcome → Bool
  | .reply (.error _) => true
  | _ => false

/-- What the task in the section relies on. Up to the save nothing has changed; from there to the
swap of the router, the step that is due next restores what the last one broke. -/
def Inside (toml : TomlCrate) (s : Shared) : Task → Prop
  | .applying taken .. | .planning taken .. | .scanning taken => Settled toml s ∧ taken = s.live
  | .validating p | .building p => Settled toml s ∧ p.taken = s.live ∧ p.outcome.isError = false
  | .saving p candidate =>
    (Settled toml s ∧ p.taken = s.live ∧ p.outcome.isError = false) ∧ Routed p.new candidate
  | .storing p candidate =>
    Holds toml s.live.file p.new ∧ Routed p.new candidate ∧ p.outcome.isError = false
  | .swapping p candidate =>
    Holds toml s.live.file s.live.config ∧ Routed s.live.config candidate ∧
      p.outcome.isError = false
  | .rerouting _ router _ => Settled toml s ∧ Routed s.live.config router
  | .leaving taken outcome => Settled toml s ∧ (outcome.isError = true → taken = s.live)
  | _ => True

/-- Only the holder is in the section, and an error that was answered is on record, unless the
handler had not asked for the mutex yet. -/
structure TaskOk (toml : TomlCrate) (s : Shared) (i : Nat) (t : Task) : Prop where
  holds : t.inSection = true → s.holder = some i
  inside : Inside toml s t
  error : ∀ failure, t = .answered (.error failure) →
    failure.early = true ∨ ∃ e ∈ s.ended, e.task = i ∧ e.outcome = .reply (.error failure)

/-- Whenever the mutex is free the three agree, and a section that failed left all as it was. -/
structure SharedOk (toml : TomlCrate) (s : Shared) : Prop where
  settled : s.holder = none → Settled toml s
  ended : ∀ e ∈ s.ended, e.outcome.isError = true → e.left = e.taken

variable {cfg : Config} {input : Input} {t' : Task} {taken : Live} {outcome : Outcome}

section Steps

variable {toml : TomlCrate} {boundPorts : List Nat} {s s' : Shared} {i j : Nat} {t : Task}

theorem routed_of_buildRouting {world : ScanWorld} {router : SiteRouter} {watchRoots : List Path}
    (h : buildRouting world cfg = .ok (router, watchRoots)) : Routed cfg router := by
  unfold buildRouting at h
  split at h
  · next sites roots hscan =>
    cases h
    exact ⟨world, sites, _, hscan, rfl⟩
  · cases h

theorem holds_of_save {text : Str} (h : save toml input cfg = .ok text) :
    Holds toml (some text) cfg := by
  unfold save at h
  split at h
  · cases h
  · next text' htext =>
    split at h
    · cases h
    · cases h
      exact ⟨_, rfl, htext⟩

theorem inside_of_not_inSection (h : t.inSection = false) : Inside toml s t := by
  cases t <;> first | exact trivial | cases h

theorem TaskOk.of_outside (h : t.inSection = false)
    (herror : ∀ failure, t ≠ .answered (.error failure)) : TaskOk toml s i t :=
  ⟨fun hin => (Bool.false_ne_true (h.symm.trans hin)).elim, inside_of_not_inSection h,
    fun failure ht => absurd ht (herror failure)⟩

theorem TaskOk.of_early {failure : Failure} (h : failure.early = true) :
    TaskOk toml s i (.answered (.error failure)) := by
  refine ⟨nofun, trivial, ?_⟩
  rintro _ ⟨⟩
  exact .inl h

theorem TaskOk.of_held (h : TaskOk toml s j t) (hj : j ≠ i)
    (hheld : s.holder = none ∨ s.holder = some i) (hended : s.ended ⊆ s'.ended) :
    TaskOk toml s' j t := by
  have hout := Tasks.eq_false_of_held h.holds hj hheld
  refine ⟨fun hin => (Bool.false_ne_true (hout.symm.trans hin)).elim,
    inside_of_not_inSection hout, fun failure ht => ?_⟩
  refine (h.error failure ht).imp_right ?_
  rintro ⟨e, he, hrest⟩
  exact ⟨e, hended he, hrest⟩

theorem step_inside (hs : SharedOk toml s) (ht : s.holder = some i) (hholder : s'.holder = s.holder)
    (hended : s'.ended = s.ended) (hin : t'.inSection = true) (hinside : Inside toml s' t') :
    Tasks.Keeps (SharedOk toml) (TaskOk toml) s s' i t' := by
  rw [ht] at hholder
  refine ⟨⟨?_, hended ▸ hs.ended⟩, ⟨fun _ => hholder, hinside, ?_⟩, ?_⟩
  · rw [hholder]
    rintro ⟨⟩
  · rintro failure rfl
    cases hin
  · intro j u hj hu
    exact hu.of_held hj (.inr ht) (hended ▸ List.Subset.refl _)

theorem step_orLeave {α : Type} {result : Except Failure α} {next : α → Task} (hs : SharedOk toml s)
    (ht : s.holder = some i) (hsettled : Settled toml s) (htaken : taken = s.live)
    (hnext : ∀ a, result = .ok a → (next a).inSection = true ∧ Inside toml s (next a)) :
    Tasks.Keeps (SharedOk toml) (TaskOk toml) s s i (orLeave taken result next) := by
  cases result with
  | ok a => exact step_inside hs ht rfl rfl (hnext a rfl).1 (hnext a rfl).2
  | error e => exact step_inside hs ht rfl rfl rfl ⟨hsettled, fun _ => htaken⟩

theorem acquire_ok {next : Live → Task} (hs : SharedOk toml s)
    (h : acquire i s next = some (s', t')) (hin : (next s.live).inSection = true)
    (hinside : Settled toml s → Inside toml { s with holder := some i } (next s.live)) :
    Tasks.Keeps (SharedOk toml) (TaskOk toml) s s' i t' := by
  unfold acquire at h
  split_ifs at h with hfree
  cases h
  refine ⟨⟨nofun, hs.ended⟩, ⟨fun _ => rfl, hinside (hs.settled hfree), ?_⟩, ?_⟩
  · intro failure hanswered
    rw [hanswered] at hin
    cases hin
  · intro j u hj hu
    exact hu.of_held hj (.inl hfree) (List.Subset.refl _)

theorem early_of_canonicalizeDir {fs : Fs} {path : Path} {e : Failure}
    (h : canonicalizeDir fs path = .error e) : e.early = true := by
  unfold canonicalizeDir at h
  split at h
  · cases h
    rfl
  · split_ifs at h
    cases h
    rfl

theorem beginMutation_ok (input : Input) (req : Mutating) :
    TaskOk toml s i (beginMutation input req) := by
  unfold beginMutation
  split
  · split
    · next e he => exact .of_early (early_of_canonicalizeDir he)
    · exact .of_outside rfl (by simp)
  · split
    · next e he => exact .of_early (early_of_canonicalizeDir he)
    · exact .of_outside rfl (by simp)
  · exact .of_outside rfl (by simp)

theorem beginLink_ok (input : Input) (path : Path) (name : Option Str) (port : Option UInt16) :
    TaskOk toml s i (beginLink input path name port) := by
  unfold beginLink
  split
  · next e he => exact .of_early (early_of_canonicalizeDir he)
  · dsimp only
    split
    · exact .of_outside rfl (by simp)
    · exact .of_outside rfl (by simp)
    · exact .of_early rfl

theorem linkUnderLock_isError {live : Live} {root : Path} {name : Option Str} {port : Option UInt16}
    {existing : Option OrckerYml} {new : Config}
    (h : linkUnderLock boundPorts input live root name port existing = .inl (.ok (new, outcome))) :
    outcome.isError = false := by
  unfold linkUnderLock at h
  split at h
  · cases h
  · cases h
  · split at h
    · cases h
    · dsimp only at h
      split at h
      · cases h
        rfl
      · split at h
        · cases h
        · cases h
          rfl

theorem leaving_ok (hs : SharedOk toml s) (ht : TaskOk toml s i (.leaving taken outcome)) :
    Tasks.Keeps (SharedOk toml) (TaskOk toml) s
      { s with holder := none, ended := ⟨i, outcome, taken, s.live⟩ :: s.ended } i outcome.after := by
  obtain ⟨hsettled, hunchanged⟩ := ht.inside
  refine ⟨⟨fun _ => ⟨hsettled.file, hsettled.routed⟩, ?_⟩, ?_, ?_⟩
  · intro e he herror
    rcases List.mem_cons.1 he with rfl | he
    · exact (hunchanged herror).symm
    · exact hs.ended e he herror
  · cases outcome with
    | reply r =>
      refine ⟨nofun, trivial, ?_⟩
      rintro failure ⟨⟩
      exact .inr ⟨_, List.mem_cons_self .., rfl, rfl⟩
    | linked project descriptor wrote tld => exact .of_outside rfl (by simp [Outcome.after])
  · intro j u hj hu
    exact hu.of_held hj (.inr (ht.holds rfl)) (List.subset_cons_self ..)

theorem move_ok (i : Nat) (input : Input) (s : Shared) (t : Task) (s' : Shared) (t' : Task)
    (hmove : move toml boundPorts i input s t = some (s', t')) (hs : SharedOk toml s)
    (ht : TaskOk toml s i t) :
    Tasks.Keeps (SharedOk toml) (TaskOk toml) s s' i t' := by
  cases t with
  | mutation req =>
    cases hmove
    exact ⟨hs, beginMutation_ok input req, fun _ _ _ hu => hu⟩
  | linkProject path name port =>
    cases hmove
    exact ⟨hs, beginLink_ok input path name port, fun _ _ _ hu => hu⟩
  | mutating | linking | recompute =>
    simp only [move] at hmove
    exact acquire_ok hs hmove rfl fun h => ⟨⟨h.file, h.routed⟩, rfl⟩
  | applying taken req canonical subpath =>
    cases hmove
    obtain ⟨hsettled, htaken⟩ := ht.inside
    exact step_orLeave hs (ht.holds rfl) hsettled htaken fun new _ => ⟨rfl, hsettled, htaken, rfl⟩
  | planning taken root name port existing =>
    obtain ⟨hsettled, htaken⟩ := ht.inside
    simp only [move] at hmove
    split at hmove
    · next result hresult =>
      cases hmove
      refine step_orLeave hs (ht.holds rfl) hsettled htaken fun r hr => ?_
      exact ⟨rfl, hsettled, htaken, linkUnderLock_isError (hr ▸ hresult)⟩
    · next reply hreply =>
      cases hmove
      exact step_inside hs (ht.holds rfl) rfl rfl rfl ⟨hsettled, fun _ => htaken⟩
  | validating p =>
    cases hmove
    obtain ⟨hsettled, htaken, hok⟩ := ht.inside
    exact step_orLeave hs (ht.holds rfl) hsettled htaken fun _ _ => ⟨rfl, hsettled, htaken, hok⟩
  | building p =>
    cases hmove
    obtain ⟨hsettled, htaken, hok⟩ := ht.inside
    refine step_orLeave hs (ht.holds rfl) hsettled htaken fun r hr => ?_
    exact ⟨rfl, ⟨hsettled, htaken, hok⟩, routed_of_buildRouting (mapError_eq_ok_iff.1 hr)⟩
  | saving p candidate =>
    obtain ⟨⟨hsettled, htaken, hok⟩, hrouted⟩ := ht.inside
    simp only [move] at hmove
    split at hmove
    · cases hmove
      exact step_inside hs (ht.holds rfl) rfl rfl rfl ⟨hsettled, fun _ => htaken⟩
    · next text htext =>
      cases hmove
      exact step_inside hs (ht.holds rfl) rfl rfl rfl
        ⟨holds_of_save htext, hrouted, hok⟩
  | storing p candidate =>
    cases hmove
    exact step_inside hs (ht.holds rfl) rfl rfl rfl ht.inside
  | swapping p candidate =>
    cases hmove
    obtain ⟨hfile, hrouted, hok⟩ := ht.inside
    exact step_inside hs (ht.holds rfl) rfl rfl rfl
      ⟨⟨fun _ => hfile, hrouted⟩, fun herror => (Bool.false_ne_true (hok.symm.trans herror)).elim⟩
  | scanning taken =>
    obtain ⟨hsettled, htaken⟩ := ht.inside
    simp only [move] at hmove
    split at hmove
    · cases hmove
      exact step_inside hs (ht.holds rfl) rfl rfl rfl ⟨hsettled, fun _ => htaken⟩
    · next router watchRoots hbuild =>
      cases hmove
      exact step_inside hs (ht.holds rfl) rfl rfl rfl
        ⟨hsettled, routed_of_buildRouting hbuild⟩
  | rerouting taken router watchRoots =>
    cases hmove
    obtain ⟨hsettled, hrouted⟩ := ht.inside
    exact step_inside hs (ht.holds rfl) rfl rfl rfl
      ⟨⟨hsettled.file, hrouted⟩, nofun⟩
  | leaving taken outcome =>
    cases hmove
    exact leaving_ok hs ht
  | naming project descriptor wrote tld =>
    cases hmove
    exact ⟨hs, .of_outside rfl (by simp), fun _ _ _ hu => hu⟩
  | answered reply => cases hmove

end Steps

/-! ## Whole runs -/

/-- A request or a watcher's tick that has not begun. -/
def Task.begins : Task → Bool
  | .mutation _ | .linkProject .. | .recompute => true
  | _ => false

/-- The mutex is free, the router is built from the config, and nothing is saved yet. -/
structure Starts (w : Tasks Shared Task) : Prop where
  free : w.shared.holder = none
  unsaved : w.shared.saved = false
  routed : Routed w.shared.live.config w.shared.live.router
  ended : w.shared.ended = []
  tasks : ∀ i, (w.task i).begins = true

theorem Starts.local {w : Tasks Shared Task} (toml : TomlCrate) (h : Starts w) :
    w.Local (SharedOk toml) (TaskOk toml) := by
  refine ⟨⟨fun _ => ⟨?_, h.routed⟩, ?_⟩, fun i => ?_⟩
  · rw [h.unsaved]
    rintro ⟨⟩
  · rw [h.ended]
    simp
  · have hbegins := h.tasks i
    generalize w.task i = t at hbegins
    cases t <;> first | cases hbegins; done | exact .of_outside rfl (by simp)

/-- In every interleaving of mutations, project links and watcher rebuilds, with every failure they
can meet: whenever the mutex is free, the file holds the live config once a save has succeeded and
the router is the build of the live config and of a scan with it; and a request that is answered
with an error left everything as it was when it took the mutex, if it came to take it. -/
theorem commit_all_or_nothing {toml : TomlCrate} {boundPorts : List Nat} {w w' : Tasks Shared Task}
    {turns : List (Nat × Input)} (hstart : Starts w)
    (hrun : w.run (move toml boundPorts) turns = some w') :
    (w'.shared.holder = none → Settled toml w'.shared) ∧
    (∀ i failure, w'.task i = .answered (.error failure) → failure.early = true ∨
      ∃ e ∈ w'.shared.ended, e.task = i ∧ e.outcome = .reply (.error failure)) ∧
    ∀ e ∈ w'.shared.ended, ∀ failure, e.outcome = .reply (.error failure) → e.left = e.taken := by
  obtain ⟨hshared, htasks⟩ := Tasks.run_local move_ok (hstart.local toml) hrun
  refine ⟨hshared.settled, fun i => (htasks i).error, fun e he failure houtcome => ?_⟩
  exact hshared.ended e he (by rw [houtcome]; rfl)

/-- One directory to park, and no descriptor anywhere. -/
def sitesDisk : FsTable where
  nodes := [("/srv/sites", ⟨.dir, 0⟩, [])]
  links := []
  links_ok := by simp
  nodes_ok := by decide +kernel

def parkInput : Input where
  fs := sitesDisk.toFs
  gatherProjectSignals _ := ⟨∅, ∅, ∅⟩
  descriptor _ := none
  portIsFree _ := true
  writeDescriptor := .ok ()
  world := blogWorld
  save := .ok ()

/-- A park, an unlink of a site that is not there, and the watcher. -/
def parkAndUnlink : Tasks Shared Task where
  shared := ⟨none, ⟨Config.default, (build Config.default []).router, none⟩, false, []⟩
  task i :=
    if i = 0 then .mutation (.plain (.park (.ofStr "/srv/sites")))
    else if i = 1 then .mutation (.plain (.unlink "ghost"))
    else .recompute

def parkTurns : List (Nat × Input) :=
  [0, 1, 0, 0, 0, 0, 0, 0, 0, 0, 1, 1, 1, 2, 2, 2, 2].map fun i => (i, parkInput)

theorem commit_all_or_nothing_park :
    ∃ w', parkAndUnlink.run (move twoTexts [80]) parkTurns = some w' ∧
      w'.shared.saved = true ∧ w'.shared.holder = none ∧ Settled twoTexts w'.shared := by
  have hstart : Starts parkAndUnlink := by
    refine ⟨rfl, rfl, ⟨blogWorld, [], [], ?_, rfl⟩, rfl, fun i => ?_⟩
    · rfl
    · show Task.begins (if i = 0 then _ else if i = 1 then _ else _) = true
      split_ifs <;> rfl
  have hends : ((parkAndUnlink.run (move twoTexts [80]) parkTurns).any fun w' =>
      w'.shared.saved && w'.shared.holder.isNone) = true := by
    decide +kernel
  obtain ⟨w', hrun, hend⟩ := (Option.any_eq_true _ _).1 hends
  simp only [Bool.and_eq_true, Option.isNone_iff_eq_none] at hend
  exact ⟨w', hrun, hend.1, hend.2, (commit_all_or_nothing hstart hrun).1 hend.2⟩

end Orcker.Daemon.Commit
