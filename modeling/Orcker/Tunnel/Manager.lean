import Orcker.Base.Map
import Orcker.Base.Path
import Orcker.Base.Processes
import Orcker.Base.Numeral

/-!
# Supervising the tunnels

Beside the fields of the code the manager keeps the history of its children, which no code reads.
-/

namespace Orcker.Tunnel

open Base

/-! ## The supervision state machine

The state of a supervised process and the event its driver feeds give the next state and the one
action the driver takes. Durations are counted in nanoseconds. -/

abbrev Duration := Nat

abbrev Instant := Nat

def Duration.fromSecs (n : Nat) : Duration := n * 1000000000

def Duration.fromMillis (n : Nat) : Duration := n * 1000000

/-- The longest duration there is: `u64::MAX` seconds and a second's last nanosecond. -/
def Duration.max : Duration := (2 ^ 64 - 1) * 1000000000 + 999999999

def Duration.saturatingMul (d : Duration) (k : Nat) : Duration := min (d * k) Duration.max

/-- How long `later` is after `earlier`, zero when it is not. -/
def Instant.saturatingDurationSince (later earlier : Instant) : Duration := later - earlier

structure SupervisorPolicy where
  healthCheckWindow : Duration
  backoffInitial : Duration
  backoffMax : Duration
  maxRestartAttempts : Nat
  stopGrace : Duration
  deriving DecidableEq

def SupervisorPolicy.tunnel : SupervisorPolicy where
  healthCheckWindow := Duration.fromSecs 60
  backoffInitial := Duration.fromMillis 250
  backoffMax := Duration.fromSecs 10
  maxRestartAttempts := 3
  stopGrace := Duration.fromSecs 5

/-- How a supervised child exited. -/
inductive ExitReason where
  | code (c : Int)
  | signal (s : Int)
  | unknown
  deriving DecidableEq

inductive PoolState where
  | stopped
  | starting (attempts : Nat) (pid : Option UInt32)
  | running (pid : UInt32)
  | failed (lastExit : ExitReason) (attempts : Nat)
  | stopping (sigkilled : Bool)
  deriving DecidableEq

/-- What the driver feeds back into the state machine. -/
inductive Event where
  | ensureRequested
  | spawnSucceeded (pid : UInt32)
  | healthCheckOk
  | healthCheckTick (elapsedSinceStarting : Duration)
  | crashed (reason : ExitReason)
  | stopRequested
  | stopComplete
  | stopTick (elapsedSinceStopping : Duration)
  | backoffElapsed
  deriving DecidableEq

inductive ErrorTag where
  | healthCheckTimedOut
  | permanentFailure
  deriving DecidableEq

inductive KillSignal where
  | term
  | kill
  deriving DecidableEq

inductive Action where
  | none
  | spawn
  | healthCheck
  | backoff (wait : Duration)
  | kill (signal : KillSignal)
  | emitError (tag : ErrorTag)
  deriving DecidableEq

def u32Max : Nat := 2 ^ 32 - 1

/-- The sleep before retry number `attempts`, counted from one. -/
def backoffFor (attempts : Nat) (policy : SupervisorPolicy) : Duration :=
  let n := max attempts 1 - 1
  -- the shift is checked in 64 bits, and the factor then squeezed into 32
  let factor := if n < 64 then 2 ^ n else 2 ^ 64 - 1
  min (policy.backoffInitial.saturatingMul (min factor u32Max)) policy.backoffMax

/-- The supervisor's table. -/
def transition (state : PoolState) (event : Event) (policy : SupervisorPolicy) :
    PoolState × Action :=
  match state, event with
  | .stopped, .ensureRequested => (.starting 1 none, .spawn)
  | .starting attempts _, .spawnSucceeded pid => (.starting attempts (some pid), .healthCheck)
  | .starting _ (some pid), .healthCheckOk => (.running pid, .none)
  | .starting _ none, .healthCheckOk => (state, .none)
  | .starting _ _, .healthCheckTick elapsed =>
    if elapsed < policy.healthCheckWindow then (state, .healthCheck) else (state, .kill .term)
  | .starting attempts _, .crashed reason =>
    (.failed reason attempts, .backoff (backoffFor attempts policy))
  | .starting _ _, .stopRequested => (.stopping false, .kill .term)
  | .running _, .crashed reason => (.failed reason 1, .backoff (backoffFor 1 policy))
  | .running _, .ensureRequested => (state, .none)
  | .running _, .stopRequested => (.stopping false, .kill .term)
  | .failed lastExit attempts, .backoffElapsed =>
    if attempts < policy.maxRestartAttempts then (.starting (attempts + 1) none, .spawn)
    else (.failed lastExit attempts, .emitError .permanentFailure)
  | .failed _ _, .ensureRequested => (.starting 1 none, .spawn)
  | .failed _ _, .stopRequested => (.stopped, .none)
  | .stopping false, .stopTick elapsed =>
    if policy.stopGrace ≤ elapsed then (.stopping true, .kill .kill) else (state, .none)
  | .stopping true, .stopTick _ => (state, .none)
  | .stopping _, .stopComplete => (.stopped, .none)
  | .stopping _, .ensureRequested => (state, .none)
  | _, _ => (state, .none)

/-! ## The texts of an error -/

def ExitReason.debug : ExitReason → Str
  | code c => "Code(" ++ (toString c).toList ++ ")"
  | signal s => "Signal(" ++ (toString s).toList ++ ")"
  | unknown => "Unknown"

def PoolState.debug : PoolState → Str
  | stopped => "Stopped"
  | starting attempts pid =>
    "Starting \x7b attempts: " ++ decimal attempts ++ ", pid: " ++
      (match pid with
        | none => "None"
        | some p => "Some(" ++ decimal p.toNat ++ ")" : Str) ++ " \x7d"
  | running pid => "Running \x7b pid: " ++ decimal pid.toNat ++ " \x7d"
  | failed lastExit attempts =>
    "Failed \x7b last_exit: " ++ lastExit.debug ++ ", attempts: " ++ decimal attempts ++ " \x7d"
  | stopping sigkilled =>
    "Stopping \x7b sigkilled: " ++ (if sigkilled then "true" else "false" : Str) ++ " \x7d"

/-! ## The wait before a retry -/

theorem backoffFor_eq_min (attempts : Nat) (policy : SupervisorPolicy) :
    backoffFor attempts policy =
      min (min (policy.backoffInitial * min (2 ^ (max attempts 1 - 1)) u32Max) Duration.max)
        policy.backoffMax := by
  show min (min (policy.backoffInitial * min (if max attempts 1 - 1 < 64
    then 2 ^ (max attempts 1 - 1) else 2 ^ 64 - 1) u32Max) Duration.max) policy.backoffMax = _
  by_cases hn : max attempts 1 - 1 < 64
  · rw [if_pos hn]
  · have hpow : 2 ^ 64 ≤ 2 ^ (max attempts 1 - 1) :=
      Nat.pow_le_pow_right (by decide) (Nat.not_lt.1 hn)
    have hbits : u32Max ≤ 2 ^ 64 - 1 := by decide
    have hclipped : u32Max ≤ 2 ^ (max attempts 1 - 1) := by omega
    rw [if_neg hn, min_eq_right hbits, min_eq_right hclipped]

theorem two_pow_le_u32Max_iff {n : Nat} : 2 ^ n ≤ u32Max ↔ n < 32 := by
  have hmax : u32Max < 2 ^ 32 := by decide
  constructor
  · intro h
    exact (Nat.pow_lt_pow_iff_right (by decide)).1 (h.trans_lt hmax)
  · intro h
    have hle : 2 ^ n ≤ 2 ^ 31 := Nat.pow_le_pow_right (by decide) (by omega)
    exact hle.trans (by decide)

theorem backoffFor_eq {attempts : Nat} {policy : SupervisorPolicy} (hpos : 0 < attempts)
    (hshift : attempts ≤ 32)
    (hfits : policy.backoffInitial * 2 ^ (attempts - 1) ≤ Duration.max) :
    backoffFor attempts policy
      = min (policy.backoffInitial * 2 ^ (attempts - 1)) policy.backoffMax := by
  have hn : max attempts 1 - 1 = attempts - 1 := by omega
  have hfactor : 2 ^ (attempts - 1) ≤ u32Max := two_pow_le_u32Max_iff.2 (by omega)
  rw [backoffFor_eq_min, hn, min_eq_left hfactor, min_eq_left hfits]

/-- The wait never falls as the attempts rise, and never exceeds the limit, which like every
duration is at most `Duration.max`. It is the documented one up to attempt 32; from then on the
factor no longer grows, so only if there is nothing to multiply, or if the limit is reached by
then. -/
theorem backoff_formula_iff (policy : SupervisorPolicy)
    (hmax : policy.backoffMax ≤ Duration.max) :
    Monotone (backoffFor · policy) ∧
      (∀ attempts, backoffFor attempts policy ≤ policy.backoffMax) ∧
      ∀ attempts, backoffFor attempts policy =
          min (policy.backoffInitial * 2 ^ (max attempts 1 - 1)) policy.backoffMax ↔
        attempts ≤ 32 ∨ policy.backoffInitial = 0 ∨
          policy.backoffMax ≤ policy.backoffInitial * u32Max := by
  have hwait (attempts : Nat) : backoffFor attempts policy =
      min (policy.backoffInitial * min (2 ^ (max attempts 1 - 1)) u32Max) policy.backoffMax := by
    rw [backoffFor_eq_min, min_assoc, min_eq_right hmax]
  refine ⟨fun a b hab => ?_, fun attempts => ?_, fun attempts => ?_⟩
  · show backoffFor a policy ≤ backoffFor b policy
    have hpow : 2 ^ (max a 1 - 1) ≤ 2 ^ (max b 1 - 1) :=
      Nat.pow_le_pow_right (by decide) (by omega)
    rw [hwait, hwait]
    exact min_le_min_right _ (Nat.mul_le_mul_left _ (min_le_min_right _ hpow))
  · rw [hwait]
    exact min_le_right _ _
  · rw [hwait]
    by_cases hshift : attempts ≤ 32
    · rw [min_eq_left (two_pow_le_u32Max_iff.2 (by omega))]
      exact iff_of_true rfl (.inl hshift)
    · have hclipped : u32Max < 2 ^ (max attempts 1 - 1) :=
        Nat.not_le.1 fun h => absurd (two_pow_le_u32Max_iff.1 h) (by omega)
      rw [min_eq_right hclipped.le, or_iff_right hshift]
      rcases Nat.eq_zero_or_pos policy.backoffInitial with hzero | hpos
      · simp [hzero]
      · have hmore := Nat.mul_lt_mul_of_pos_left hclipped hpos
        have hlimit (a b c : Nat) (h : a < b) : min a c = min b c ↔ c ≤ a := by omega
        rw [or_iff_right hpos.ne']
        exact hlimit _ _ _ hmore

theorem backoff_formula_tunnel : backoffFor 40 .tunnel = Duration.fromSecs 10 := by
  have hiff := (backoff_formula_iff .tunnel (by decide)).2.2 40
  exact (hiff.2 (.inr (.inr (by decide)))).trans (by decide)

/-- From one nanosecond on, the wait stays at four seconds, where the limit is ten. -/
theorem backoff_below_formula :
    let policy := { SupervisorPolicy.tunnel with backoffInitial := 1 }
    policy.backoffMax ≤ Duration.max ∧ backoffFor 34 policy = 4294967295 ∧
      min (policy.backoffInitial * 2 ^ (max 34 1 - 1)) policy.backoffMax = 8589934592 := by
  decide

/-! ## Scanning the log of `cloudflared`

Readiness is a text in the log: the assigned address of a Quick tunnel, or the line a Named tunnel
writes once it has registered with the edge. -/

def containsStr (s pat : Str) : Bool := (splitOnceStr pat s).isSome

/-- The tokens of a chunk, split at blanks and at what the banner wraps addresses in. -/
def splitTokens (chunk : Str) : List Str :=
  chunk.splitOnP fun c => isWhitespace c || c ∈ ['|', '"', '\'', '*', '+', '<', '>']

/-- The address in a token, without the punctuation after it. -/
def httpsUrlIn (token : Str) : Option Str := do
  let (_, rest) ← splitOnceStr "https://" token
  let url : Str := "https://" ++ rest
  return (url.reverse.dropWhile (· ∈ ['.', ',', ')', ']', '\x7d', ';', ':'])).reverse

/-- `https://<host>` when the token holds a `*.trycloudflare.com` address. -/
def extractTrycloudflare (token : Str) : Option Str := do
  let url ← httpsUrlIn token
  let host ← url.dropPrefix? "https://"
  let host := (splitOnce '/' host).elim host Prod.fst
  if byteLen host > byteLen ".trycloudflare.com" ∧ (host.dropSuffix? ".trycloudflare.com").isSome then
    return "https://" ++ host
  else
    none

/-- The address that `cloudflared` prints. -/
def parseQuickUrl (chunk : Str) : Option Str := (splitTokens chunk).findSome? extractTrycloudflare

/-- Has a named tunnel registered with the edge? -/
def isNamedReady (chunk : Str) : Bool :=
  ["Registered tunnel connection", "Connection registered"].any (containsStr chunk ·)

example : parseQuickUrl "INF |  https://calm-river-1234.trycloudflare.com.  |"
    = some "https://calm-river-1234.trycloudflare.com".toList := by decide +kernel

inductive TunnelKind where
  | quick
  | named
  deriving DecidableEq

inductive TunnelError where
  | spawn (source : Str)
  | io (source : Str)
  | readinessTimedOut (site : Str)
  | permanentFailure (site : Str) (lastExit : ExitReason)
  deriving DecidableEq

/-- What the driver of a tunnel does after a tick. -/
inductive Step where
  | continue
  | sleep (d : Duration)
  | ready
  | gone
  deriving DecidableEq

/-- How long the driver sleeps between two readiness checks. -/
def readinessGap : Duration := Duration.fromMillis 150

structure LaunchSpec where
  binary : Path
  args : List Bytes
  env : List (Bytes × Bytes)
  logfile : Path
  deriving DecidableEq

/-- A handle on a process: its number among all processes started, and the system's id. -/
structure Child where
  number : Nat
  pid : UInt32
  deriving DecidableEq

/-- The state of a site's tunnel, the event of the next tick and the child. -/
structure Instance where
  state : PoolState
  stateSince : Instant
  pending : Event
  kind : TunnelKind
  spec : LaunchSpec
  url : Option Str
  hostname : Option Str
  timedOut : Bool
  child : Option Child
  deriving DecidableEq

/-- An instance that has not been ticked yet. -/
def Instance.fresh (spec : LaunchSpec) (kind : TunnelKind) (hostname : Option Str) (now : Instant) :
    Instance :=
  { state := .stopped, stateSince := now, pending := .ensureRequested, kind, spec,
    url := none, hostname, timedOut := false, child := none }

/-- What happened to the children, in order. -/
abbrev History := List (Happening Str KillSignal)

structure TunnelManager where
  policy : SupervisorPolicy
  instances : StrMap Instance
  spawned : Nat
  history : History

/-- How the wait for a signalled child ends. -/
inductive Reap where
  /-- The wait returns within the grace, or fails. -/
  | inTime (reported : Bool)
  /-- The grace elapses: the child is killed and waited for again. -/
  | forced (reported : Bool)
  deriving DecidableEq

/-- What the outside answers during one call. -/
structure Outside where
  now : Instant
  tryWait : Except Str (Option ExitReason)
  /-- Opening and truncating the log for the command. -/
  openLog : Except Str Unit
  spawn : Except Str UInt32
  /-- What the log holds, when it can be read. -/
  log : Option Bytes
  kill : Except Str Unit
  reap : Reap

namespace TunnelManager

def new : TunnelManager where
  policy := .tunnel
  instances := ∅
  spawned := 0
  history := []

def note (m : TunnelManager) (h : History) : TunnelManager := { m with history := m.history ++ h }

def update (m : TunnelManager) (site : Str) (f : Instance → Instance) : TunnelManager :=
  match m.instances[site]? with
  | none => m
  | some i => { m with instances := m.instances.insert site (f i) }

end TunnelManager

/-- What asking after a child without waiting leaves in the history. -/
def observed (child : Option Child) (tryWait : Except Str (Option ExitReason)) : History :=
  match child, tryWait with
  | some ch, .ok (some _) => [.seenExited ch.number]
  | _, _ => []

/-- The handle of a child goes out of scope. -/
def dropped (child : Option Child) : History := child.toList.map fun ch => .dropped ch.number

/-- Wait for a signalled child, and kill it when the grace elapses. -/
def gracefulReap (ch : Child) : Reap → History
  | .inTime reported => if reported then [.seenExited ch.number] else []
  | .forced reported =>
    .signalled ch.number .kill :: if reported then [.seenExited ch.number] else []

/-- The log as text; one that cannot be read is empty. -/
def readFileLossy (log : Option Bytes) : Str := (log.map lossy).getD []

/-- Is the readiness marker of this kind in the log, and with it the address of a quick tunnel? -/
def readiness (kind : TunnelKind) (text : Str) : Option (Option Str) :=
  match kind with
  | .quick => (parseQuickUrl text).map some
  | .named => if isNamedReady text then some none else none

/-- The error of a tick that finds nothing to do while the tunnel is neither up nor gone. -/
def idleError (state : PoolState) : TunnelError :=
  .spawn ("advance: Action::None in non-terminal state " ++ state.debug)

def failedReason : PoolState → ExitReason
  | .failed lastExit _ => lastExit
  | _ => .unknown

namespace TunnelManager

/-! ## One tick -/

/-- Starts a child in place of the old one. -/
def doSpawn (m : TunnelManager) (site : Str) (out : Outside) :
    Except TunnelError Step × TunnelManager :=
  match m.instances[site]? with
  | none => (.ok .gone, m)
  | some _ =>
    match out.openLog with
    | .error e => (.error (.io e), m)
    | .ok () =>
      match out.spawn with
      | .error e => (.error (.spawn e), m)
      | .ok pid =>
        let ch : Child := ⟨m.spawned, pid⟩
        let m := { m with spawned := m.spawned + 1 }.note [.spawned site ch.number]
        let old := m.instances[site]?.bind Instance.child
        let m := m.update site fun i =>
          { i with timedOut := false, child := some ch, pending := .spawnSucceeded pid }
        -- the handle that stood there is dropped by the assignment
        (.ok .continue, m.note (dropped old))

def setPending (m : TunnelManager) (site : Str) (event : Event) : TunnelManager :=
  m.update site fun i => { i with pending := event }

/-- `Action::HealthCheck`: has the child crashed, and is the marker in the log? -/
def doHealthCheck (m : TunnelManager) (site : Str) (stateSince now : Instant) (out : Outside) :
    Step × TunnelManager :=
  let child := m.instances[site]?.bind Instance.child
  let m := m.note (observed child out.tryWait)
  match child, out.tryWait with
  | some _, .ok (some reason) =>
    let m := m.update site fun i => { i with child := none, pending := .crashed reason }
    (.continue, m.note (dropped child))
  | _, _ =>
    match m.instances[site]? with
    | none => (.gone, m)
    | some i =>
      match readiness i.kind (readFileLossy out.log) with
      | some url =>
        let m := m.update site fun i => { i with url := url <|> i.url }
        (.continue, m.setPending site .healthCheckOk)
      | none =>
        let elapsed := Instant.saturatingDurationSince now stateSince
        (.sleep readinessGap, m.setPending site (.healthCheckTick elapsed))

/-- `Action::Kill`, on a readiness timeout. -/
def doKill (m : TunnelManager) (site : Str) (signal : KillSignal) (out : Outside) :
    Except TunnelError Step × TunnelManager :=
  let child := m.instances[site]?.bind Instance.child
  let m := m.update site fun i => { i with child := none }
  let killed (m : TunnelManager) := m.update site fun i =>
    { i with child := none, timedOut := true, pending := .crashed .unknown }
  match child with
  | none => (.ok .continue, killed m)
  | some ch =>
    let m := m.note [.signalled ch.number signal]
    match out.kill with
    | .error e => (.error (.io e), m.note (dropped child))
    | .ok () => (.ok .continue, (killed (m.note (gracefulReap ch out.reap))).note (dropped child))

/-- One tick. -/
def advance (m : TunnelManager) (site : Str) (out : Outside) :
    Except TunnelError Step × TunnelManager :=
  match m.instances[site]? with
  | none => (.ok .gone, m)
  | some i =>
    let (next, action) := transition i.state i.pending m.policy
    let m := if next ≠ i.state
      then m.update site fun i => { i with state := next, stateSince := out.now } else m
    match action with
    | .none =>
      match next with
      | .running _ => (.ok .ready, m)
      | .stopped => (.ok .gone, m)
      | other => (.error (idleError other), m)
    | .spawn => m.doSpawn site out
    | .healthCheck =>
      let (step, m) := m.doHealthCheck site i.stateSince out.now out
      (.ok step, m)
    | .backoff wait => (.ok (.sleep wait), m.setPending site .backoffElapsed)
    | .kill signal => m.doKill site signal out
    | .emitError .healthCheckTimedOut => (.error (.readinessTimedOut site), m)
    | .emitError .permanentFailure =>
      if i.timedOut then (.error (.readinessTimedOut site), m)
      else (.error (.permanentFailure site (failedReason next)), m)

/-! ## Starting and stopping -/

def inProgress : PoolState → Bool
  | .starting _ _ => true
  | .stopping _ => true
  | _ => false

/-- A child that cannot be asked counts as alive. -/
def seemsAlive (child : Option Child) (tryWait : Except Str (Option ExitReason)) : Bool :=
  match child, tryWait with
  | none, _ => false
  | some _, .ok (some _) => false
  | some _, _ => true

/-- Register a fresh instance over the old one. -/
def register (m : TunnelManager) (site : Str) (spec : LaunchSpec) (kind : TunnelKind)
    (hostname : Option Str) (now : Instant) : TunnelManager :=
  let old := m.instances[site]?.bind Instance.child
  { m with instances := m.instances.insert site (.fresh spec kind hostname now) }.note (dropped old)

/-- Register an instance and take its first tick. -/
def launch (m : TunnelManager) (site : Str) (spec : LaunchSpec) (kind : TunnelKind)
    (hostname : Option Str) (now : Instant) (out : Outside) :
    Except TunnelError Bool × TunnelManager :=
  match (m.register site spec kind hostname now).advance site out with
  | (.ok _, m) => (.ok true, m)
  | (.error e, m) =>
    let left := m.instances[site]?.bind Instance.child
    (.error e, { m with instances := m.instances.erase site }.note (dropped left))

/-- The clock is read, and the child asked, before the first tick: `now` and `tryWait` are those
answers, and `out` what the tick is answered. -/
def begin (m : TunnelManager) (site : Str) (spec : LaunchSpec) (kind : TunnelKind)
    (hostname : Option Str) (tryWait : Except Str (Option ExitReason)) (now : Instant)
    (out : Outside) : Except TunnelError Bool × TunnelManager :=
  match m.instances[site]? with
  | none => m.launch site spec kind hostname now out
  | some i =>
    let m := m.note (observed i.child tryWait)
    if seemsAlive i.child tryWait || inProgress i.state then (.ok false, m)
    else m.launch site spec kind hostname now out

/-- The instance goes, and its child is asked to end. -/
def stop (m : TunnelManager) (site : Str) (out : Outside) :
    Except TunnelError Unit × TunnelManager :=
  match m.instances[site]? with
  | none => (.ok (), m)
  | some i =>
    let m := { m with instances := m.instances.erase site }
    match i.child with
    | none => (.ok (), m)
    | some ch =>
      let m := m.note [.signalled ch.number .term]
      match out.kill with
      | .error e => (.error (.io e), m.note (dropped (some ch)))
      | .ok () => (.ok (), (m.note (gracefulReap ch out.reap)).note (dropped (some ch)))

/-- Stop one site after another, and keep the first error. -/
def stopEach (outs : Str → Outside) :
    List Str → Option TunnelError × TunnelManager → Option TunnelError × TunnelManager
  | [], r => r
  | site :: sites, (firstErr, m) =>
    match m.stop site (outs site) with
    | (.ok (), m) => stopEach outs sites (firstErr, m)
    | (.error e, m) => stopEach outs sites (firstErr <|> some e, m)

/-- Stops all, and reports the first failure. -/
def shutdown (m : TunnelManager) (outs : Str → Outside) : Except TunnelError Unit × TunnelManager :=
  let (firstErr, m) := stopEach outs m.instances.keys (none, m)
  (match firstErr with
    | none => .ok ()
    | some e => .error e, m)

end TunnelManager

/-! ## Snapshots -/

inductive TunnelState where
  | running
  | failed
  deriving DecidableEq

structure TunnelSnapshot where
  site : Str
  kind : TunnelKind
  state : TunnelState
  pid : Option UInt32
  url : Option Str
  hostname : Option Str
  deriving DecidableEq

/-- The view of one instance; here a child that cannot be asked counts as dead. -/
def Instance.snapshot (site : Str) (i : Instance) (tryWait : Except Str (Option ExitReason)) :
    TunnelSnapshot :=
  let alive := i.child.isSome && (match tryWait with
    | .ok none => true
    | _ => false)
  let serving := match i.state with
    | .running _ => true
    | .starting _ _ => true
    | _ => false
  { site, kind := i.kind, state := if alive && serving then .running else .failed,
    pid := if alive then i.child.map Child.pid else none, url := i.url, hostname := i.hostname }

/-- A child that has died is noticed here. -/
def TunnelManager.snapshots (m : TunnelManager) (tryWaits : Str → Except Str (Option ExitReason)) :
    List TunnelSnapshot × TunnelManager :=
  (m.instances.toList.map fun p => p.2.snapshot p.1 (tryWaits p.1),
    m.note (m.instances.toList.flatMap fun p => observed p.2.child (tryWaits p.1)))

/-! ## Calls in any order -/

inductive Call where
  | begin (site : Str) (spec : LaunchSpec) (kind : TunnelKind) (hostname : Option Str)
      (tryWait : Except Str (Option ExitReason)) (now : Instant) (out : Outside)
  | advance (site : Str) (out : Outside)
  | stop (site : Str) (out : Outside)
  | shutdown (outs : Str → Outside)
  | snapshots (tryWaits : Str → Except Str (Option ExitReason))
  /-- Not a call: a child ends by itself. -/
  | exits (child : Nat)

namespace TunnelManager

def call (m : TunnelManager) : Call → TunnelManager
  | .begin site spec kind hostname tryWait now out =>
    (m.begin site spec kind hostname tryWait now out).2
  | .advance site out => (m.advance site out).2
  | .stop site out => (m.stop site out).2
  | .shutdown outs => (m.shutdown outs).2
  | .snapshots tryWaits => (m.snapshots tryWaits).2
  | .exits child => m.note [.exited child]

/-- Any calls, in any order. -/
def run (m : TunnelManager) (calls : List Call) : TunnelManager := calls.foldl call m

end TunnelManager

end Orcker.Tunnel
