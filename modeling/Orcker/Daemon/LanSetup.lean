import Orcker.Base.Numeral
import Orcker.Base.Locks

/-!
# The remote-setup code

Minting and switching LAN mode hold the config mutex from their check to the end, and inside it the
mutex of the code slot; a request takes the slot's mutex alone.
-/

namespace Orcker.Daemon.Lan

open Base List Option

/-- Nanoseconds of the monotonic clock. -/
abbrev Instant := Nat

/-- Minted over IPC, it opens the installer script once. -/
structure RemoteSetupCode where
  value : Str
  expiresAt : Instant
  used : Bool
  deriving DecidableEq

structure HttpRequest where
  isGet : Bool
  path : Str
  query : Option Str
  deriving DecidableEq

/-- The script, or a refusal. -/
inductive Decision where
  | script
  | text (status : Nat) (message : Str)
  deriving DecidableEq

inductive Reply where
  | ok
  | internal (message : Str)
  | lanNotReady (message : Str)
  | remoteSetup (code url scriptSha256 : Str) (expiresInSecs : Nat)
  deriving DecidableEq

/-! ## The endpoint's pure helpers -/

inductive SetupRoute where
  | script
  | notFound
  deriving DecidableEq

/-- The one path that is served. -/
def classify (path : Str) : SetupRoute :=
  if path = "/remote-setup" then .script else .notFound

/-- The first `code` parameter that is not empty. -/
def extractCode (query : Option Str) : Option Str :=
  query.bind fun q => (q.splitOn '&').findSome? fun pair =>
    (pair.dropPrefix? "code=").filter (· ≠ [])

/-- The source compares in constant time. -/
def ctEq (a b : Str) : Bool :=
  if (utf8 a).length ≠ (utf8 b).length then false else utf8 a == utf8 b

theorem ctEq_iff {a b : Str} : ctEq a b = true ↔ a = b := by
  unfold ctEq
  constructor
  · intro h
    split_ifs at h
    exact utf8_injective (beq_iff_eq.1 h)
  · rintro rfl
    simp

/-- The code a request hands to `consumeCode`, when it gets that far. -/
def HttpRequest.setupCode (req : HttpRequest) : Option Str :=
  if req.isGet = true ∧ classify req.path = .script then extractCode req.query else none

/-! ## What the handlers share -/

/-- What happened to codes: mints, completed switch-offs and opened scripts. -/
inductive Entry where
  | minted (code : Str) (expiresAt : Instant)
  | disabled
  | script (task : Nat) (req : HttpRequest) (arrived : Instant)
  deriving DecidableEq

/-- The config mutex, the code slot, and the record of what happened. -/
structure Shared where
  configHolder : Option Nat
  lanEnabled : Bool
  lanSetupPort : Nat
  lanSetupBound : Bool
  lanIp : Option Str
  scriptSha256 : Option Str
  code : Option RemoteSetupCode
  /-- Newest first. -/
  log : List Entry
  deriving DecidableEq

/-- One call of a handler. -/
inductive Task where
  | mint
  | publish (code : Str) (expiresAt : Instant) (url scriptSha256 : Str)
  | setLan (enabled : Bool)
  | revoke
  | revoked
  | leaving (reply : Reply)
  | answered (reply : Reply)
  | request (req : HttpRequest)
  | consume (req : HttpRequest) (code : Str) (now : Instant)
  | decided (decision : Decision)
  deriving DecidableEq

/-- What a move learns: the clock, fresh random bytes, and how saving the config ended. -/
structure Input where
  now : Instant
  random : Bytes
  save : Except Str Unit

def remoteSetupCodeTtlSecs : Nat := 900

/-- `mint_remote_setup_code` up to the point where it waits for the slot, the config mutex held. -/
def beginMint (i : Nat) (input : Input) (s : Shared) : Shared × Task :=
  if !s.lanEnabled then
    (s, .answered (.lanNotReady "LAN mode is off - run `orcker lan enable` first"))
  else if !s.lanSetupBound then
    (s, .answered (.lanNotReady
      "the remote-setup listener isn't bound (restart the daemon after enabling LAN)"))
  else
    match s.lanIp with
    | none => (s, .answered (.lanNotReady "the LAN IP isn't known (restart the daemon)"))
    | some lanIp =>
      match s.scriptSha256 with
      | none => (s, .answered (.lanNotReady
          "the installer hash isn't ready (restart the daemon after enabling LAN)"))
      | some sha =>
        let code := hexEncode input.random
        let url := "http://" ++ lanIp ++ ":" ++ decimal s.lanSetupPort ++
          "/remote-setup?code=" ++ code
        -- the expiry is computed before the slot's mutex is waited for
        ({ s with configHolder := some i },
          .publish code (input.now + remoteSetupCodeTtlSecs * 1000000000) url sha)

/-- `set_lan_enabled` up to the revocation, the config mutex held. -/
def beginSetLan (i : Nat) (input : Input) (enabled : Bool) (s : Shared) : Shared × Task :=
  match input.save with
  | .error e => (s, .answered (.internal ("config save failed: " ++ e)))
  | .ok () => ({ s with lanEnabled := enabled, configHolder := some i },
      if enabled then .leaving .ok else .revoke)

/-- `decide`, up to the point where it waits for the slot. -/
def beginRequest (input : Input) (req : HttpRequest) : Task :=
  if !req.isGet then .decided (.text 405 "GET only")
  else
    match classify req.path with
    | .notFound => .decided (.text 404 "not found")
    | .script =>
      match extractCode req.query with
      | none => .decided (.text 403 "missing code")
      | some code => .consume req code input.now

/-- Whether the code in the slot may be consumed with the candidate. -/
def RemoteSetupCode.accepts (c : RemoteSetupCode) (candidate : Str) (now : Instant) : Bool :=
  !(c.used || c.expiresAt ≤ now || !ctEq c.value candidate)

/-- `consume_code`, once it has the slot's mutex, and the decision that follows. -/
def consumeCode (i : Nat) (req : HttpRequest) (candidate : Str) (now : Instant) (s : Shared) :
    Shared × Task :=
  match s.code with
  | none => (s, .decided (.text 403 "invalid code"))
  | some c =>
    if c.accepts candidate now then
      ({ s with code := some { c with used := true }, log := .script i req now :: s.log },
        .decided .script)
    else (s, .decided (.text 403 "invalid code"))

/-- What a task does between two lock operations. -/
def move (i : Nat) (input : Input) (s : Shared) : Task → Option (Shared × Task)
  | .mint => if s.configHolder = none then some (beginMint i input s) else none
  | .publish code expiresAt url sha =>
    some ({ s with code := some ⟨code, expiresAt, false⟩, log := .minted code expiresAt :: s.log },
      .leaving (.remoteSetup code url sha remoteSetupCodeTtlSecs))
  | .setLan enabled =>
    if s.configHolder = none then some (beginSetLan i input enabled s) else none
  | .revoke => some ({ s with code := none }, .revoked)
  | .revoked => some ({ s with configHolder := none, log := .disabled :: s.log }, .answered .ok)
  | .leaving reply => some ({ s with configHolder := none }, .answered reply)
  | .request req => some (s, beginRequest input req)
  | .consume req code now => some (consumeCode i req code now s)
  | .answered _ | .decided _ => none

/-! ## Who holds the config mutex -/

/-- The handler is inside its section of the config mutex. -/
def Task.holds : Task → Bool
  | .publish .. | .revoke | .revoked | .leaving _ => true
  | _ => false

/-- A task in its section holds the mutex; past its revocation the slot is empty; a candidate
is the request's own; an opened script is on record. -/
structure TaskOk (s : Shared) (i : Nat) (t : Task) : Prop where
  holds : t.holds = true → s.configHolder = some i
  revoked : t = .revoked → s.code = none
  carried : ∀ req code now, t = .consume req code now → req.setupCode = some code
  script : t = .decided .script → ∃ req arrived, Entry.script i req arrived ∈ s.log

theorem TaskOk.answered (s : Shared) (i : Nat) (reply : Reply) : TaskOk s i (.answered reply) := by
  constructor <;> simp [Task.holds]

theorem TaskOk.refused (s : Shared) (i status : Nat) (message : Str) :
    TaskOk s i (.decided (.text status message)) := by
  constructor <;> simp [Task.holds]

variable {s s' : Shared} {t : Task} {i : Nat}

theorem TaskOk.of_held {j : Nat} (h : TaskOk s j t) (hj : j ≠ i)
    (hheld : s.configHolder = none ∨ s.configHolder = some i) (hlog : s.log ⊆ s'.log) :
    TaskOk s' j t := by
  have hfree := Tasks.eq_false_of_held h.holds hj hheld
  refine ⟨fun hholds => ?_, ?_, h.carried, fun ht => ?_⟩
  · rw [hfree] at hholds
    cases hholds
  · rintro rfl
    cases hfree
  · obtain ⟨req, arrived, hmem⟩ := h.script ht
    exact ⟨req, arrived, hlog hmem⟩

/-! ## What the record says -/

/-- Newest first, a script stands on the mint of the code it was opened with, in time. -/
inductive History : List Entry → Prop where
  | nil : History []
  | minted {l : List Entry} (code : Str) (expiresAt : Instant) (h : History l) :
      History (.minted code expiresAt :: l)
  | disabled {l : List Entry} (h : History l) : History (.disabled :: l)
  | script {l : List Entry} {req : HttpRequest} {code : Str} {arrived expiresAt : Instant}
      (task : Nat) (hcode : req.setupCode = some code) (hin : arrived < expiresAt) (h : History l) :
      History (.script task req arrived :: .minted code expiresAt :: l)

def Entry.code? : Entry → Option Str
  | .minted code _ => some code
  | _ => none

def mintedCodes (log : List Entry) : List Str := log.filterMap Entry.code?

/-- A script was opened with the code. -/
def Entry.opens (code : Str) : Entry → Bool
  | .script _ req _ => req.setupCode == some code
  | _ => false

theorem History.countP_opens_le {log : List Entry} (h : History log) (code : Str) :
    log.countP (Entry.opens code) ≤ (mintedCodes log).count code := by
  induction h with
  | nil => simp
  | @minted l c e h ih =>
    have : mintedCodes (.minted c e :: l) = c :: mintedCodes l := rfl
    rw [this, countP_cons_of_neg (by simp [Entry.opens])]
    exact ih.trans count_le_count_cons
  | disabled h ih =>
    rw [countP_cons_of_neg (by simp [Entry.opens])]
    exact ih
  | @script l req c arrived e task hcode hin h ih =>
    have : mintedCodes (.script task req arrived :: .minted c e :: l) = c :: mintedCodes l := rfl
    rw [this, countP_cons, countP_cons, count_cons]
    simp only [Entry.opens, hcode, some_beq_some, Bool.false_eq_true, if_false]
    omega

variable {req : HttpRequest}

theorem History.of_append {newer older : List Entry} {task : Nat} {arrived : Instant}
    (h : History (newer ++ .script task req arrived :: older)) :
    ∃ code expiresAt before, older = .minted code expiresAt :: before ∧
      req.setupCode = some code ∧ arrived < expiresAt := by
  generalize hlog : newer ++ .script task req arrived :: older = log at h
  induction h generalizing newer with
  | nil => simp at hlog
  | minted _ _ _ ih | disabled _ ih =>
    cases newer with
    | nil => cases hlog
    | cons x newer => exact ih (cons.inj hlog).2
  | script t hcode hin h ih =>
    cases newer with
    | nil =>
      cases hlog
      exact ⟨_, _, _, rfl, hcode, hin⟩
    | cons x newer =>
      cases newer with
      | nil => cases (cons.inj hlog).2
      | cons y newer => exact ih (cons.inj (cons.inj hlog).2).2

/-- The slot and the record belong together: an unused code is the newest entry. -/
structure SlotOk (s : Shared) : Prop where
  history : History s.log
  fresh : ∀ c, s.code = some c → c.used = false →
    s.log.head? = some (.minted c.value c.expiresAt)

theorem SlotOk.of_eq (h : SlotOk s) (hcode : s'.code = s.code) (hlog : s'.log = s.log) :
    SlotOk s' := by
  refine ⟨hlog ▸ h.history, fun c hc hused => ?_⟩
  rw [hlog]
  exact h.fresh c (hcode ▸ hc) hused

/-! ## Moves keep it -/

theorem beginMint_cases (i : Nat) (input : Input) (s : Shared) :
    (∃ message, beginMint i input s = (s, .answered (.lanNotReady message))) ∨
      ∃ code expiresAt url sha, beginMint i input s =
        ({ s with configHolder := some i }, .publish code expiresAt url sha) := by
  unfold beginMint
  split_ifs
  · exact .inl ⟨_, rfl⟩
  · exact .inl ⟨_, rfl⟩
  · split
    · exact .inl ⟨_, rfl⟩
    · split
      · exact .inl ⟨_, rfl⟩
      · exact .inr ⟨_, _, _, _, rfl⟩

theorem beginRequest_cases (input : Input) (req : HttpRequest) :
    (∃ status message, beginRequest input req = .decided (.text status message)) ∨
      ∃ code, beginRequest input req = .consume req code input.now ∧ req.setupCode = some code := by
  unfold beginRequest HttpRequest.setupCode
  cases hget : req.isGet with
  | false => exact .inl ⟨_, _, rfl⟩
  | true =>
    cases hroute : classify req.path with
    | notFound => exact .inl ⟨_, _, rfl⟩
    | script =>
      cases hcode : extractCode req.query with
      | none => exact .inl ⟨_, _, rfl⟩
      | some code => exact .inr ⟨code, rfl, by simp⟩

variable {candidate : Str} {now : Instant}

theorem RemoteSetupCode.accepts_iff {c : RemoteSetupCode} :
    c.accepts candidate now = true ↔
      c.used = false ∧ now < c.expiresAt ∧ c.value = candidate := by
  simp only [accepts, Bool.not_eq_true', Bool.or_eq_false_iff, decide_eq_false_iff_not, not_le,
    Bool.not_eq_false', ctEq_iff, and_assoc]

theorem consumeCode_ok {t' : Task} (hr : consumeCode i req candidate now s = (s', t'))
    (hs : SlotOk s) (ht : TaskOk s i (.consume req candidate now)) :
    Tasks.Keeps SlotOk TaskOk s s' i t' := by
  unfold consumeCode at hr
  split at hr
  · cases hr
    exact ⟨hs, .refused .., fun _ _ _ h => h⟩
  · next c hc =>
    by_cases haccepts : c.accepts candidate now = true
    · rw [if_pos haccepts] at hr
      cases hr
      obtain ⟨hused, hin, hvalue⟩ := RemoteSetupCode.accepts_iff.1 haccepts
      -- the code is unused, so the newest entry is its mint
      obtain ⟨l, hlog⟩ := head?_eq_some_iff.1 (hs.fresh c hc hused)
      have hl : History l := by
        have := hs.history
        rw [hlog] at this
        cases this with
        | minted _ _ h => exact h
      refine ⟨⟨?_, ?_⟩, ⟨nofun, nofun, nofun, fun _ => ⟨req, now, mem_cons_self ..⟩⟩, ?_⟩
      · show History (.script i req now :: s.log)
        rw [hlog]
        exact .script i (hvalue ▸ ht.carried _ _ _ rfl) hin hl
      · rintro c' hc' hused'
        obtain rfl := some.inj hc'
        cases hused'
      · intro j u _ hu
        refine ⟨hu.holds, fun h => ?_, hu.carried, fun h => ?_⟩
        · cases hc.symm.trans (hu.revoked h)
        · obtain ⟨req, arrived, hmem⟩ := hu.script h
          exact ⟨req, arrived, mem_cons_of_mem _ hmem⟩
    · rw [if_neg haccepts] at hr
      cases hr
      exact ⟨hs, .refused .., fun _ _ _ h => h⟩

theorem move_ok (i : Nat) (input : Input) (s : Shared) (t : Task) (s' : Shared) (t' : Task)
    (hmove : move i input s t = some (s', t')) (hs : SlotOk s) (ht : TaskOk s i t) :
    Tasks.Keeps SlotOk TaskOk s s' i t' := by
  cases t with
  | mint =>
    simp only [move] at hmove
    split_ifs at hmove with hfree
    rcases beginMint_cases i input s with ⟨m, hm⟩ | ⟨code, expiresAt, url, sha, hm⟩
    · rw [hm] at hmove
      cases hmove
      exact ⟨hs, .answered .., fun _ _ _ h => h⟩
    · rw [hm] at hmove
      cases hmove
      exact ⟨hs.of_eq rfl rfl, ⟨fun _ => rfl, nofun, nofun, nofun⟩,
        fun j u hj hu => hu.of_held hj (.inl hfree) (List.Subset.refl _)⟩
  | publish code expiresAt url sha =>
    cases hmove
    have hheld := ht.holds rfl
    refine ⟨⟨.minted _ _ hs.history, ?_⟩,
      ⟨fun _ => hheld, nofun, nofun, nofun⟩,
      fun j u hj hu => hu.of_held hj (.inr hheld) (subset_cons_self ..)⟩
    rintro c hc -
    obtain rfl := some.inj hc
    rfl
  | setLan enabled =>
    simp only [move] at hmove
    split_ifs at hmove with hfree
    unfold beginSetLan at hmove
    split at hmove
    · cases hmove
      exact ⟨hs, .answered .., fun _ _ _ h => h⟩
    · cases hmove
      refine ⟨hs.of_eq rfl rfl, ?_,
        fun j u hj hu => hu.of_held hj (.inl hfree) (List.Subset.refl _)⟩
      cases enabled <;>
        exact ⟨fun _ => rfl, nofun, nofun, nofun⟩
  | revoke =>
    cases hmove
    have hheld := ht.holds rfl
    exact ⟨⟨hs.history, nofun⟩, ⟨fun _ => hheld, fun _ => rfl, nofun, nofun⟩,
      fun j u hj hu => hu.of_held hj (.inr hheld) (List.Subset.refl _)⟩
  | revoked =>
    cases hmove
    refine ⟨⟨.disabled hs.history, ?_⟩, .answered ..,
      fun j u hj hu => hu.of_held hj (.inr (ht.holds rfl)) (subset_cons_self ..)⟩
    -- the slot was emptied inside the section, and only a holder of the mutex fills it
    intro c hc
    have := ht.revoked rfl
    rw [this] at hc
    cases hc
  | leaving reply =>
    cases hmove
    exact ⟨hs.of_eq rfl rfl, .answered ..,
      fun j u hj hu => hu.of_held hj (.inr (ht.holds rfl)) (List.Subset.refl _)⟩
  | request req =>
    cases hmove
    refine ⟨hs, ?_, fun _ _ _ h => h⟩
    rcases beginRequest_cases input req with ⟨status, m, hr⟩ | ⟨code, hr, hcode⟩
    · rw [hr]
      exact .refused ..
    · rw [hr]
      refine ⟨nofun, nofun, ?_, nofun⟩
      rintro _ _ _ ⟨⟩
      exact hcode
  | consume req code now =>
    simp only [move, some.injEq] at hmove
    exact consumeCode_ok hmove hs ht
  | answered | decided => cases hmove

/-! ## Requests that are none of the code's business -/

/-- A request, at any point, that does not carry the code in the slot. -/
def Task.Other (slot : Option RemoteSetupCode) : Task → Prop
  | .request req => ∀ c, slot = some c → req.setupCode ≠ some c.value
  | .consume _ code _ => ∀ c, slot = some c → code ≠ c.value
  | .decided _ => True
  | _ => False

theorem move_other {input : Input} {t' : Task} (hmove : move i input s t = some (s', t'))
    (ht : t.Other s.code) : s'.code = s.code ∧ t'.Other s.code := by
  cases t with
  | request req =>
    cases hmove
    refine ⟨rfl, ?_⟩
    rcases beginRequest_cases input req with ⟨status, m, hr⟩ | ⟨code, hr, hcode⟩
    · rw [hr]
      trivial
    · rw [hr]
      intro c hc heq
      exact ht c hc (heq ▸ hcode)
  | consume req code now =>
    simp only [move, some.injEq] at hmove
    unfold consumeCode at hmove
    split at hmove
    · cases hmove
      exact ⟨rfl, trivial⟩
    · next c hc =>
      split_ifs at hmove with haccepts
      · exact absurd (RemoteSetupCode.accepts_iff.1 haccepts).2.2.symm (ht c hc)
      · cases hmove
        exact ⟨rfl, trivial⟩
  | decided d => cases hmove
  | mint | publish | setLan | revoke | revoked | leaving | answered => cases ht

theorem run_other {w w' : Tasks Shared Task} {turns : List (Nat × Input)}
    (hother : ∀ turn ∈ turns, (w.task turn.1).Other w.shared.code)
    (hrun : w.run move turns = some w') : w'.shared.code = w.shared.code := by
  induction turns generalizing w with
  | nil =>
    cases hrun
    rfl
  | cons turn turns ih =>
    obtain ⟨next, hnext, hrest⟩ := bind_eq_some_iff.1 hrun
    obtain ⟨s, t, hmove, rfl⟩ := Tasks.step_eq_some_iff.1 hnext
    obtain ⟨hcode, ht⟩ := move_other hmove (hother turn (mem_cons_self ..))
    rw [← hcode]
    refine ih (fun turn' hmem => ?_) hrest
    show Task.Other s.code (Function.update w.task turn.1 t turn'.1)
    rw [hcode]
    by_cases hsame : turn'.1 = turn.1
    · rw [hsame, Function.update_self]
      exact ht
    · rw [Function.update_of_ne hsame]
      exact hother turn' (mem_cons_of_mem _ hmem)

/-! ## Whole runs -/

def Task.begins : Task → Bool
  | .mint | .setLan _ | .request _ => true
  | _ => false

theorem TaskOk.of_begins (h : t.begins = true) : TaskOk s i t := by
  refine ⟨fun hholds => ?_, ?_, ?_, ?_⟩
  · cases t <;> first | cases hholds; done | cases h
  · rintro rfl
    cases h
  · rintro _ _ _ rfl
    cases h
  · rintro rfl
    cases h

/-- No code yet, nothing on record, and every task still to begin. -/
structure Starts (w : Tasks Shared Task) : Prop where
  free : w.shared.configHolder = none
  code : w.shared.code = none
  log : w.shared.log = []
  tasks : ∀ i, (w.task i).begins = true

theorem Starts.local {w : Tasks Shared Task} (h : Starts w) : w.Local SlotOk TaskOk := by
  refine ⟨⟨h.log ▸ .nil, ?_⟩, fun i => ?_⟩
  · intro c hc
    rw [h.code] at hc
    cases hc
  · exact .of_begins (h.tasks i)

/-- In every interleaving of mints, switches of LAN mode and requests that mints no code twice: an
opened script stands right behind the mint of the code its request carried, in time, so that
neither another mint nor a completed switch-off lies between them; no code opens two scripts;
every task that was given the script is on record; and from there on, requests that do not carry
the live code leave it as it is. -/
theorem code_opens_once {w w' : Tasks Shared Task} {turns : List (Nat × Input)} (hstart : Starts w)
    (hrun : w.run move turns = some w') (hdistinct : (mintedCodes w'.shared.log).Nodup) :
    (∀ newer task req arrived older,
      w'.shared.log = newer ++ .script task req arrived :: older →
      ∃ code expiresAt before, older = .minted code expiresAt :: before ∧
        req.setupCode = some code ∧ arrived < expiresAt) ∧
    (∀ code, w'.shared.log.countP (Entry.opens code) ≤ 1) ∧
    (∀ i, w'.task i = .decided .script →
      ∃ req arrived, Entry.script i req arrived ∈ w'.shared.log) ∧
    ∀ more w'', w'.run move more = some w'' →
      (∀ turn ∈ more, (w'.task turn.1).Other w'.shared.code) →
      w''.shared.code = w'.shared.code := by
  obtain ⟨hslot, htasks⟩ := Tasks.run_local move_ok hstart.local hrun
  refine ⟨?_, ?_, fun i => (htasks i).script, fun more w'' hmore hother => run_other hother hmore⟩
  · intro newer task req arrived older hlog
    have hhistory := hslot.history
    rw [hlog] at hhistory
    exact hhistory.of_append
  · intro code
    exact (hslot.history.countP_opens_le code).trans (nodup_iff_count_le_one.1 hdistinct code)

/-- One mint, and every other task a request with the code `2a`. -/
def oneMint : Tasks Shared Task where
  shared := ⟨none, true, 8443, true, some "192.168.1.7", some "sha", none, []⟩
  task i := if i = 0 then .mint else .request ⟨true, "/remote-setup", some "code=2a"⟩

def twoRequests : List (Nat × Input) := [0, 0, 0, 1, 2, 1, 2].map fun i => (i, ⟨0, [0x2a], .ok ()⟩)

theorem code_opens_once_two_requests :
    ∃ w', oneMint.run move twoRequests = some w' ∧
      w'.task 1 = .decided .script ∧ w'.task 2 = .decided (.text 403 "invalid code") ∧
      ∀ code, w'.shared.log.countP (Entry.opens code) ≤ 1 := by
  have hstart : Starts oneMint := by
    refine ⟨rfl, rfl, rfl, fun i => ?_⟩
    show Task.begins (if i = 0 then _ else _) = true
    split_ifs <;> rfl
  refine ⟨_, rfl, rfl, rfl, ?_⟩
  exact (code_opens_once hstart (show oneMint.run move twoRequests = some _ from rfl)
    (by decide)).2.1

end Orcker.Daemon.Lan
