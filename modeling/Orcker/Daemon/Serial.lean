import Orcker.Daemon.Commit

/-!
# No lost updates

A section of the config mutex is on record with what was live when it began and when it ended. In
any interleaving of the tasks of `Commit` the sections form one history.
-/

namespace Orcker.Daemon.Commit

open Base Orcker.Core Orcker.Schema

/-- Task `i` is the request, and this is what `handle_mutation` found out of its path before it asked
for the mutex. -/
def Asks (w : Tasks Shared Task) (i : Nat) (req : Mutating) (canonical : Option Path)
    (subpath : Option Str) : Prop :=
  w.task i = .mutation req ∧ ∃ input, beginMutation input req = .mutating req canonical subpath

/-- What task `i` makes of the config it took, by what it says in the end. -/
def Makes (w : Tasks Shared Task) (i : Nat) (taken : Live) (new : Config) : Outcome → Prop
  | .reply .ok => ∃ req input canonical subpath cfg, Asks w i req canonical subpath ∧
      applyMutation input taken req canonical = .ok cfg ∧ new = setLinkSubpath cfg req subpath
  | .linked project .. =>
    new = { taken.config with projects := taken.config.projects ++ [project] }
  | _ => new = taken.config

/-- The section of task `i` makes `new` of what it took: a valid configuration, or the same. -/
def Yields (w : Tasks Shared Task) (i : Nat) (taken : Live) (new : Config) (outcome : Outcome) :
    Prop :=
  Makes w i taken new outcome ∧ (validate new = .ok () ∨ new = taken.config)

/-- The sections, latest first, lead from the state the run began with to `live`. -/
def Serial (w : Tasks Shared Task) : List Ended → Live → Prop
  | [], live => live = w.shared.live
  | e :: earlier, live => e.left = live ∧ Yields w e.task e.taken live.config e.outcome ∧
      Serial w earlier e.taken

/-- How far task `i` has come. -/
def Follows (w : Tasks Shared Task) (s : Shared) (i : Nat) : Task → Prop
  | .mutation req => w.task i = .mutation req
  | .mutating req canonical subpath => Asks w i req canonical subpath
  | .applying taken req canonical subpath =>
    Serial w s.ended taken ∧ Asks w i req canonical subpath
  | .planning taken .. | .scanning taken => Serial w s.ended taken
  | .validating p => Serial w s.ended p.taken ∧ Makes w i p.taken p.new p.outcome
  | .building p | .saving p _ | .storing p _ =>
    Serial w s.ended p.taken ∧ Yields w i p.taken p.new p.outcome
  | .swapping p _ => Serial w s.ended p.taken ∧ Yields w i p.taken s.live.config p.outcome
  | .rerouting taken .. =>
    Serial w s.ended taken ∧ Yields w i taken s.live.config (.reply (.watch none))
  | .leaving taken outcome => Serial w s.ended taken ∧ Yields w i taken s.live.config outcome
  | .answered .ok => ∃ e ∈ s.ended, e.task = i ∧ e.outcome = .reply .ok
  | _ => True

variable {toml : TomlCrate} {boundPorts : List Nat} {w : Tasks Shared Task} {s s' : Shared}
  {i j : Nat} {t t' u : Task} {taken : Live} {input : Input}

theorem follows_acquire {next : Live → Task} (hmove : acquire i s next = some (s', t'))
    (hnext : s.holder = none → Follows w { s with holder := some i } i (next s.live)) :
    (s'.holder = none → Serial w s'.ended s'.live) ∧ Follows w s' i t' := by
  unfold acquire at hmove
  split_ifs at hmove with hfree
  cases hmove
  exact ⟨by rintro ⟨⟩, hnext hfree⟩

theorem follows_orLeave {α : Type} {result : Except Failure α} {next : α → Task}
    (hserial : Serial w s.ended s.live) (hnext : ∀ a, result = .ok a → Follows w s i (next a)) :
    Follows w s i (orLeave s.live result next) := by
  cases result with
  | ok a => exact hnext a rfl
  | error e => exact ⟨hserial, rfl, .inr rfl⟩

theorem makes_linkUnderLock (w : Tasks Shared Task) (i : Nat) {root : Path} {name : Option Str}
    {port : Option UInt16} {existing : Option OrckerYml} {new : Config} {outcome : Outcome}
    (h : linkUnderLock boundPorts input taken root name port existing = .inl (.ok (new, outcome)) ∨
      ∃ reply, linkUnderLock boundPorts input taken root name port existing = .inr reply ∧
        new = taken.config ∧ outcome = .reply reply) : Makes w i taken new outcome := by
  unfold linkUnderLock at h
  grind [Makes]

theorem beginMutation_cases (input : Input) (req : Mutating) :
    (∃ e, beginMutation input req = .answered (.error e)) ∨
      ∃ canonical subpath, beginMutation input req = .mutating req canonical subpath := by
  unfold beginMutation
  split
  · split
    · exact .inl ⟨_, rfl⟩
    · exact .inr ⟨_, _, rfl⟩
  · split
    · exact .inl ⟨_, rfl⟩
    · exact .inr ⟨_, _, rfl⟩
  · exact .inr ⟨_, _, rfl⟩

theorem follows_move (hmove : move toml boundPorts i input s t = some (s', t'))
    (ht : TaskOk toml s i t) (hfree : s.holder = none → Serial w s.ended s.live)
    (h : Follows w s i t) :
    (s'.holder = none → Serial w s'.ended s'.live) ∧ Follows w s' i t' := by
  have hheld (hin : t.inSection = true) (hsame : s'.holder = s.holder) :
      s'.holder = none → Serial w s'.ended s'.live := by
    rw [hsame, ht.holds hin]
    rintro ⟨⟩
  cases t with
  | mutation req =>
    cases hmove
    refine ⟨hfree, ?_⟩
    rcases beginMutation_cases input req with ⟨e, hbegin⟩ | ⟨canonical, subpath, hbegin⟩
    · rw [hbegin]
      trivial
    · rw [hbegin]
      exact ⟨h, input, hbegin⟩
  | linkProject path name port =>
    cases hmove
    refine ⟨hfree, ?_⟩
    unfold beginLink
    split
    · trivial
    · dsimp only
      split <;> trivial
  | mutating req canonical subpath =>
    rw [move] at hmove
    exact follows_acquire hmove fun hnone => ⟨hfree hnone, h⟩
  | linking | recompute =>
    rw [move] at hmove
    exact follows_acquire hmove hfree
  | applying taken req canonical subpath =>
    cases hmove
    -- The request is applied to what is live, which is still what was taken.
    obtain ⟨-, rfl⟩ := ht.inside
    refine ⟨hfree, follows_orLeave h.1 fun cfg hcfg => ⟨h.1, ?_⟩⟩
    exact ⟨req, input, canonical, subpath, cfg, h.2, hcfg, rfl⟩
  | planning taken root name port existing =>
    obtain ⟨-, rfl⟩ := ht.inside
    simp only [move] at hmove
    split at hmove
    · next result hresult =>
      cases hmove
      refine ⟨hfree, follows_orLeave h ?_⟩
      rintro ⟨new, outcome⟩ rfl
      exact ⟨h, makes_linkUnderLock w i (.inl hresult)⟩
    · next reply hreply =>
      cases hmove
      exact ⟨hfree, h, makes_linkUnderLock w i (.inr ⟨_, hreply, rfl, rfl⟩), .inr rfl⟩
  | validating p =>
    cases hmove
    obtain ⟨-, htaken, -⟩ := ht.inside
    rw [htaken]
    refine ⟨hfree, follows_orLeave (htaken ▸ h.1) fun _ hvalid => ?_⟩
    exact ⟨h.1, h.2, .inl (mapError_eq_ok_iff.1 hvalid)⟩
  | building p =>
    cases hmove
    obtain ⟨-, htaken, -⟩ := ht.inside
    rw [htaken]
    exact ⟨hfree, follows_orLeave (htaken ▸ h.1) fun _ _ => h⟩
  | saving p candidate =>
    simp only [move] at hmove
    split at hmove <;> cases hmove
    · -- A save that fails leaves the config that was taken.
      have hsame := congrArg Live.config ht.inside.1.2.1.symm
      exact ⟨hfree, h.1, hsame, .inr hsame⟩
    · exact ⟨hheld rfl rfl, h⟩
  | storing | swapping | rerouting =>
    cases hmove
    exact ⟨hheld rfl rfl, h⟩
  | scanning taken =>
    obtain ⟨-, rfl⟩ := ht.inside
    simp only [move] at hmove
    split at hmove <;> cases hmove <;> exact ⟨hfree, h, rfl, .inr rfl⟩
  | leaving taken outcome =>
    cases hmove
    refine ⟨fun _ => ⟨rfl, h.2, h.1⟩, ?_⟩
    rcases outcome with (_ | _) | _ <;>
      first | trivial | exact ⟨_, List.mem_cons_self .., rfl, rfl⟩
  | naming =>
    cases hmove
    exact ⟨hfree, trivial⟩
  | answered => cases hmove

/-- The record only grows, and outside the section nothing changes while the mutex is held. -/
theorem move_frame (hmove : move toml boundPorts i input s t = some (s', t')) :
    s.ended ⊆ s'.ended ∧ (t.inSection = false → s.holder = some j → s' = s) := by
  cases t <;> grind [move, acquire, Task.inSection]

theorem follows_other (hmove : move toml boundPorts i input s t = some (s', t'))
    (ht : TaskOk toml s i t) (hj : j ≠ i) (hu : TaskOk toml s j u) (h : Follows w s j u) :
    Follows w s' j u := by
  obtain ⟨hended, hframe⟩ := move_frame hmove
  cases hin : u.inSection with
  | false =>
    unfold Follows at h ⊢
    grind [Task.inSection]
  | true =>
    have hheld := hu.holds hin
    have hout : t.inSection = false := by
      rw [← Bool.not_eq_true]
      intro hin'
      have := ht.holds hin'
      rw [hheld] at this
      exact hj (Option.some.inj this)
    exact hframe hout hheld ▸ h

theorem follows_run {turns : List (Nat × Input)} {w' : Tasks Shared Task} (hstart : Starts w)
    (hrun : w.run (move toml boundPorts) turns = some w') :
    w'.Local (fun s => SharedOk toml s ∧ (s.holder = none → Serial w s.ended s.live))
      (fun s i t => TaskOk toml s i t ∧ Follows w s i t) := by
  refine Tasks.run_local (fun i input s t s' t' hmove hs ht => ?_) ?_ hrun
  · obtain ⟨hshared, htask, hothers⟩ := move_ok i input s t s' t' hmove hs.1 ht.1
    obtain ⟨hserial, hfollows⟩ := follows_move hmove ht.1 hs.2 ht.2
    exact ⟨⟨hshared, hserial⟩, ⟨htask, hfollows⟩, fun j u hj hu =>
      ⟨hothers j u hj hu.1, follows_other hmove ht.1 hj hu.1 hu.2⟩⟩
  · obtain ⟨hshared, htasks⟩ := hstart.local toml
    refine ⟨⟨hshared, fun _ => ?_⟩, fun i => ⟨htasks i, ?_⟩⟩
    · rw [hstart.ended]
      rfl
    · have hbegins := hstart.tasks i
      generalize ht : w.task i = t at hbegins
      cases t <;> first | exact ht | trivial

/-- In every interleaving of `handle_mutation`, project links and watcher rebuilds, with every
failure they can meet, the sections of the mutex form one history: each begins with what the one
before it left, down to the state the run began with, and once the mutex is free the latest left
what is live. A section answered with success leaves its own request applied to the config it found,
or that config with the new project behind the others; any other leaves the config as it found it.
No mutation is answered with success unless its section is in the history. Handlers that save
without a rebuild (groups, settings) are not among the tasks. -/
theorem sections_serial {turns : List (Nat × Input)} {w' : Tasks Shared Task} (hstart : Starts w)
    (hrun : w.run (move toml boundPorts) turns = some w') :
    (w'.shared.holder = none → Serial w w'.shared.ended w'.shared.live) ∧
      ∀ i, w'.task i = .answered .ok →
        ∃ e ∈ w'.shared.ended, e.task = i ∧ e.outcome = .reply .ok := by
  obtain ⟨⟨-, hserial⟩, htasks⟩ := follows_run hstart hrun
  refine ⟨hserial, fun i hi => ?_⟩
  have hfollows := (htasks i).2
  rwa [hi] at hfollows

theorem starts_parkAndUnlink : Starts parkAndUnlink := by
  refine ⟨rfl, rfl, ⟨blogWorld, [], [], rfl, rfl⟩, rfl, fun i => ?_⟩
  show Task.begins (if i = 0 then _ else if i = 1 then _ else _) = true
  split_ifs <;> rfl

theorem sections_serial_park : ∃ w', parkAndUnlink.run (move twoTexts [80]) parkTurns = some w' ∧
    w'.shared.ended.length = 3 ∧ Serial parkAndUnlink w'.shared.ended w'.shared.live := by
  have hends : ((parkAndUnlink.run (move twoTexts [80]) parkTurns).any fun w' =>
      w'.shared.ended.length == 3 && w'.shared.holder.isNone) = true := by decide +kernel
  obtain ⟨w', hrun, hend⟩ := (Option.any_eq_true _ _).1 hends
  simp only [Bool.and_eq_true, beq_iff_eq, Option.isNone_iff_eq_none] at hend
  exact ⟨w', hrun, hend.1, (sections_serial starts_parkAndUnlink hrun).1 hend.2⟩

end Orcker.Daemon.Commit
