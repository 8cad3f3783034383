import Orcker.Tunnel.Ticks

/-!
# At most one child for each site

Every call keeps `Sound`, in whatever order drivers and stops come, and no call but a `begin` that
starts a tunnel adds to the children a site may still get.
-/

namespace Orcker.Tunnel

open Base Option Instance Happening TunnelManager

/-! ## One tick -/

theorem Stage.attempts {limit a : Nat} {p : Option UInt32} {e : Event} {c : Option Child}
    (h : Stage limit (.starting a p) e c) : 0 < a ∧ a ≤ limit := by
  cases h <;> exact ⟨‹_›, ‹_›⟩

theorem Stage.failed {limit a : Nat} {r : ExitReason} {e : Event} {c : Option Child}
    (h : Stage limit (.failed r a) e c) : 0 < a ∧ a ≤ limit ∧ c = none := by
  cases h
  exact ⟨‹_›, ‹_›, rfl⟩

/-- How the instance stands, as its policy limits it. -/
def Instance.Staged (policy : SupervisorPolicy) (i : Instance) : Prop :=
  Stage policy.maxRestartAttempts i.state i.pending i.child

/-- How many children may still be started for the instance. -/
def Instance.remaining (policy : SupervisorPolicy) (i : Instance) : Nat :=
  match i.state with
  | .stopped => policy.maxRestartAttempts
  | .starting a _ => policy.maxRestartAttempts - a
  | .failed _ a => policy.maxRestartAttempts - a
  | .running _ => 0
  | .stopping _ => 0

section

variable {policy : SupervisorPolicy} {site : Str} {number : Nat} {out : Outside} {i i' : Instance}
  {answer : Except TunnelError Step} {h : History}

theorem Due.spec {a : Nat} (hdue : Due policy i a) (hs : i.Staged policy)
    (hmax : 0 < policy.maxRestartAttempts) :
    0 < a ∧ a ≤ policy.maxRestartAttempts ∧ i.child = none ∧
      (i.pending = .ensureRequested ∨ i.pending = .backoffElapsed) ∧
      i.remaining policy = policy.maxRestartAttempts - a + 1 := by
  unfold Instance.Staged at hs
  cases hdue with
  | first hstate hpending =>
    rw [hstate, hpending] at hs
    have hchild : i.child = none := by
      generalize i.child = c at hs
      cases hs
      rfl
    refine ⟨Nat.one_pos, hmax, hchild, .inl hpending, ?_⟩
    simp only [remaining, hstate]
    omega
  | @retry r a hstate hpending ha =>
    rw [hstate] at hs
    refine ⟨by omega, ha, hs.failed.2.2, .inr hpending, ?_⟩
    simp only [remaining, hstate]
    omega

/-- A child was started, and has not been found ready yet. -/
def Instance.Launched (policy : SupervisorPolicy) (i : Instance) : Prop :=
  ∃ a pid, i.state = .starting a (some pid) ∧ 0 < a ∧ a ≤ policy.maxRestartAttempts

theorem Instance.Launched.stage (hl : i.Launched policy) {e : Event} {c : Option Child}
    (hstage : ∀ a pid, 0 < a → a ≤ policy.maxRestartAttempts →
      Stage policy.maxRestartAttempts (.starting a (some pid)) e c) :
    Stage policy.maxRestartAttempts i.state e c := by
  obtain ⟨a, pid, hstate, hpos, ha⟩ := hl
  rw [hstate]
  exact hstage a pid hpos ha

theorem Probes.spec {now : Instant} {j : Instance} (hprobe : Probes policy now i j)
    (hs : i.Staged policy) :
    j.Launched policy ∧ j.child = i.child ∧ j.remaining policy = i.remaining policy := by
  unfold Instance.Staged at hs
  cases hprobe with
  | @first a pid hstate hpending =>
    rw [hstate] at hs
    exact ⟨⟨a, pid, rfl, hs.attempts⟩, rfl, by simp [remaining, hstate]⟩
  | @again a pid e hstate hpending he =>
    rw [hstate] at hs
    exact ⟨⟨a, pid, hstate, hs.attempts⟩, rfl, rfl⟩

theorem Expired.launched (hexpired : Expired policy i) (hs : i.Staged policy) :
    i.Launched policy := by
  obtain ⟨a, pid, e, hstate, -, -⟩ := hexpired
  unfold Instance.Staged at hs
  rw [hstate] at hs
  exact ⟨a, pid, hstate, hs.attempts⟩

theorem quiet_gracefulReap (ch : Child) (reap : Reap) : Quiet (gracefulReap ch reap) := by
  cases reap with
  | inTime reported | forced reported =>
    cases reported <;> simp [gracefulReap, Quiet, isSpawn]

theorem quiet_kill (ch : Child) (signal : KillSignal) (reap : Reap) :
    Quiet (.signalled ch.number signal :: gracefulReap ch reap ++ [.dropped ch.number]) := by
  simp only [Quiet, List.cons_append, List.forall_mem_cons, List.forall_mem_append]
  exact ⟨rfl, quiet_gracefulReap ch reap, rfl, List.forall_mem_nil _⟩

section

variable (ht : Ticks policy site number out i answer i' h) (hs : i.Staged policy)
  (hmax : 0 < policy.maxRestartAttempts)

include ht hs hmax

theorem Ticks.staged : i'.Staged policy := by
  cases ht with
  | @spawnFails a e hdue =>
    obtain ⟨hpos, ha, hchild, hpending, -⟩ := hdue.spec hs hmax
    show Stage _ (.starting a none) i.pending i.child
    rw [hchild]
    exact .unspawned hpos ha hpending
  | @spawns a pid hdue =>
    obtain ⟨hpos, ha, -⟩ := hdue.spec hs hmax
    exact .spawned hpos ha
  | findsCrash hprobe => exact (hprobe.spec hs).1.stage fun _ _ => .crashed
  | findsReady hprobe => exact (hprobe.spec hs).1.stage fun _ _ => .passed
  | findsNothing hprobe => exact (hprobe.spec hs).1.stage fun _ _ => .probing
  | killsNone hexpired | kills hexpired => exact (hexpired.launched hs).stage fun _ _ => .crashed
  | killFails hexpired =>
    have hlaunched := hexpired.launched hs
    obtain ⟨_, _, _, _, hpending, _⟩ := hexpired
    show Stage _ i.state i.pending none
    rw [hpending]
    exact hlaunched.stage fun _ _ => .probing
  | @backsOff a pid r hstate hpending =>
    show Stage _ (.failed r a) .backoffElapsed i.child
    unfold Instance.Staged at hs
    rw [hstate, hpending] at hs
    generalize i.child = c at hs ⊢
    cases hs with
    | crashed hpos ha => exact .backingOff hpos ha
  | @succeeds a pid hstate hpending =>
    show Stage _ (.running pid) i.pending i.child
    rw [hpending]
    exact .serving
  | serves | refuses => exact hs

theorem Ticks.children :
    (i.child = none ∧ i'.child.map Child.number = some number ∧ h = [.spawned site number] ∧
        answer = .ok .continue) ∨
      (Quiet h ∧ (i'.child = i.child ∨ ∀ ch, i.child = some ch → .dropped ch.number ∈ h)) := by
  have hnil : Quiet ([] : History) := by simp [Quiet]
  cases ht with
  | spawnFails | backsOff | succeeds | serves | refuses => exact .inr ⟨hnil, .inl rfl⟩
  | spawns hdue =>
    obtain ⟨-, -, hchild, -⟩ := hdue.spec hs hmax
    exact .inl ⟨hchild, rfl, rfl, rfl⟩
  | @findsCrash _ _ _ _ hchild | @killFails _ _ _ hchild =>
    refine .inr ⟨by simp [Quiet, isSpawn], .inr fun c hc => ?_⟩
    obtain rfl := some.inj (hchild.symm.trans hc)
    simp
  | findsReady hprobe | findsNothing hprobe =>
    exact .inr ⟨hnil, .inl (hprobe.spec hs).2.1⟩
  | killsNone hexpired hchild => exact .inr ⟨hnil, .inl hchild.symm⟩
  | @kills ch hexpired hchild =>
    refine .inr ⟨quiet_kill ch .term out.reap, .inr fun c hc => ?_⟩
    obtain rfl := some.inj (hchild.symm.trans hc)
    simp

theorem Ticks.remaining :
    Base.spawns site h + i'.remaining policy ≤ i.remaining policy := by
  cases ht with
  | @spawnFails a e hdue =>
    obtain ⟨-, -, -, -, hremaining⟩ := hdue.spec hs hmax
    rw [hremaining]
    simp [remaining, Base.spawns]
  | @spawns a pid hdue =>
    obtain ⟨-, -, -, -, hremaining⟩ := hdue.spec hs hmax
    rw [hremaining]
    simp [remaining, Base.spawns, isSpawnOf]
    omega
  | findsCrash hprobe | findsReady hprobe | findsNothing hprobe =>
    exact (Nat.zero_add _).trans_le (hprobe.spec hs).2.2.le
  | killsNone | killFails | serves | refuses => exact (Nat.zero_add _).le
  | @kills ch hexpired hchild =>
    rw [(quiet_kill ch .term out.reap).spawns site]
    exact (Nat.zero_add _).le
  | backsOff hstate hpending => simp [remaining, Base.spawns, hstate]
  | succeeds hstate hpending => simp [remaining, Base.spawns]

end

end

/-! ## The invariant of the manager -/

namespace TunnelManager

/-- The child that the site's instance holds. -/
def held (m : TunnelManager) (site : Str) : Option Nat :=
  (m.instances[site]?.bind Instance.child).map Child.number

/-- Every living child is the one its site's instance holds, so that a site never has two. -/
structure Sound (m : TunnelManager) : Prop where
  limit : 0 < m.policy.maxRestartAttempts
  staged : ∀ (site : Str) (i : Instance), m.instances[site]? = some i → i.Staged m.policy
  supervised : Supervised m.held m.history

theorem sound_new : new.Sound where
  limit := by decide
  staged := by
    intro site i hi
    simp [new] at hi
  supervised := ⟨by simp [new], AlwaysSingle.nil⟩

variable {m : TunnelManager} {site : Str}

/-- How many children were started for `site`, and how many may still be. -/
def budget (m : TunnelManager) (site : Str) : Nat :=
  Base.spawns site m.history + (m.instances[site]?.map (·.remaining m.policy)).getD 0

theorem budget_of_none (hnone : m.instances[site]? = none) :
    m.budget site = Base.spawns site m.history := by
  simp [budget, hnone]

/-- Nothing but what concerns `site` changes. -/
structure Only (site : Str) (m m' : TunnelManager) : Prop where
  policy : m'.policy = m.policy
  instances : ∀ s, s ≠ site → m'.instances[s]? = m.instances[s]?
  spawns : ∀ s, s ≠ site → Base.spawns s m'.history = Base.spawns s m.history

namespace Only

variable {m₁ m₂ : TunnelManager}

theorem trans (h : Only site m m₁) (h' : Only site m₁ m₂) : Only site m m₂ :=
  ⟨h'.policy.trans h.policy, fun s hs => (h'.instances s hs).trans (h.instances s hs),
    fun s hs => (h'.spawns s hs).trans (h.spawns s hs)⟩

theorem budget (h : Only site m m₁) {s : Str} (hs : s ≠ site) : m₁.budget s = m.budget s := by
  unfold TunnelManager.budget
  rw [h.policy, h.instances s hs, h.spawns s hs]

theorem of_moves {left : Option Instance} {h : History} (hm : Moves site m m₁ left h)
    (hown : ∀ s, s ≠ site → Base.spawns s h = 0) : Only site m m₁ := by
  refine ⟨hm.policy, fun s hs => ?_, fun s hs => ?_⟩
  · rw [hm.instances s, if_neg hs]
  · rw [hm.history, spawns_append, hown s hs, Nat.add_zero]

end Only

theorem spawns_note {h : History} (hq : Quiet h) (s : Str) :
    Base.spawns s (m.note h).history = Base.spawns s m.history := by
  simp [note, spawns_append, hq.spawns s]

end TunnelManager

section

open TunnelManager

variable {site : Str} {m m' : TunnelManager} {left : Option Instance} {h : History}

theorem Moves.held (hm : Moves site m m' left h) (s : Str) :
    m'.held s = if s = site then (left.bind Instance.child).map Child.number else m.held s := by
  unfold TunnelManager.held
  rw [hm.instances s]
  split <;> rfl

theorem Moves.staged (hm : Moves site m m' left h) (hs : m.Sound)
    (hleft : ∀ i, left = some i → i.Staged m.policy) (s : Str) (i : Instance)
    (hi : m'.instances[s]? = some i) : i.Staged m'.policy := by
  rw [hm.policy]
  rw [hm.instances s] at hi
  split at hi
  · exact hleft i hi
  · exact hs.staged s i hi

theorem Moves.quiet (hm : Moves site m m' left h) (hs : m.Sound)
    (hleft : ∀ i, left = some i → i.Staged m.policy) (hq : Quiet h)
    (hkeep : left.bind Instance.child = m.instances[site]?.bind Instance.child ∨
      ∀ ch, m.instances[site]?.bind Instance.child = some ch → .dropped ch.number ∈ h) :
    m'.Sound ∧ Only site m m' ∧ Base.spawns site m'.history = Base.spawns site m.history := by
  refine ⟨⟨hm.policy ▸ hs.limit, hm.staged hs hleft, ?_⟩, .of_moves hm fun s _ => hq.spawns s, ?_⟩
  · rw [hm.history]
    refine hs.supervised.quiet hq fun owner => ?_
    rw [hm.held owner]
    split
    · next howner =>
      subst howner
      refine hkeep.imp (congrArg _) fun hdropped c hc => ?_
      obtain ⟨ch, hch, rfl⟩ := map_eq_some_iff.1 hc
      exact hdropped ch hch
    · exact .inl rfl
  · rw [hm.history, spawns_append, hq.spawns site, Nat.add_zero]

theorem Moves.sound_spawn {i : Instance} {number : Nat}
    (hm : Moves site m m' (some i) [.spawned site number]) (hs : m.Sound)
    (hi : i.Staged m.policy) (hnone : m.held site = none)
    (hnew : i.child.map Child.number = some number) : m'.Sound := by
  have hleft : ∀ j, some i = some j → j.Staged m.policy := by
    intro j hj
    exact some.inj hj ▸ hi
  refine ⟨hm.policy ▸ hs.limit, hm.staged hs hleft, ?_⟩
  rw [hm.history]
  refine hs.supervised.spawned hnone ?_ fun s hne => ?_
  · rw [hm.held, if_pos rfl]
    exact hnew
  · rw [hm.held, if_neg hne]

theorem TunnelManager.Sound.note (hs : m.Sound) (hq : Quiet h) : (m.note h).Sound := by
  refine ⟨hs.limit, hs.staged, ?_⟩
  exact hs.supervised.quiet hq fun owner => .inl rfl

end

/-! ## Each call keeps it -/

namespace TunnelManager

variable {m : TunnelManager} {site : Str} {out : Outside}

theorem advance_of_none (hnone : m.instances[site]? = none) :
    m.advance site out = (.ok .gone, m) := by
  simp only [advance, hnone]

theorem advance_spec (hs : m.Sound) (site : Str) (out : Outside) :
    let r := m.advance site out
    r.2.Sound ∧ Only site m r.2 ∧ r.2.budget site ≤ m.budget site ∧
      (∀ e, r.1 = .error e → Base.spawns site r.2.history = Base.spawns site m.history) ∧
      (r.2.instances[site]? = none ↔ m.instances[site]? = none) := by
  intro r
  cases hi : m.instances[site]? with
  | none =>
    rw [show r = _ from advance_of_none hi]
    refine ⟨hs, ⟨rfl, fun _ _ => rfl, fun _ _ => rfl⟩, le_rfl, fun _ _ => rfl, ?_⟩
    simp [hi]
  | some i =>
    have hstaged := hs.staged site i hi
    obtain ⟨i', h, ht, hm⟩ := advance_ticks out hi hstaged
    have hstaged' := ht.staged hstaged hs.limit
    have hbudget : r.2.budget site ≤ m.budget site := by
      have := ht.remaining hstaged hs.limit
      unfold budget
      rw [hm.history, spawns_append, hm.policy, hm.here, hi]
      simp only [map_some, getD_some]
      omega
    have hsome : r.2.instances[site]? = none ↔ some i = none := by
      rw [hm.here]
      simp
    rcases ht.children hstaged hs.limit with ⟨hnone, hnew, rfl, hanswer⟩ | ⟨hq, hkeep⟩
    · refine ⟨hm.sound_spawn hs hstaged' ?_ hnew, .of_moves hm fun s hs => ?_, hbudget, ?_, hsome⟩
      · simp [held, hi, hnone]
      · simp [Base.spawns, isSpawnOf, Ne.symm hs]
      · intro e he
        rw [hanswer] at he
        cases he
    · have hleft : ∀ j, some i' = some j → j.Staged m.policy := by simpa using hstaged'
      obtain ⟨hs', honly, hspawns⟩ := hm.quiet hs hleft hq (by simpa [hi] using hkeep)
      exact ⟨hs', honly, hbudget, fun _ _ => hspawns, hsome⟩

theorem stop_spec (hs : m.Sound) (site : Str) (out : Outside) :
    let m' := (m.stop site out).2
    m'.Sound ∧ Only site m m' ∧ m'.instances[site]? = none ∧
      Base.spawns site m'.history = Base.spawns site m.history := by
  intro m'
  cases hi : m.instances[site]? with
  | none =>
    have hm' : m' = m := by simp only [m', stop, hi]
    rw [hm']
    exact ⟨hs, ⟨rfl, fun _ _ => rfl, fun _ _ => rfl⟩, hi, rfl⟩
  | some i =>
    have hmoves : ∃ h, Moves site m m' none h ∧ Quiet h ∧
        ∀ ch, i.child = some ch → .dropped ch.number ∈ h := by
      rcases stop_moves out hi with ⟨hch, -, hm⟩ | ⟨ch, hch, ⟨e, -, hm⟩ | ⟨-, hm⟩⟩
      · exact ⟨_, hm, by simp [Quiet], by simp [hch]⟩
      · exact ⟨_, hm, by simp [Quiet, isSpawn], by simp [hch]⟩
      · exact ⟨_, hm, quiet_kill ch .term out.reap, by simp [hch]⟩
    obtain ⟨h, hm, hq, hdropped⟩ := hmoves
    obtain ⟨hs', honly, hspawns⟩ := hm.quiet hs (by simp) hq (.inr (hi ▸ hdropped))
    exact ⟨hs', honly, hm.here, hspawns⟩

theorem quiet_dropped (child : Option Child) : Quiet (dropped child) := by
  cases child <;> simp [dropped, Quiet, isSpawn]

theorem quiet_observed (child : Option Child) (tryWait : Except Str (Option ExitReason)) :
    Quiet (observed child tryWait) := by
  unfold observed
  split <;> simp [Quiet, isSpawn]

theorem mem_dropped {child : Option Child} {ch : Child} (hch : child = some ch) :
    .dropped ch.number ∈ dropped child := by
  simp [dropped, hch]

theorem register_spec (hs : m.Sound) (site : Str) (spec : LaunchSpec) (kind : TunnelKind)
    (hostname : Option Str) (now : Instant) :
    let m' := m.register site spec kind hostname now
    m'.Sound ∧ Only site m m' ∧ m'.instances[site]? = some (.fresh spec kind hostname now) ∧
      Base.spawns site m'.history = Base.spawns site m.history := by
  intro m'
  have hm : Moves site m m' (some (.fresh spec kind hostname now)) (dropped _) := .insert _ _
  have hleft (i) (hi : some (fresh spec kind hostname now) = some i) : i.Staged m.policy :=
    some.inj hi ▸ .fresh
  obtain ⟨hs', honly, hspawns⟩ := hm.quiet hs hleft (quiet_dropped _) (.inr fun ch => mem_dropped)
  exact ⟨hs', honly, hm.here, hspawns⟩

theorem launch_spec (hs : m.Sound) (site : Str) (spec : LaunchSpec) (kind : TunnelKind)
    (hostname : Option Str) (now : Instant) (out : Outside) :
    let r := m.launch site spec kind hostname now out
    r.2.Sound ∧ Only site m r.2 ∧
      ((r.1 = .ok true ∧
          r.2.budget site ≤ Base.spawns site m.history + m.policy.maxRestartAttempts) ∨
        ((∃ e, r.1 = .error e) ∧ r.2.instances[site]? = none ∧
          Base.spawns site r.2.history = Base.spawns site m.history)) := by
  intro r
  obtain ⟨hs₁, honly₁, hhere₁, hspawns₁⟩ := register_spec hs site spec kind hostname now
  obtain ⟨hs₂, honly₂, hbudget, herror, -⟩ := advance_spec hs₁ site out
  have hbudget₁ : (m.register site spec kind hostname now).budget site
      = Base.spawns site m.history + m.policy.maxRestartAttempts := by
    unfold budget
    rw [hspawns₁, hhere₁, honly₁.policy]
    rfl
  rcases hadvance : (m.register site spec kind hostname now).advance site out with ⟨e | step, m₂⟩
  all_goals rw [hadvance] at hs₂ honly₂ hbudget herror
  · let left := m₂.instances[site]?.bind child
    have hr : r = (.error e, { m₂ with instances := m₂.instances.erase site }.note (dropped left)) := by
      simp only [r, launch, hadvance, left]
    have hm₂ : Moves site m₂ r.2 none (dropped left) := by
      rw [hr]
      exact .erase _
    obtain ⟨hs₃, honly₃, hspawns₃⟩ :=
      hm₂.quiet hs₂ (by simp) (quiet_dropped left) (.inr fun ch => mem_dropped)
    refine ⟨hs₃, (honly₁.trans honly₂).trans honly₃, .inr ⟨⟨e, by rw [hr]⟩, hm₂.here, ?_⟩⟩
    rw [hspawns₃, herror e rfl, hspawns₁]
  · have hr : r = (.ok true, m₂) := by
      simp only [r, launch, hadvance]
    rw [hr]
    exact ⟨hs₂, honly₁.trans honly₂, .inl ⟨rfl, hbudget.trans_eq hbudget₁⟩⟩

theorem begin_cases (m : TunnelManager) (site : Str) (spec : LaunchSpec) (kind : TunnelKind)
    (hostname : Option Str) (tryWait : Except Str (Option ExitReason)) (now : Instant)
    (out : Outside) :
    ∃ child, let noted := m.note (observed child tryWait)
      (m.begin site spec kind hostname tryWait now out = (.ok false, noted) ∧
          m.instances[site]? ≠ none) ∨
        m.begin site spec kind hostname tryWait now out
          = noted.launch site spec kind hostname now out := by
  cases hi : m.instances[site]? with
  | none =>
    refine ⟨none, .inr ?_⟩
    have hm : m.note (observed none tryWait) = m := by simp [note, observed]
    rw [hm]
    simp only [begin, hi]
  | some i =>
    refine ⟨i.child, ?_⟩
    simp only [begin, hi]
    split
    · exact .inl ⟨rfl, by simp⟩
    · exact .inr rfl

/-- A `begin` that starts a tunnel. -/
def BeginsAt (m : TunnelManager) (site : Str) : Call → Prop
  | .begin s spec kind hostname tryWait now out =>
    s = site ∧ (m.begin s spec kind hostname tryWait now out).1 = .ok true
  | _ => False

theorem begin_spec (hs : m.Sound) (s : Str) (spec : LaunchSpec) (kind : TunnelKind)
    (hostname : Option Str) (tryWait : Except Str (Option ExitReason)) (now : Instant)
    (out : Outside) :
    let r := m.begin s spec kind hostname tryWait now out
    r.2.Sound ∧ Only s m r.2 ∧
      (r.1 = .ok true → r.2.budget s ≤ Base.spawns s m.history + m.policy.maxRestartAttempts) ∧
      (r.1 ≠ .ok true → r.2.budget s ≤ m.budget s ∧
        (m.instances[s]? = none → r.2.instances[s]? = none)) := by
  intro r
  obtain ⟨child, hcases⟩ := begin_cases m s spec kind hostname tryWait now out
  have hq := quiet_observed child tryWait
  have hnoted : Only s m (m.note (observed child tryWait)) :=
    ⟨rfl, fun _ _ => rfl, fun s _ => spawns_note hq s⟩
  rcases hcases with ⟨hr, hsome⟩ | hr
  · rw [show r = _ from hr]
    refine ⟨hs.note hq, hnoted, nofun, fun _ => ⟨?_, fun hnone => absurd hnone hsome⟩⟩
    unfold budget
    rw [spawns_note hq]
    exact le_rfl
  · rw [show r = _ from hr]
    obtain ⟨hs', honly, hok | ⟨⟨e, he⟩, hnone, hspawns⟩⟩ :=
      launch_spec (hs.note hq) s spec kind hostname now out
    · rw [spawns_note hq] at hok
      exact ⟨hs', hnoted.trans honly, fun _ => hok.2, fun h => absurd hok.1 h⟩
    · refine ⟨hs', hnoted.trans honly, fun h => ?_, fun _ => ⟨?_, fun _ => hnone⟩⟩
      · rw [he] at h
        cases h
      · rw [budget_of_none hnone, hspawns, spawns_note hq]
        exact Nat.le_add_right ..

/-- Each call keeps the invariant, and only a `begin` that starts a tunnel gives a site children
again. -/
structure Keeps (m m' : TunnelManager) (site : Str) : Prop where
  sound : m'.Sound
  policy : m'.policy = m.policy
  budget : m'.budget site ≤ m.budget site
  gone : m.instances[site]? = none → m'.instances[site]? = none

theorem Keeps.trans {m₁ m₂ : TunnelManager} (h : Keeps m m₁ site) (h' : Keeps m₁ m₂ site) :
    Keeps m m₂ site :=
  ⟨h'.sound, h'.policy.trans h.policy, h'.budget.trans h.budget, fun hnone => h'.gone (h.gone hnone)⟩

theorem Keeps.spec {m' : TunnelManager} (h : Keeps m m' site) : m'.Sound ∧ m'.policy = m.policy :=
  ⟨h.sound, h.policy⟩

theorem Only.keeps {m' : TunnelManager} {s : Str} (h : Only s m m') (hs : m'.Sound)
    (hne : site ≠ s) : Keeps m m' site :=
  ⟨hs, h.policy, (h.budget hne).le, fun hnone => (h.instances site hne).trans hnone⟩

theorem keeps_note (hs : m.Sound) {h : History} (hq : Quiet h) : Keeps m (m.note h) site := by
  refine ⟨hs.note hq, rfl, ?_, id⟩
  unfold budget
  rw [spawns_note hq]
  exact le_rfl

theorem keeps_stop (hs : m.Sound) (s : Str) (out : Outside) : Keeps m (m.stop s out).2 site := by
  obtain ⟨hs', honly, hnone, hspawns⟩ := stop_spec hs s out
  by_cases hsite : site = s
  · subst hsite
    refine ⟨hs', honly.policy, ?_, fun _ => hnone⟩
    rw [budget_of_none hnone, hspawns]
    exact Nat.le_add_right ..
  · exact honly.keeps hs' hsite

theorem keeps_stopEach (outs : Str → Outside) (sites : List Str) (e : Option TunnelError)
    (hs : m.Sound) : Keeps m (stopEach outs sites (e, m)).2 site := by
  induction sites generalizing e m with
  | nil => exact ⟨hs, rfl, le_rfl, id⟩
  | cons s sites ih =>
    have hstop : Keeps m (m.stop s (outs s)).2 site := keeps_stop hs s (outs s)
    rcases hr : m.stop s (outs s) with ⟨_ | _, m₁⟩
    all_goals
      rw [hr] at hstop
      simp only [stopEach, hr]
      exact hstop.trans (ih _ hstop.sound)

theorem keeps_call (hs : m.Sound) {c : Call} (hc : ¬m.BeginsAt site c) : Keeps m (m.call c) site := by
  cases c with
  | begin s spec kind hostname tryWait now out =>
    obtain ⟨hs', honly, -, hother⟩ := begin_spec hs s spec kind hostname tryWait now out
    by_cases hsite : site = s
    · subst hsite
      have hne := fun h => hc ⟨rfl, h⟩
      exact ⟨hs', honly.policy, (hother hne).1, (hother hne).2⟩
    · exact honly.keeps hs' hsite
  | advance s out =>
    obtain ⟨hs', honly, hbudget, -, hnone⟩ := advance_spec hs s out
    by_cases hsite : site = s
    · subst hsite
      exact ⟨hs', honly.policy, hbudget, hnone.2⟩
    · exact honly.keeps hs' hsite
  | stop s out => exact keeps_stop hs s out
  | shutdown outs => exact keeps_stopEach outs _ none hs
  | snapshots tryWaits =>
    refine keeps_note hs fun x hx => ?_
    obtain ⟨p, -, hx⟩ := List.mem_flatMap.1 hx
    exact quiet_observed _ _ x hx
  | exits child => exact keeps_note hs (by simp [Quiet, isSpawn])

theorem sound_call (hs : m.Sound) (c : Call) :
    (m.call c).Sound ∧ (m.call c).policy = m.policy := by
  cases c with
  | begin s spec kind hostname tryWait now out =>
    obtain ⟨hs', honly, -⟩ := begin_spec hs s spec kind hostname tryWait now out
    exact ⟨hs', honly.policy⟩
  | _ =>
    refine (@keeps_call m [] hs _ ?_).spec
    exact not_false

theorem sound_run (hs : m.Sound) (calls : List Call) :
    (m.run calls).Sound ∧ (m.run calls).policy = m.policy := by
  induction calls generalizing m with
  | nil => exact ⟨hs, rfl⟩
  | cons c calls ih =>
    obtain ⟨hs', hpolicy⟩ := sound_call hs c
    obtain ⟨hs'', hpolicy'⟩ := ih hs'
    exact ⟨hs'', hpolicy'.trans hpolicy⟩

/-- No `begin` of these calls starts a tunnel for `site`. -/
def NoBegin (site : Str) : TunnelManager → List Call → Prop
  | _, [] => True
  | m, c :: calls => ¬m.BeginsAt site c ∧ NoBegin site (m.call c) calls

theorem keeps_run (hs : m.Sound) {calls : List Call} (hcalls : NoBegin site m calls) :
    Keeps m (m.run calls) site := by
  induction calls generalizing m with
  | nil => exact ⟨hs, rfl, le_rfl, id⟩
  | cons c calls ih =>
    have hcall := keeps_call hs hcalls.1
    exact hcall.trans (ih hcall.sound hcalls.2)

/-! ## Every run -/

/-- Calls of any drivers, in any order, over any sites, answered in any way: no site ever has two
living children, a start that goes through gets at most the policy's attempts until the next one, a
`begin` that starts nothing only looks at the child there is, and a stopped site has no child and no
instance until a tunnel is started again. -/
theorem run_one_child (calls : List Call) (site : Str) :
    let m := new.run calls
    (∀ before, before <+: m.history → ∀ c c', (site, c) ∈ live before → (site, c') ∈ live before →
      c = c') ∧
    (∀ spec kind hostname tryWait now out,
      let begun := m.begin site spec kind hostname tryWait now out
      (begun.1 = .ok true → ∀ later, NoBegin site begun.2 later →
        Base.spawns site (begun.2.run later).history
          ≤ Base.spawns site m.history + m.policy.maxRestartAttempts) ∧
      (begun.1 = .ok false → ∃ seen : History, begun.2 = m.note seen ∧
        ∀ x ∈ seen, ∃ c, x = .seenExited c)) ∧
    (∀ out later,
      let stopped := (m.stop site out).2
      NoBegin site stopped later →
        (∀ c, (site, c) ∉ live (stopped.run later).history) ∧
        ∀ out', ((stopped.run later).advance site out').1 = .ok .gone) := by
  intro m
  have hs : m.Sound := (sound_run sound_new calls).1
  refine ⟨fun before hbefore => hs.supervised.single before hbefore site, ?_, ?_⟩
  · intro spec kind hostname tryWait now out begun
    obtain ⟨hs', -, htrue, -⟩ := begin_spec hs site spec kind hostname tryWait now out
    refine ⟨fun hok later hlater => ?_, fun hfalse => ?_⟩
    · calc Base.spawns site (begun.2.run later).history
          ≤ (begun.2.run later).budget site := Nat.le_add_right ..
        _ ≤ begun.2.budget site := (keeps_run hs' hlater).budget
        _ ≤ Base.spawns site m.history + m.policy.maxRestartAttempts := htrue hok
    · obtain ⟨child, ⟨hr, -⟩ | hr⟩ := begin_cases m site spec kind hostname tryWait now out
      · refine ⟨observed child tryWait, by rw [show begun = _ from hr], fun x hx => ?_⟩
        unfold observed at hx
        split at hx
        · exact ⟨_, List.mem_singleton.1 hx⟩
        · cases hx
      · -- a launch answers that it started, or an error
        have hlaunch := (launch_spec (hs.note (quiet_observed child tryWait)) site spec kind
          hostname now out).2.2
        rw [← hr] at hlaunch
        rcases hlaunch with ⟨hok, -⟩ | ⟨⟨e, he⟩, -⟩
        · exact absurd (hok.symm.trans hfalse) (by simp)
        · exact absurd (he.symm.trans hfalse) (by simp)
  · intro out later stopped hlater
    obtain ⟨hs', -, hnone, -⟩ := stop_spec hs site out
    have hkeeps := keeps_run hs' hlater
    have hgone := hkeeps.gone hnone
    refine ⟨fun c => hkeeps.sound.supervised.notMem_live ?_ c, fun out' => ?_⟩
    · simp [held, hgone]
    · rw [advance_of_none hgone]

end TunnelManager

end Orcker.Tunnel
