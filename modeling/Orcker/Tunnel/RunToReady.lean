import Orcker.Tunnel.OneChild

/-!
# Driving a start to its end

After a `begin` that started a tunnel one driver ticks it until it is ready, gone or failed, and
sleeps in between as the ticks say. A rank that falls with every tick bounds the calls.
-/

namespace Orcker.Tunnel

open Base TunnelManager List

/-! ## The loop -/

/-- The loop of `run_to_ready`, from its call number `k` on. The calls are answered by `outs`, and
the stop after an error by `last`. -/
def drive (site : Str) (outs : Nat → Outside) (last : Outside) :
    (fuel k : Nat) → TunnelManager → Option (Except TunnelError Step × TunnelManager)
  | 0, _, _ => none
  | fuel + 1, k, m =>
    match m.advance site (outs k) with
    | (.ok .continue, m) => drive site outs last fuel (k + 1) m
    | (.ok (.sleep _), m) => drive site outs last fuel (k + 1) m
    | (.ok .ready, m) => some (.ok .ready, m)
    | (.ok .gone, m) => some (.ok .gone, m)
    | (.error e, m) => some (.error e, (m.stop site last).2)

/-- The driver calls again. -/
def GoesOn : Except TunnelError Step → Prop
  | .ok .continue => True
  | .ok (.sleep _) => True
  | _ => False

/-! ## The calls one after another -/

section

variable (m b : TunnelManager) (site : Str) (outs : Nat → Outside)

/-- The manager before call `k`. Call 0 is the `begin`, which leaves `b`. -/
def moment : Nat → TunnelManager
  | 0 => m
  | 1 => b
  | k + 2 => ((moment (k + 1)).advance site (outs (k + 1))).2

/-- What the `k`-th tick answers. -/
def answer (k : Nat) : Except TunnelError Step :=
  ((moment m b site outs k).advance site (outs k)).1

/-- What the `k`-th tick does to the children. -/
def happened (k : Nat) : History :=
  (moment m b site outs (k + 1)).history.drop (moment m b site outs k).history.length

/-- The clock does not go back, and a sleep lasts as long as it says. -/
structure Clocked : Prop where
  mono : ∀ k, (outs k).now ≤ (outs (k + 1)).now
  sleeps : ∀ k d, 0 < k → answer m b site outs k = .ok (.sleep d) →
    (outs k).now + d ≤ (outs (k + 1)).now

end

/-- How many checks fit in the window. -/
def checks (policy : SupervisorPolicy) : Nat :=
  (policy.healthCheckWindow + readinessGap - 1) / readinessGap

/-- A check for every gap of the window, and four more calls, in each attempt. -/
def callBound (policy : SupervisorPolicy) : Nat := policy.maxRestartAttempts * (checks policy + 4)

example : callBound .tunnel = 1212 := by decide +kernel

/-! ## What the driver has seen -/

variable {r : ExitReason} {sig : KillSignal} {i' : Instance} {spec : LaunchSpec}
  {hostname : Option Str} {now : Instant} {out : Outside}

section

variable {m b : TunnelManager} {site : Str} {outs : Nat → Outside}

/-- What the driver has seen before call `k`, in attempt `a`, which was entered in call `s`, of an
instance in this state and with this event pending. -/
inductive Phase (m b : TunnelManager) (site : Str) (outs : Nat → Outside) (s k a : Nat)
    (i : Instance) : PoolState → Event → Prop
  | spawned {pid} (hsince : i.stateSince = (outs s).now) (hk : k = s + 1) :
    Phase m b site outs s k a i (.starting a none) (.spawnSucceeded pid)
  /-- The last call was a check, and found neither the marker nor a dead child. -/
  | probing {pid e j} (hk : k = j + 1) (hj : s < j) (hentered : (outs s).now ≤ i.stateSince)
      (hsince : i.stateSince ≤ (outs j).now) (helapsed : (outs s).now + e ≤ (outs j).now)
      (hlapsed : (outs j).now - i.stateSince ≤ e)
      (hcheck : readiness i.kind (readFileLossy (outs j).log) = none)
      (hanswer : answer m b site outs j = .ok (.sleep readinessGap)) :
    Phase m b site outs s k a i (.starting a (some pid)) (.healthCheckTick e)
  | passed {pid j} (hj : s < j) (hjk : j < k)
      (hcheck : readiness i.kind (readFileLossy (outs j).log) ≠ none) :
    Phase m b site outs s k a i (.starting a (some pid)) .healthCheckOk
  | crashed {pid r} (hchild : i.child = none) :
    Phase m b site outs s k a i (.starting a (some pid)) (.crashed r)
  | backingOff {r j} (hchild : i.child = none) (hk : k = j + 1) (hj : 0 < j)
      (hanswer : answer m b site outs j = .ok (.sleep (backoffFor a m.policy))) :
    Phase m b site outs s k a i (.failed r a) .backoffElapsed

/-- The loop is about to make call `k`: the child `c` was started in call `s`, and none since. -/
structure Going (m b : TunnelManager) (site : Str) (kind : TunnelKind) (outs : Nat → Outside)
    (k s a c : Nat) (i : Instance) : Prop where
  sound : (moment m b site outs k).Sound
  policy : (moment m b site outs k).policy = m.policy
  here : (moment m b site outs k).instances[site]? = some i
  kind : i.kind = kind
  phase : Phase m b site outs s k a i i.state i.pending
  pos : 0 < k
  attempt : 0 < a ∧ a ≤ m.policy.maxRestartAttempts
  before : s < k
  started : .spawned site c ∈ happened m b site outs s
  last : ∀ t, s < t → t < k → Base.spawns site (happened m b site outs t) = 0
  child : ∀ ch, i.child = some ch → ch.number = c
  count : Base.spawns site (moment m b site outs k).history = Base.spawns site m.history + a

/-! ## The rank -/

/-- How many checks may still find nothing before the window has passed. -/
def checksLeft (policy : SupervisorPolicy) (lapsed : Duration) : Nat :=
  (policy.healthCheckWindow - lapsed + readinessGap - 1) / readinessGap

/-- At most this many calls follow, after one at `last`. -/
def rank (policy : SupervisorPolicy) (last : Instant) (i : Instance) : Nat :=
  let rest (a : Nat) := (policy.maxRestartAttempts - a) * (checks policy + 4)
  match i.state, i.pending with
  | .starting a none, _ => rest a + checks policy + 4
  | .starting a (some _), .healthCheckTick _ => rest a + 3 + checksLeft policy (last - i.stateSince)
  | .starting _ (some _), .healthCheckOk => 1
  | .starting a (some _), _ => rest a + 2
  | .failed _ a, _ => rest a + 1
  | _, _ => 0

theorem checksLeft_lt {policy : SupervisorPolicy} {lapsed lapsed' : Duration}
    (hopen : lapsed < policy.healthCheckWindow) (hgap : lapsed + readinessGap ≤ lapsed') :
    checksLeft policy lapsed' < checksLeft policy lapsed := by
  have hvalue : readinessGap = 150000000 := by decide
  simp only [checksLeft, hvalue, Duration] at *
  omega

/-! ## One call -/

namespace Going

variable {kind : TunnelKind} {k s a c : Nat} {i : Instance}

theorem moment_succ (hk : 0 < k) :
    moment m b site outs (k + 1) = ((moment m b site outs k).advance site (outs k)).2 := by
  cases k with
  | zero => omega
  | succ k => rfl

theorem signalled_gracefulReap {ch : Child} {reap : Reap} {c' : Nat}
    (h : .signalled c' sig ∈ gracefulReap ch reap) : c' = ch.number := by
  cases reap with
  | inTime reported | forced reported => cases reported <;> simp_all [gracefulReap]

theorem happened_eq {left : Option Instance} {h : History}
    (hm : Moves site (moment m b site outs k) (moment m b site outs (k + 1)) left h) :
    happened m b site outs k = h := by
  simp [happened, hm.history]

section

variable (g : Going m b site kind outs k s a c i)

include g

theorem tick :
    ∃ i' h, Ticks m.policy site (moment m b site outs k).spawned (outs k) i
        (answer m b site outs k) i' h ∧
      Moves site (moment m b site outs k) (moment m b site outs (k + 1)) (some i') h := by
  rw [moment_succ g.pos, ← g.policy]
  exact advance_ticks (outs k) g.here (g.sound.staged site i g.here)

theorem phase_of {state : PoolState} {pending : Event} (hstate : i.state = state)
    (hpending : i.pending = pending) : Phase m b site outs s k a i state pending :=
  hstate ▸ hpending ▸ g.phase

theorem sound_succ : (moment m b site outs (k + 1)).Sound := by
  rw [moment_succ g.pos]
  exact (advance_spec g.sound site (outs k)).1

theorem keep {h : History}
    (hm : Moves site (moment m b site outs k) (moment m b site outs (k + 1)) (some i') h)
    (hq : Quiet h) (hkind : i'.kind = i.kind) (hchild : i'.child = i.child ∨ i'.child = none)
    (hphase : Phase m b site outs s (k + 1) a i' i'.state i'.pending) :
    Going m b site kind outs (k + 1) s a c i' := by
  refine ⟨g.sound_succ, hm.policy.trans g.policy, hm.here, hkind.trans g.kind, hphase, by omega,
    g.attempt, Nat.lt_succ_of_lt g.before, g.started, fun t hst htk => ?_, fun ch hch => ?_, ?_⟩
  · by_cases ht : t = k
    · rw [ht, happened_eq hm, hq.spawns site]
    · exact g.last t hst (by omega)
  · rcases hchild with h | h
    · exact g.child ch (h ▸ hch)
    · simp [h] at hch
  · rw [hm.history, spawns_append, hq.spawns site, Nat.add_zero, g.count]

theorem retry {number : Nat}
    (hm : Moves site (moment m b site outs k) (moment m b site outs (k + 1)) (some i')
      [.spawned site number])
    (hkind : i'.kind = i.kind) (hchild : i'.child.map Child.number = some number)
    (hphase : Phase m b site outs k (k + 1) (a + 1) i' i'.state i'.pending)
    (ha : a < m.policy.maxRestartAttempts) :
    Going m b site kind outs (k + 1) k (a + 1) number i' := by
  refine ⟨g.sound_succ, hm.policy.trans g.policy, hm.here, hkind.trans g.kind, hphase,
    Nat.succ_pos k, ⟨Nat.succ_pos a, ha⟩, Nat.lt_succ_self k, ?_, fun t hkt htk => by omega,
    fun ch hch => ?_, ?_⟩
  · rw [happened_eq hm]
    exact mem_singleton.2 rfl
  · rw [hch] at hchild
    exact Option.some.inj hchild
  · rw [hm.history, spawns_append, g.count]
    simp [Base.spawns, Happening.isSpawnOf, Nat.add_assoc]

theorem probed (hclock : Clocked m b site outs) {j : Instance}
    (hprobe : Probes m.policy (outs k).now i j) :
    s < k ∧ (∃ pid, j.state = .starting a (some pid)) ∧ j.kind = i.kind ∧ j.child = i.child ∧
      (outs s).now ≤ j.stateSince ∧ j.stateSince ≤ (outs k).now ∧
      (outs s).now ≤ i.stateSince ∧ i.stateSince ≤ (outs k).now ∧
      i.stateSince ≤ j.stateSince ∧
      (rank m.policy (outs (k - 1)).now i
          = (m.policy.maxRestartAttempts - a) * (checks m.policy + 4) + checks m.policy + 4 ∧
          j.stateSince = (outs k).now ∨
        ∃ lapsed, lapsed < m.policy.healthCheckWindow ∧
          lapsed + readinessGap ≤ (outs k).now - j.stateSince ∧
          rank m.policy (outs (k - 1)).now i
            = (m.policy.maxRestartAttempts - a) * (checks m.policy + 4) + 3
              + checksLeft m.policy lapsed) := by
  cases hprobe with
  | @first a' pid hstate hpending =>
    obtain ⟨hsince, hk⟩ := g.phase_of hstate hpending
    have hmono := hclock.mono s
    rw [← hk] at hmono
    refine ⟨by omega, ⟨pid, rfl⟩, rfl, rfl, hmono, le_rfl, hsince.ge, hsince.le.trans hmono,
      hsince.le.trans hmono, .inl ⟨?_, rfl⟩⟩
    simp [rank, hstate]
  | @again a' pid e hstate hpending he =>
    have hphase := g.phase_of hstate hpending
    obtain _ | @⟨_, _, j, hk, hj, hentered, hsince, helapsed, hlapsed, hcheck, hanswer⟩ := hphase
    have hgap := hclock.sleeps j readinessGap (by omega) hanswer
    rw [← hk] at hgap
    have hlast : k - 1 = j := by omega
    refine ⟨g.before, ⟨pid, hstate⟩, rfl, rfl, hentered, ?_, hentered, ?_, le_rfl,
      .inr ⟨(outs j).now - i.stateSince, hlapsed.trans_lt he, ?_, ?_⟩⟩
    · exact hsince.trans ((Nat.le_add_right _ _).trans hgap)
    · exact hsince.trans ((Nat.le_add_right _ _).trans hgap)
    · simp only [Instant, Duration] at *
      omega
    · rw [hlast]
      simp [rank, hstate, hpending]

/-- While the loop goes on, the rank falls. -/
theorem next (hclock : Clocked m b site outs) (hgo : GoesOn (answer m b site outs k)) :
    ∃ s' a' c' i', Going m b site kind outs (k + 1) s' a' c' i' ∧
      rank m.policy (outs k).now i' < rank m.policy (outs (k - 1)).now i := by
  obtain ⟨i', h, ht, hm⟩ := g.tick
  have hnil : Quiet ([] : History) := by simp [Quiet]
  generalize hanswer : answer m b site outs k = ans at ht hgo
  cases ht with
  | @spawns a' pid hdue =>
    cases hdue with
    | first hstate hpending => cases g.phase_of hstate hpending
    | retry hstate hpending ha =>
      cases g.phase_of hstate hpending
      refine ⟨k, a + 1, _, _, g.retry hm rfl rfl (.spawned rfl rfl) ha, ?_⟩
      have hmul : (m.policy.maxRestartAttempts - a) * (checks m.policy + 4)
          = (m.policy.maxRestartAttempts - (a + 1)) * (checks m.policy + 4)
            + (checks m.policy + 4) := by
        rw [← Nat.succ_mul]
        congr 1
        omega
      simp only [rank, hstate]
      omega
  | @findsCrash j ch r hprobe hchild =>
    obtain ⟨-, ⟨pid, hstate⟩, hkind, -, -, -, -, -, -, hrank⟩ := g.probed hclock hprobe
    refine ⟨s, a, c, _, g.keep hm ?_ hkind (.inr rfl) (hstate ▸ .crashed rfl), ?_⟩
    · simp [Quiet, Happening.isSpawn]
    · rcases hrank with ⟨hrank, -⟩ | ⟨lapsed, -, -, hrank⟩ <;>
      · rw [hrank]
        simp only [rank, hstate]
        omega
  | @findsReady j url hprobe hready =>
    obtain ⟨hs, ⟨pid, hstate⟩, hkind, hchild, -, -, -, -, -, hrank⟩ := g.probed hclock hprobe
    refine ⟨s, a, c, _, g.keep hm hnil hkind (.inl hchild)
      (hstate ▸ .passed hs (Nat.lt_succ_self k) ?_), ?_⟩
    · show readiness j.kind _ ≠ none
      rw [hkind, hready]
      simp
    · rcases hrank with ⟨hrank, -⟩ | ⟨lapsed, -, -, hrank⟩ <;>
      · rw [hrank]
        simp only [rank, hstate]
        omega
  | @findsNothing j hprobe hready =>
    obtain ⟨hs, ⟨pid, hstate⟩, hkind, hchild, hentered, hsince, hentered', hsince', hle, hrank⟩ :=
      g.probed hclock hprobe
    refine ⟨s, a, c, _, g.keep hm hnil hkind (.inl hchild)
      (hstate ▸ .probing rfl hs hentered hsince ?_ ?_ ?_ hanswer), ?_⟩
    · show (outs s).now + ((outs k).now - i.stateSince) ≤ (outs k).now
      simp only [Instant] at *
      omega
    · exact Nat.sub_le_sub_left hle _
    · show readiness j.kind _ = none
      rw [hkind, hready]
    · rcases hrank with ⟨hrank, hnow⟩ | ⟨lapsed, hopen, hgap, hrank⟩
      · rw [hrank]
        have hall : checksLeft m.policy 0 = checks m.policy := rfl
        simp only [rank, hstate, hnow, Nat.sub_self, hall]
        omega
      · have := checksLeft_lt hopen hgap
        rw [hrank]
        simp only [rank, hstate]
        omega
  | killsNone hexpired hchild =>
    obtain ⟨a', pid, e, hstate, hpending, he⟩ := hexpired
    cases g.phase_of hstate hpending
    refine ⟨s, a, c, _, g.keep hm hnil rfl (.inr rfl) (hstate ▸ .crashed rfl), ?_⟩
    simp only [rank, hstate, hpending]
    omega
  | @kills ch hexpired hchild =>
    obtain ⟨a', pid, e, hstate, hpending, he⟩ := hexpired
    cases g.phase_of hstate hpending
    have hq := quiet_kill ch .term (outs k).reap
    refine ⟨s, a, c, _, g.keep hm hq rfl (.inr rfl) (hstate ▸ .crashed rfl), ?_⟩
    simp only [rank, hstate, hpending]
    omega
  | @backsOff a' pid r hstate hpending =>
    obtain _ | _ | _ | hchild := g.phase_of hstate hpending
    refine ⟨s, a, c, _, g.keep hm hnil rfl (.inl rfl) (.backingOff hchild rfl g.pos hanswer), ?_⟩
    simp only [rank, hstate, hpending]
    omega
  | spawnFails | killFails | succeeds | serves | refuses => exact hgo.elim

theorem signal {c' : Nat} (hsig : .signalled c' sig ∈ happened m b site outs k) :
    c' = c ∧ ∃ j, s < j ∧ j < k ∧ (outs s).now + m.policy.healthCheckWindow ≤ (outs j).now ∧
      readiness kind (readFileLossy (outs j).log) = none ∧
      answer m b site outs j = .ok (.sleep readinessGap) := by
  obtain ⟨i', h, ht, hm⟩ := g.tick
  rw [happened_eq hm] at hsig
  suffices hkill : Expired m.policy i ∧ c' = c by
    obtain ⟨⟨a', pid, e, hstate, hpending, he⟩, hc⟩ := hkill
    have hphase := g.phase_of hstate hpending
    obtain _ | @⟨_, _, j, hk, hj, -, -, helapsed, -, hcheck, hanswer⟩ := hphase
    refine ⟨hc, j, hj, by omega, (Nat.add_le_add_left he _).trans helapsed, ?_, hanswer⟩
    rw [← g.kind]
    exact hcheck
  generalize answer m b site outs k = ans at ht
  cases ht with
  | @killFails ch e hexpired hchild =>
    refine ⟨hexpired, ?_⟩
    rw [← g.child ch hchild]
    simp_all
  | @kills ch hexpired hchild =>
    refine ⟨hexpired, ?_⟩
    rw [← g.child ch hchild]
    simp only [cons_append, mem_cons, mem_append, Happening.signalled.injEq,
      reduceCtorEq, not_mem_nil, or_false] at hsig
    exact hsig.elim And.left signalled_gracefulReap
  | _ => simp at hsig

theorem ready (hready : answer m b site outs k = .ok .ready) :
    happened m b site outs k = [] ∧
      ∃ j, s < j ∧ j < k ∧ readiness kind (readFileLossy (outs j).log) ≠ none := by
  obtain ⟨i', h, ht, hm⟩ := g.tick
  rw [hready] at ht
  rw [happened_eq hm]
  cases ht with
  | succeeds hstate hpending =>
    obtain _ | _ | @⟨_, j, hj, hjk, hcheck⟩ := g.phase_of hstate hpending
    exact ⟨rfl, j, hj, hjk, g.kind ▸ hcheck⟩
  | serves hstate hpending => cases g.phase_of hstate hpending

theorem failed {e : TunnelError} (herror : answer m b site outs k = .error e) (out : Outside) :
    ((moment m b site outs (k + 1)).stop site out).2.history
      = (moment m b site outs (k + 1)).history := by
  obtain ⟨i', h, ht, hm⟩ := g.tick
  have hnone : i'.child = none := by
    rw [herror] at ht
    cases ht with
    | spawnFails hdue =>
      cases hdue with
      | first hstate hpending => cases g.phase_of hstate hpending
      | retry hstate hpending ha =>
        obtain _ | _ | _ | _ | ⟨hchild, -⟩ := g.phase_of hstate hpending
        exact hchild
    | killFails hexpired hchild => rfl
    | refuses hstate hchild => exact hchild
  rcases stop_moves out hm.here with ⟨-, -, hstop⟩ | ⟨ch, hch, -⟩
  · rw [hstop.history, append_nil]
  · rw [hnone] at hch
    cases hch

theorem rank_pos (last : Instant) : 0 < rank m.policy last i := by
  have hphase := g.phase
  generalize hstate : i.state = state at hphase
  generalize hpending : i.pending = pending at hphase
  cases hphase <;> simp [rank, hstate, hpending]

end

theorem rank_first (g : Going m b site kind outs 1 0 1 c i) (last : Instant) :
    rank m.policy last i ≤ callBound m.policy := by
  have hbound : callBound m.policy
      = (m.policy.maxRestartAttempts - 1) * (checks m.policy + 4) + (checks m.policy + 4) := by
    unfold callBound
    rw [← Nat.succ_mul, Nat.succ_eq_add_one, Nat.sub_add_cancel g.attempt.2]
  have hphase := g.phase
  generalize hstate : i.state = state at hphase
  generalize hpending : i.pending = pending at hphase
  cases hphase with
  | spawned | crashed =>
    simp only [rank, hstate, hpending]
    omega
  | _ => omega

/-- The loop ends, after no more calls than its rank. -/
theorem ends (hclock : Clocked m b site outs) {bound : Nat} (g : Going m b site kind outs k s a c i)
    (hrank : rank m.policy (outs (k - 1)).now i ≤ bound) :
    ∃ n, k ≤ n ∧ n < k + bound ∧ ¬GoesOn (answer m b site outs n) ∧
      (∀ t, k ≤ t → t < n → GoesOn (answer m b site outs t)) ∧
      ∀ t, k ≤ t → t ≤ n → ∃ s a c i, Going m b site kind outs t s a c i := by
  induction bound generalizing k s a c i with
  | zero => exact absurd hrank (Nat.not_le.2 (g.rank_pos _))
  | succ bound ih =>
    by_cases hgo : GoesOn (answer m b site outs k)
    · obtain ⟨s', a', c', i', g', hlt⟩ := g.next hclock hgo
      obtain ⟨n, hkn, hn, hend, hgoes, hgoing⟩ := ih g' (by simp only [Nat.add_sub_cancel]; omega)
      refine ⟨n, by omega, by omega, hend, fun t hkt htn => ?_, fun t hkt htn => ?_⟩
      · by_cases ht : t = k
        · exact ht ▸ hgo
        · exact hgoes t (by omega) htn
      · by_cases ht : t = k
        · exact ht ▸ ⟨s, a, c, i, g⟩
        · exact hgoing t (by omega) htn
    · refine ⟨k, le_rfl, by omega, hgo, fun t hkt htk => by omega, fun t hkt htk => ?_⟩
      obtain rfl : t = k := by omega
      exact ⟨s, a, c, i, g⟩

end Going

theorem launch_started (hs : m.Sound) {kind : TunnelKind} {r : Except TunnelError Bool × TunnelManager}
    (hr : m.launch site spec kind hostname now out = r) (hok : r.1 = .ok true) :
    ∃ c i pid old, r.2.instances[site]? = some i ∧ i.kind = kind ∧ i.state = .starting 1 none ∧
      i.pending = .spawnSucceeded pid ∧ i.child = some ⟨c, pid⟩ ∧ i.stateSince = out.now ∧
      r.2.history = m.history ++ (dropped old ++ [.spawned site c]) := by
  obtain ⟨hs₁, -, hhere, -⟩ := register_spec hs site spec kind hostname now
  obtain ⟨i, h, ht, hm⟩ := advance_ticks out hhere (hs₁.staged site _ hhere)
  unfold launch at hr
  rcases hadvance : (m.register site spec kind hostname now).advance site out with ⟨e | step, m₂⟩
  all_goals
    rw [hadvance] at hr ht hm
    subst hr
  · cases hok
  · cases ht with
    | spawns hdue =>
      cases hdue with
      | first hstate hpending =>
        refine ⟨_, _, _, m.instances[site]?.bind Instance.child, hm.here, rfl, rfl, rfl, rfl, rfl, ?_⟩
        rw [hm.history]
        exact append_assoc ..
      | retry hstate => cases hstate
    | findsCrash hprobe | findsReady hprobe | findsNothing hprobe =>
      cases hprobe <;> rename_i h _ <;> cases h
    | killsNone hexpired | kills hexpired => obtain ⟨_, _, _, h, -⟩ := hexpired; cases h
    | backsOff hstate | succeeds hstate | serves hstate => cases hstate

theorem going_begin (hs : m.Sound) (outs : Nat → Outside) {kind : TunnelKind}
    {tryWait : Except Str (Option ExitReason)}
    (hbegin : (m.begin site spec kind hostname tryWait now (outs 0)).1 = .ok true) :
    ∃ c i, Going m (m.begin site spec kind hostname tryWait now (outs 0)).2 site kind outs 1 0 1 c i ∧
      ∀ c' sig, .signalled c' sig ∉
        happened m (m.begin site spec kind hostname tryWait now (outs 0)).2 site outs 0 := by
  obtain ⟨hsound, honly, -⟩ := begin_spec hs site spec kind hostname tryWait now (outs 0)
  obtain ⟨child, ⟨hr, -⟩ | hr⟩ := begin_cases m site spec kind hostname tryWait now (outs 0)
  · rw [hr] at hbegin
    cases hbegin
  · have hq := quiet_observed child tryWait
    rw [hr] at hbegin hsound honly ⊢
    generalize hlaunch :
      (m.note (observed child tryWait)).launch site spec kind hostname now (outs 0) = r at *
    obtain ⟨c, i, pid, old, hhere, hkind, hstate, hpending, hchild, hsince, hhistory⟩ :=
      launch_started (hs.note hq) hlaunch hbegin
    have hhappened : happened m r.2 site outs 0
        = observed child tryWait ++ (dropped old ++ [.spawned site c]) := by
      simp [happened, moment, hhistory, note]
    refine ⟨c, i, ⟨hsound, honly.policy, hhere, hkind, hstate ▸ hpending ▸ .spawned hsince rfl,
      Nat.one_pos, ⟨Nat.one_pos, hs.limit⟩, Nat.one_pos, ?_, fun t _ _ => by omega, ?_, ?_⟩, ?_⟩
    · rw [hhappened]
      simp
    · intro ch hch
      rw [hchild] at hch
      exact (Option.some.inj hch) ▸ rfl
    · show Base.spawns site r.2.history = _
      rw [hhistory, spawns_append, spawns_note hq, spawns_append, (quiet_dropped old).spawns site]
      simp [Base.spawns, Happening.isSpawnOf]
    · intro c' sig hsig
      rw [hhappened] at hsig
      unfold observed at hsig
      split at hsig <;> simp [dropped] at hsig

theorem drive_eq {last : Outside} {fuel k n : Nat} (hk : 0 < k) (hkn : k ≤ n) (hfuel : n < k + fuel)
    (hgoes : ∀ t, k ≤ t → t < n → GoesOn (answer m b site outs t))
    (hend : ¬GoesOn (answer m b site outs n)) :
    ∃ m', drive site outs last fuel k (moment m b site outs k) = some (answer m b site outs n, m') ∧
      (m' = moment m b site outs (n + 1) ∨ ∃ e, answer m b site outs n = .error e ∧
        m' = ((moment m b site outs (n + 1)).stop site last).2) := by
  induction fuel generalizing k with
  | zero => omega
  | succ fuel ih =>
    have hmoment : moment m b site outs (k + 1) = _ := Going.moment_succ hk
    rcases hadvance : (moment m b site outs k).advance site (outs k) with ⟨ans, m₁⟩
    have hanswer : answer m b site outs k = ans := congrArg Prod.fst hadvance
    rw [hadvance] at hmoment
    by_cases hlast : k = n
    · subst hlast
      rw [hanswer] at hend ⊢
      rw [hmoment]
      rcases ans with e | step
      · refine ⟨_, ?_, .inr ⟨e, rfl, rfl⟩⟩
        simp only [drive, hadvance]
      · refine ⟨m₁, ?_, .inl rfl⟩
        cases step with
        | «continue» | sleep => exact absurd trivial hend
        | ready | gone => simp only [drive, hadvance]
    · have hgo := hgoes k le_rfl (by omega)
      obtain ⟨m', hdrive, hm'⟩ := ih (Nat.succ_pos k) (by omega) (by omega)
        fun t ht htn => hgoes t (by omega) htn
      refine ⟨m', ?_, hm'⟩
      rw [hmoment] at hdrive
      rw [hanswer] at hgo
      rcases ans with e | step
      · exact hgo.elim
      · cases step with
        | «continue» | sleep => simpa only [drive, hadvance] using hdrive
        | ready | gone => exact hgo.elim

/-- A start that went through is driven to its end in a number of calls that the policy bounds. It
ends ready only when a check after the last child was started found the marker; a child is
signalled only when a check found nothing once the window had passed since its attempt was
entered; and retry `a` comes after the documented wait. -/
theorem runToReady_ends (calls : List Call) (site : Str) (spec : LaunchSpec) (kind : TunnelKind)
    (hostname : Option Str) (tryWait : Except Str (Option ExitReason)) (now : Instant)
    (outs : Nat → Outside) (last : Outside) :
    let m := new.run calls
    let begun := m.begin site spec kind hostname tryWait now (outs 0)
    let b := begun.2
    begun.1 = .ok true → Clocked m b site outs →
    ∃ n, n ≤ callBound m.policy ∧
      (∀ fuel, n ≤ fuel → ∃ m', drive site outs last fuel 1 b = some (answer m b site outs n, m') ∧
        m'.history = (moment m b site outs (n + 1)).history) ∧
      (answer m b site outs n = .ok .ready → ∃ s c j, .spawned site c ∈ happened m b site outs s ∧
        (∀ t, s < t → t ≤ n → Base.spawns site (happened m b site outs t) = 0) ∧
        s < j ∧ j < n ∧ readiness kind (readFileLossy (outs j).log) ≠ none) ∧
      (∀ k c sig, k ≤ n → .signalled c sig ∈ happened m b site outs k →
        ∃ s j, s < j ∧ j < k ∧ .spawned site c ∈ happened m b site outs s ∧
          (outs s).now + m.policy.healthCheckWindow ≤ (outs j).now ∧
          readiness kind (readFileLossy (outs j).log) = none ∧
          answer m b site outs j = .ok (.sleep readinessGap)) ∧
      (∀ k r a, 0 < k → k ≤ n →
        (moment m b site outs k).instances[site]?.map Instance.state = some (.failed r a) →
        Base.spawns site (moment m b site outs k).history = Base.spawns site m.history + a ∧
        ∃ j, k = j + 1 ∧ 0 < j ∧ answer m b site outs j
          = .ok (.sleep (min (m.policy.backoffInitial * 2 ^ (a - 1)) m.policy.backoffMax))) := by
  intro m begun b hbegin hclock
  obtain ⟨hs, hpolicy⟩ : m.Sound ∧ m.policy = .tunnel := sound_run sound_new calls
  obtain ⟨c, i, g, hunsignalled⟩ := going_begin hs outs hbegin
  obtain ⟨n, hn, hbound, hend, hgoes, hgoing⟩ := g.ends hclock (g.rank_first _)
  refine ⟨n, by omega, fun fuel hfuel => ?_, fun hready => ?_, fun k c sig hk hsig => ?_,
    fun k r a hpos hk hstate => ?_⟩
  · have hfuel' : n < 1 + fuel := by omega
    obtain ⟨m', hdrive, hm'⟩ := drive_eq Nat.one_pos hn hfuel' hgoes hend
    refine ⟨m', hdrive, ?_⟩
    rcases hm' with rfl | ⟨e, he, rfl⟩
    · rfl
    · obtain ⟨s, a, c, i, g⟩ := hgoing n hn le_rfl
      exact g.failed he last
  · obtain ⟨s, a, c, i, g⟩ := hgoing n hn le_rfl
    obtain ⟨hquiet, j, hsj, hjn, hcheck⟩ := g.ready hready
    refine ⟨s, c, j, g.started, fun t hst htn => ?_, hsj, hjn, hcheck⟩
    by_cases ht : t = n
    · rw [ht, hquiet]
      rfl
    · exact g.last t hst (by omega)
  · by_cases hzero : k = 0
    · subst hzero
      exact absurd hsig (hunsignalled c sig)
    · obtain ⟨s, a, c', i, g⟩ := hgoing k (by omega) hk
      obtain ⟨rfl, j, hsj, hjk, hwindow, hcheck, hanswer⟩ := g.signal hsig
      exact ⟨s, j, hsj, hjk, g.started, hwindow, hcheck, hanswer⟩
  · obtain ⟨s, a', c, i, g⟩ := hgoing k hpos hk
    rw [g.here] at hstate
    have hphase := g.phase
    rw [Option.some.inj hstate] at hphase
    generalize i.pending = pending at hphase
    obtain _ | _ | _ | _ | @⟨_, j, -, hkj, hj, hanswer⟩ := hphase
    refine ⟨g.count, j, hkj, hj, ?_⟩
    have hattempts : a ≤ SupervisorPolicy.tunnel.maxRestartAttempts := hpolicy ▸ g.attempt.2
    have hthree : SupervisorPolicy.tunnel.maxRestartAttempts = 3 := rfl
    rw [hanswer, backoffFor_eq g.attempt.1 (by omega) ?_]
    have hpow : 2 ^ (a - 1) ≤ 2 ^ 2 := Nat.pow_le_pow_right (by decide) (by omega)
    calc m.policy.backoffInitial * 2 ^ (a - 1) ≤ m.policy.backoffInitial * 2 ^ 2 :=
          Nat.mul_le_mul_left _ hpow
      _ ≤ Duration.max := by
          rw [hpolicy]
          decide +kernel

end

/-- A child that registers at once. -/
def registered : Outside where
  now := 0
  tryWait := .ok none
  openLog := .ok ()
  spawn := .ok 4711
  log := some (utf8 "INF Registered tunnel connection")
  kill := .ok ()
  reap := .inTime true

/-- A child that is not ready when it is first looked at and has exited the next time; after the
backoff a second one registers. -/
def blogOuts : Nat → Outside
  | 0 | 1 => { registered with log := none }
  | 2 => { registered with now := Duration.fromMillis 1000, tryWait := .ok (some (.code 1)) }
  | 3 => { registered with now := Duration.fromMillis 1000 }
  | _ + 4 => { registered with now := Duration.fromMillis 2000 }

def blogSpec : LaunchSpec where
  binary := ⟨utf8 "cloudflared"⟩
  args := []
  env := []
  logfile := ⟨utf8 "blog.log"⟩

/-- The start of a named tunnel for the site `blog`. -/
def blogBegun : Except TunnelError Bool × TunnelManager :=
  new.begin "blog" blogSpec .named none (.ok none) 0 (blogOuts 0)

/-- It is up after six calls, and stays up. -/
theorem moment_blog (k : Nat) :
    (moment new blogBegun.2 "blog" blogOuts (k + 7)).advance "blog" (blogOuts (k + 7)) =
      (.ok .ready, moment new blogBegun.2 "blog" blogOuts 7) := by
  induction k with
  | zero => rfl
  | succ k ih =>
    have hsame : moment new blogBegun.2 "blog" blogOuts (k + 1 + 7) =
      moment new blogBegun.2 "blog" blogOuts 7 := congrArg Prod.snd ih
    rw [hsame]
    rfl

/-- How long the driver is told to sleep. -/
def sleepOf : Except TunnelError Step → Option Duration
  | .ok (.sleep d) => some d
  | _ => none

theorem clocked_blog : Clocked new blogBegun.2 "blog" blogOuts := by
  refine ⟨fun k => ?_, fun k d hk hsleep => ?_⟩
  · rcases k with _ | _ | _ | _ | k
    any_goals decide
    exact le_rfl
  · have hfirst : ∀ k < 7, ∀ d ∈ sleepOf (answer new blogBegun.2 "blog" blogOuts k),
        (blogOuts k).now + d ≤ (blogOuts (k + 1)).now := by decide +kernel
    rcases Nat.lt_or_ge k 7 with hlt | hge
    · refine hfirst k hlt d ?_
      rw [hsleep]
      rfl
    · obtain ⟨k, rfl⟩ := Nat.exists_eq_add_of_le' hge
      rw [answer, moment_blog] at hsleep
      cases hsleep

theorem runToReady_ends_blog :
    answer new blogBegun.2 "blog" blogOuts 1 = .ok (.sleep readinessGap) ∧
    answer new blogBegun.2 "blog" blogOuts 3 =
      .ok (.sleep SupervisorPolicy.tunnel.backoffInitial) ∧
    ∃ n, n ≤ callBound .tunnel ∧
      ∃ m', drive "blog" blogOuts registered 1212 1 blogBegun.2
        = some (answer new blogBegun.2 "blog" blogOuts n, m') := by
  obtain ⟨n, hn, hdrive, -⟩ := runToReady_ends [] "blog" blogSpec .named none (.ok none) 0
    blogOuts registered (by decide +kernel) clocked_blog
  obtain ⟨m', hm', -⟩ := hdrive 1212 hn
  exact ⟨by decide +kernel, by decide +kernel, n, hn, m', hm'⟩

end Orcker.Tunnel
