import Orcker.Tunnel.Manager

/-!
# What one tick does

The state, the pending event and the child of an instance change in separate steps with early
returns between them.
-/

namespace Orcker.Tunnel

open Base

/-- How the state, the pending event and the child stand to each other, with at most `limit`
attempts. -/
inductive Stage (limit : Nat) : PoolState → Event → Option Child → Prop
  /-- Registered, and not ticked yet. -/
  | fresh : Stage limit .stopped .ensureRequested none
  /-- A child was started, and its id not folded in yet. -/
  | spawned {a pid ch} (hpos : 0 < a) (ha : a ≤ limit) :
      Stage limit (.starting a none) (.spawnSucceeded pid) (some ch)
  /-- Checked, and not ready. There is no child when signalling it has failed. -/
  | probing {a pid e ch} (hpos : 0 < a) (ha : a ≤ limit) :
      Stage limit (.starting a (some pid)) (.healthCheckTick e) ch
  | passed {a pid ch} (hpos : 0 < a) (ha : a ≤ limit) :
      Stage limit (.starting a (some pid)) .healthCheckOk ch
  | crashed {a pid r} (hpos : 0 < a) (ha : a ≤ limit) :
      Stage limit (.starting a (some pid)) (.crashed r) none
  | backingOff {a r} (hpos : 0 < a) (ha : a ≤ limit) :
      Stage limit (.failed r a) .backoffElapsed none
  /-- Starting a child has failed: the state moved on, and the event did not. -/
  | unspawned {a e} (hpos : 0 < a) (ha : a ≤ limit)
      (he : e = .ensureRequested ∨ e = .backoffElapsed) :
      Stage limit (.starting a none) e none
  | serving {pid ch} : Stage limit (.running pid) .healthCheckOk ch

/-- The next tick starts a child, as attempt `a`. -/
inductive Due (policy : SupervisorPolicy) (i : Instance) : Nat → Prop
  | first (hstate : i.state = .stopped) (hpending : i.pending = .ensureRequested) : Due policy i 1
  | retry {r a} (hstate : i.state = .failed r a) (hpending : i.pending = .backoffElapsed)
      (ha : a < policy.maxRestartAttempts) : Due policy i (a + 1)

/-- The next tick checks for readiness, after it has made `i` into `j`. -/
inductive Probes (policy : SupervisorPolicy) (now : Instant) (i : Instance) : Instance → Prop
  | first {a pid} (hstate : i.state = .starting a none) (hpending : i.pending = .spawnSucceeded pid) :
      Probes policy now i { i with state := .starting a (some pid), stateSince := now }
  | again {a pid e} (hstate : i.state = .starting a (some pid))
      (hpending : i.pending = .healthCheckTick e) (he : e < policy.healthCheckWindow) :
      Probes policy now i i

/-- The next tick kills the child. -/
def Expired (policy : SupervisorPolicy) (i : Instance) : Prop :=
  ∃ a pid e, i.state = .starting a (some pid) ∧ i.pending = .healthCheckTick e ∧
    policy.healthCheckWindow ≤ e

/-- `Ticks … i answer i' h`: a tick of `i` answers `answer` and leaves `i'`, and `h` happens to
its children. A child it starts gets `number`. -/
inductive Ticks (policy : SupervisorPolicy) (site : Str) (number : Nat) (out : Outside)
    (i : Instance) : Except TunnelError Step → Instance → History → Prop
  | spawnFails {a e} (hdue : Due policy i a) :
      Ticks policy site number out i (.error e)
        { i with state := .starting a none, stateSince := out.now } []
  | spawns {a pid} (hdue : Due policy i a) :
      Ticks policy site number out i (.ok .continue)
        { i with state := .starting a none, stateSince := out.now, timedOut := false,
                 child := some ⟨number, pid⟩, pending := .spawnSucceeded pid }
        [.spawned site number]
  | findsCrash {j ch r} (hprobe : Probes policy out.now i j) (hchild : i.child = some ch) :
      Ticks policy site number out i (.ok .continue)
        { j with child := none, pending := .crashed r } [.seenExited ch.number, .dropped ch.number]
  | findsReady {j url} (hprobe : Probes policy out.now i j)
      (hready : readiness i.kind (readFileLossy out.log) = some url) :
      Ticks policy site number out i (.ok .continue)
        { j with url := url <|> j.url, pending := .healthCheckOk } []
  | findsNothing {j} (hprobe : Probes policy out.now i j)
      (hready : readiness i.kind (readFileLossy out.log) = none) :
      Ticks policy site number out i (.ok (.sleep readinessGap))
        { j with pending := .healthCheckTick (Instant.saturatingDurationSince out.now i.stateSince) }
        []
  | killsNone (hexpired : Expired policy i) (hchild : i.child = none) :
      Ticks policy site number out i (.ok .continue)
        { i with child := none, timedOut := true, pending := .crashed .unknown } []
  | killFails {ch e} (hexpired : Expired policy i) (hchild : i.child = some ch) :
      Ticks policy site number out i (.error e) { i with child := none }
        [.signalled ch.number .term, .dropped ch.number]
  | kills {ch} (hexpired : Expired policy i) (hchild : i.child = some ch) :
      Ticks policy site number out i (.ok .continue)
        { i with child := none, timedOut := true, pending := .crashed .unknown }
        (.signalled ch.number .term :: gracefulReap ch out.reap ++ [.dropped ch.number])
  | backsOff {a pid r} (hstate : i.state = .starting a (some pid)) (hpending : i.pending = .crashed r) :
      Ticks policy site number out i (.ok (.sleep (backoffFor a policy)))
        { i with state := .failed r a, stateSince := out.now, pending := .backoffElapsed } []
  | succeeds {a pid} (hstate : i.state = .starting a (some pid))
      (hpending : i.pending = .healthCheckOk) :
      Ticks policy site number out i (.ok .ready)
        { i with state := .running pid, stateSince := out.now } []
  | serves {pid} (hstate : i.state = .running pid) (hpending : i.pending = .healthCheckOk) :
      Ticks policy site number out i (.ok .ready) i []
  | refuses {e} (hstate : (∃ r a, i.state = .failed r a ∧ policy.maxRestartAttempts ≤ a) ∨
        ∃ a, i.state = .starting a none)
      (hchild : i.child = none) : Ticks policy site number out i (.error e) i []

/-- `m` becomes `m'`: the instance of `site` becomes `left`, `h` happens to its children, and
nothing else changes. -/
structure Moves (site : Str) (m m' : TunnelManager) (left : Option Instance) (h : History) :
    Prop where
  policy : m'.policy = m.policy
  history : m'.history = m.history ++ h
  instances : ∀ s, m'.instances[s]? = if s = site then left else m.instances[s]?

namespace Moves

variable {site : Str} {m m₁ m₂ : TunnelManager} {l l₁ l₂ : Option Instance} {h h₁ h₂ : History}

theorem trans (hm : Moves site m m₁ l₁ h₁) (hm' : Moves site m₁ m₂ l₂ h₂) :
    Moves site m m₂ l₂ (h₁ ++ h₂) := by
  refine ⟨hm'.policy.trans hm.policy, ?_, fun s => ?_⟩
  · rw [hm'.history, hm.history, List.append_assoc]
  · rw [hm'.instances s, hm.instances s]
    split <;> rfl

theorem here (hm : Moves site m m₁ l h) : m₁.instances[site]? = l := by
  simp [hm.instances]

theorem refl (hl : m.instances[site]? = l) : Moves site m m l [] := by
  refine ⟨rfl, by simp, fun s => ?_⟩
  by_cases hs : s = site <;> simp [hs, hl]

theorem note (hl : m.instances[site]? = l) (h : History) : Moves site m (m.note h) l h :=
  ⟨rfl, rfl, (refl hl).instances⟩

theorem update {i : Instance} (hi : m.instances[site]? = some i) (f : Instance → Instance) :
    Moves site m (m.update site f) (some (f i)) [] := by
  simp only [TunnelManager.update, hi]
  exact ⟨rfl, by simp, fun s => OrdMap.getElem?_insert ..⟩

theorem insert (i : Instance) (h : History) :
    Moves site m ({ m with instances := m.instances.insert site i }.note h) (some i) h :=
  ⟨rfl, rfl, fun _ => OrdMap.getElem?_insert ..⟩

theorem erase (h : History) :
    Moves site m ({ m with instances := m.instances.erase site }.note h) none h :=
  ⟨rfl, rfl, fun _ => OrdMap.getElem?_erase ..⟩

end Moves

namespace TunnelManager

variable {m : TunnelManager} {site : Str} {i : Instance} {out : Outside}

/-- What a tick answers and does is one of the `Ticks` of its instance. -/
def TickOf (m : TunnelManager) (site : Str) (out : Outside) (i : Instance)
    (r : Except TunnelError Step × TunnelManager) : Prop :=
  ∃ i' h, Ticks m.policy site m.spawned out i r.1 i' h ∧ Moves site m r.2 (some i') h

theorem doSpawn_ticks (hi : m.instances[site]? = some i) (hchild : i.child = none) {a : Nat}
    (hdue : Due m.policy i a) :
    TickOf m site out i ((m.update site fun i =>
      { i with state := .starting a none, stateSince := out.now }).doSpawn site out) := by
  have hput := Moves.update hi fun i => { i with state := .starting a none, stateSince := out.now }
  have hnumber : (m.update site fun i =>
      { i with state := .starting a none, stateSince := out.now }).spawned = m.spawned := by
    simp [update, hi]
  generalize m.update site _ = m₁ at hput hnumber ⊢
  simp only [doSpawn, hput.here]
  cases out.openLog with
  | error e => exact ⟨_, _, .spawnFails hdue, hput⟩
  | ok u =>
    cases out.spawn with
    | error e => exact ⟨_, _, .spawnFails hdue, hput⟩
    | ok pid =>
      refine ⟨_, _, @Ticks.spawns _ _ _ _ _ a pid hdue, ?_⟩
      have hnoted : Moves site m ({ m₁ with spawned := m₁.spawned + 1 }.note
          [.spawned site m₁.spawned]) _ _ := hput.trans ⟨rfl, rfl, (Moves.refl hput.here).instances⟩
      have hstarted := hnoted.trans (.update hnoted.here fun i =>
        { i with timedOut := false, child := some ⟨m₁.spawned, pid⟩, pending := .spawnSucceeded pid })
      rw [hnoted.here, Option.bind_some, hchild, ← hnumber]
      exact hstarted.trans (.note hstarted.here (dropped none))

theorem doHealthCheck_ticks {m₁ : TunnelManager} {j : Instance}
    (hput : Moves site m m₁ (some j) []) (hprobe : Probes m.policy out.now i j) :
    TickOf m site out i (.ok (m₁.doHealthCheck site i.stateSince out.now out).1,
      (m₁.doHealthCheck site i.stateSince out.now out).2) := by
  have hkind : j.kind = i.kind := by cases hprobe <;> rfl
  have hsame : j.child = i.child := by cases hprobe <;> rfl
  by_cases hdead : ∃ ch reason, j.child = some ch ∧ out.tryWait = .ok (some reason)
  · obtain ⟨ch, reason, hch, hwait⟩ := hdead
    have hseen := hput.trans (.note hput.here [.seenExited ch.number])
    have hcleared := hseen.trans (.update hseen.here fun i =>
      { i with child := none, pending := .crashed reason })
    simp only [doHealthCheck, hput.here, Option.bind_some, hch, hwait, observed, dropped]
    exact ⟨_, _, .findsCrash hprobe (hsame ▸ hch), hcleared.trans (.note hcleared.here _)⟩
  · have halive : ∀ ch r, j.child = some ch → out.tryWait = .ok (some r) → False :=
      fun ch r hch hwait => hdead ⟨ch, r, hch, hwait⟩
    have hobserved : observed j.child out.tryWait = [] := by
      unfold observed
      split
      · next ch r hch hr => exact (halive ch r hch hr).elim
      · rfl
    have hm : m₁.note [] = m₁ := by simp [note]
    simp only [doHealthCheck, hput.here, Option.bind_some, hobserved, hm, hkind]
    cases hready : readiness i.kind (readFileLossy out.log) with
    | some url =>
      have hurl := hput.trans (.update hput.here fun i => { i with url := url <|> i.url })
      exact ⟨_, _, .findsReady hprobe hready, hurl.trans (.update hurl.here _)⟩
    | none => exact ⟨_, _, .findsNothing hprobe hready, hput.trans (.update hput.here _)⟩

theorem doKill_ticks (hi : m.instances[site]? = some i) (hexpired : Expired m.policy i) :
    TickOf m site out i (m.doKill site .term out) := by
  have htaken := Moves.update hi fun i => { i with child := none }
  simp only [doKill, hi, Option.bind_some]
  cases hch : i.child with
  | none => exact ⟨_, _, .killsNone hexpired hch, htaken.trans (.update htaken.here _)⟩
  | some ch =>
    have hsignalled := htaken.trans (.note htaken.here [.signalled ch.number .term])
    cases out.kill with
    | error e => exact ⟨_, _, .killFails hexpired hch, hsignalled.trans (.note hsignalled.here _)⟩
    | ok u =>
      have hreaped := hsignalled.trans (.note hsignalled.here (gracefulReap ch out.reap))
      have hput := hreaped.trans (.update hreaped.here fun i =>
        { i with child := none, timedOut := true, pending := .crashed .unknown })
      refine ⟨_, _, .kills hexpired hch, ?_⟩
      simpa [dropped] using hput.trans (.note hput.here (dropped (some ch)))

/-- A tick is one of `Ticks`. -/
theorem advance_ticks (out : Outside) (hi : m.instances[site]? = some i)
    (hs : Stage m.policy.maxRestartAttempts i.state i.pending i.child) :
    TickOf m site out i (m.advance site out) := by
  -- with its fields in sight the transition computes
  obtain ⟨state, since, pending, kind, spec, url, hostname, timedOut, child⟩ := i
  unfold advance
  rw [hi]
  cases hs with
  | fresh => exact doSpawn_ticks hi rfl (.first rfl rfl)
  | @spawned a pid =>
    have hne : PoolState.starting a (some pid) ≠ .starting a none := nofun
    have ht : transition (.starting a none) (.spawnSucceeded pid) m.policy = (_, .healthCheck) := rfl
    simp only [ht, if_pos hne]
    exact doHealthCheck_ticks (.update hi _) (.first rfl rfl)
  | @probing a pid e ch hpos ha =>
    by_cases he : e < m.policy.healthCheckWindow
    · have ht : transition (.starting a (some pid)) (.healthCheckTick e) m.policy = _ := if_pos he
      simp only [ht, ne_eq, not_true_eq_false, if_false]
      exact doHealthCheck_ticks (.refl hi) (.again rfl rfl he)
    · have ht : transition (.starting a (some pid)) (.healthCheckTick e) m.policy = _ := if_neg he
      simp only [ht, ne_eq, not_true_eq_false, if_false]
      exact doKill_ticks hi ⟨a, pid, e, rfl, rfl, Nat.not_lt.1 he⟩
  | passed => exact ⟨_, _, .succeeds rfl rfl, .update hi _⟩
  | @crashed a pid r =>
    have hput := Moves.update hi fun i => { i with state := .failed r a, stateSince := out.now }
    exact ⟨_, _, .backsOff rfl rfl, hput.trans (.update hput.here _)⟩
  | @backingOff a r =>
    by_cases hlt : a < m.policy.maxRestartAttempts
    · have ht : transition (.failed r a) .backoffElapsed m.policy = _ := if_pos hlt
      simp only [ht]
      exact doSpawn_ticks hi rfl (.retry rfl rfl hlt)
    · have ht : transition (.failed r a) .backoffElapsed m.policy = _ := if_neg hlt
      simp only [ht, ne_eq, not_true_eq_false, if_false]
      split <;> exact ⟨_, _, .refuses (.inl ⟨r, a, rfl, Nat.not_lt.1 hlt⟩) rfl, .refl hi⟩
  | @unspawned a _ hpos ha he =>
    have ht : transition (.starting a none) pending m.policy = (.starting a none, .none) := by
      rcases he with rfl | rfl <;> rfl
    simp only [ht, ne_eq, not_true_eq_false, if_false]
    exact ⟨_, _, .refuses (.inr ⟨a, rfl⟩) rfl, .refl hi⟩
  | @serving pid =>
    have ht : transition (.running pid) .healthCheckOk m.policy = (.running pid, .none) := rfl
    simp only [ht, ne_eq, not_true_eq_false, if_false]
    exact ⟨_, _, .serves rfl rfl, .refl hi⟩

theorem stop_moves (out : Outside) (hi : m.instances[site]? = some i) :
    let r := m.stop site out
    (i.child = none ∧ r.1 = .ok () ∧ Moves site m r.2 none []) ∨
    ∃ ch, i.child = some ch ∧
      ((∃ e, r.1 = .error e ∧
          Moves site m r.2 none [.signalled ch.number .term, .dropped ch.number]) ∨
        (r.1 = .ok () ∧ Moves site m r.2 none
          (.signalled ch.number .term :: gracefulReap ch out.reap ++ [.dropped ch.number]))) := by
  intro r
  have herased : Moves site m { m with instances := m.instances.erase site } none [] :=
    ⟨rfl, by simp, fun _ => OrdMap.getElem?_erase ..⟩
  cases hch : i.child with
  | none =>
    refine .inl ⟨rfl, ?_⟩
    simp only [r, stop, hi, hch]
    exact ⟨trivial, herased⟩
  | some ch =>
    have hsignalled := herased.trans (.note herased.here [.signalled ch.number .term])
    have hreaped := hsignalled.trans (.note hsignalled.here (gracefulReap ch out.reap))
    refine .inr ⟨ch, rfl, ?_⟩
    simp only [r, stop, hi, hch]
    cases out.kill with
    | error e => exact .inl ⟨_, rfl, hsignalled.trans (.note hsignalled.here _)⟩
    | ok u => exact .inr ⟨rfl, hreaped.trans (.note hreaped.here _)⟩

end TunnelManager

end Orcker.Tunnel
