import Orcker.Helper.Ops
import Orcker.Helper.PfAnchor

/-!
# Port redirects on macOS

Uninstalling goes backwards through the steps of installing, which are the same for the loopback and
the LAN. A reference stands in `pf.conf` only while the rules are there, at every instant of every
sequence of calls, wherever they are stopped and whatever fails.
-/

namespace Orcker.Helper.Pf

open Base Program Std.ExtTreeMap Always

def requireNonzero (port : UInt16) (flag : Str) : Except HelperError Unit :=
  if port = 0 then .error (.validation (.portInvalid flag)) else .ok ()

/-- No port is zero. -/
def requirePorts (p : Ports) : Except HelperError Unit := do
  requireNonzero p.httpFrom "--http-from"
  requireNonzero p.httpTo "--http-to"
  requireNonzero p.httpsFrom "--https-from"
  requireNonzero p.httpsTo "--https-to"

/-- Load `pf.conf`, which checks it too. -/
def loadPfConf : Program (Except HelperError Unit) :=
  runCommand "pfctl" "/sbin/pfctl" ["-f", pfConfPath]

def bootout (r : Redirect) : Program (Except HelperError Unit) :=
  runCommand "launchctl" "/bin/launchctl" ["bootout", "system", r.plistPath]

/-- Load `pf.conf` at boot. -/
def installLaunchDaemon (r : Redirect) : Program (Except HelperError Unit) := do
  match ← atomicWrite r.plistPath (utf8 (composeLaunchdaemonPlist r)) with
  | .error e => return .error e
  | .ok () =>
  match ← runCommand "chown" "/usr/sbin/chown" ["root:wheel", r.plistPath] with
  | .error e => return .error e
  | .ok () =>
    let _ ← bootout r
    runCommand "launchctl" "/bin/launchctl" ["bootstrap", "system", r.plistPath]

/-- Write `pf.conf`, where it changes. -/
def writePfConf (old new : Str) : Program (Except HelperError Unit) :=
  if new ≠ old then atomicWrite pfConfPath (utf8 new) else return .ok ()

/-- The steps of an install behind the checks of its arguments. -/
def installRedirect (r : Redirect) (rules : Str) : Program (Except HelperError Unit) := do
  match ← atomicWrite r.anchorPath (utf8 rules) with
  | .error e => return .error e
  | .ok () =>
  match ← readToString pfConfPath with
  | .error source => return .error (.io pfConfPath source)
  | .ok original =>
  let updated := insertAnchorRefs r original
  match ← writePfConf original updated with
  | .error e => return .error e
  | .ok () =>
  match ← loadPfConf with
  | .error e =>
    -- roll the edit back
    let _ ← writePfConf updated original
    return .error e
  | .ok () =>
    let _ ← runCommand "pfctl" "/sbin/pfctl" ["-e"]
    installLaunchDaemon r

def installPortRedirect (p : Ports) : Program (Except HelperError Unit) :=
  match requirePorts p with
  | .error e => return .error e
  | .ok () => installRedirect .loopback (composeAnchorRules p)

def installLanPortRedirect (lanIp : Ipv4Addr) (p : Ports) : Program (Except HelperError Unit) :=
  if lanIp.isLoopback || lanIp.isUnspecified then return .error (.validation .lanIpInvalid)
  else
    match requirePorts p with
    | .error e => return .error e
    | .ok () => installRedirect .lan (composeLanAnchorRules lanIp p)

def removeFiles (r : Redirect) : Program (Except HelperError Unit) := do
  match ← removeIfPresent r.anchorPath with
  | .error e => return .error e
  | .ok _ =>
  match ← removeIfPresent r.plistPath with
  | .error e => return .error e
  | .ok _ => return .ok ()

/-- The references go before the files. -/
def uninstallRedirect (r : Redirect) : Program (Except HelperError Unit) := do
  let _ ← bootout r
  match ← readToString pfConfPath with
  | .ok pfConf =>
    let cleaned := removeAnchorRefs r pfConf
    if cleaned ≠ pfConf then
      match ← atomicWrite pfConfPath (utf8 cleaned) with
      | .error e => return .error e
      | .ok () =>
        let _ ← loadPfConf
        removeFiles r
    else removeFiles r
  | .error .notFound => removeFiles r
  | .error source => return .error (.io pfConfPath source)

def uninstallPortRedirect : Program (Except HelperError Unit) := uninstallRedirect .loopback

def uninstallLanPortRedirect : Program (Except HelperError Unit) := uninstallRedirect .lan

/-- Where a line of `pf.conf` carries a redirect's marker, the redirect's rules are there. -/
def Anchored (files : StrMap Bytes) : Prop :=
  ∀ (r : Redirect) (data : Bytes), files[pfConfPath]? = some data → Marked r (lossy data) →
    r.anchorPath ∈ files

theorem anchorPath_ne_pfConfPath (r : Redirect) : r.anchorPath ≠ pfConfPath := by
  cases r <;> decide +kernel

theorem plistPath_ne_pfConfPath (r : Redirect) : r.plistPath ≠ pfConfPath := by
  cases r <;> decide +kernel

theorem plistPath_ne_anchorPath (r s : Redirect) : r.plistPath ≠ s.anchorPath := by
  cases r <;> cases s <;> decide +kernel

variable {r : Redirect}

theorem anchorPath_injective {s : Redirect} (h : r.anchorPath = s.anchorPath) : r = s := by
  cases r <;> cases s
  all_goals first | rfl | exact absurd h (by decide +kernel)

theorem compare_ne {a b : Str} (h : a ≠ b) : ¬ compare a b = .eq := fun heq =>
  h (Std.LawfulEqCmp.eq_of_compare heq)

variable {files : StrMap Bytes} {path : Str}

theorem Anchored.insert (h : Anchored files) (hpath : path ≠ pfConfPath) (data : Bytes) :
    Anchored (files.insert path data) := by
  intro r content hcontent hmarked
  rw [getElem?_insert, if_neg (compare_ne hpath)] at hcontent
  exact mem_insert.2 (.inr (h r content hcontent hmarked))

theorem anchored_insert_pfConf {text : Str} (h : ∀ r, Marked r text → r.anchorPath ∈ files) :
    Anchored (files.insert pfConfPath (utf8 text)) := by
  intro r content hcontent hmarked
  rw [getElem?_insert_self] at hcontent
  obtain rfl := Option.some.inj hcontent
  rw [lossy_utf8] at hmarked
  exact mem_insert.2 (.inr (h r hmarked))

theorem Anchored.erase (h : Anchored files)
    (hpath : ∀ r : Redirect, r.anchorPath = path → ∀ data, files[pfConfPath]? = some data →
      ¬ Marked r (lossy data)) (hconf : path ≠ pfConfPath) : Anchored (files.erase path) := by
  intro r content hcontent hmarked
  rw [getElem?_erase, if_neg (compare_ne hconf)] at hcontent
  refine mem_erase.2 ⟨?_, h r content hcontent hmarked⟩
  exact compare_ne fun heq => hpath r heq.symm content hcontent hmarked

def Sound (w : World) : Prop := Anchored w.files

variable {Q : Except HelperError Unit → World → Prop}

section

variable {w : World}

theorem always_run {tool program : Str} {args : List Str} (h : Sound w)
    (hQ : ∀ r v, v.files = w.files → Q r v) : Always Sound Q (runCommand tool program args) w :=
  always_runCommand h h (hQ _ _ rfl) fun _ => hQ _ _ rfl

theorem always_installLaunchDaemon (h : Sound w) :
    Always Sound (fun _ _ => True) (installLaunchDaemon r) w := by
  have h' := h.insert (plistPath_ne_pfConfPath r) (utf8 (composeLaunchdaemonPlist r))
  refine bind (always_atomicWrite h h' ?_ fun _ => always_pure h trivial)
  refine bind (always_run h' fun result v hv => ?_)
  have hv : Sound v := by rw [Sound, hv]; exact h'
  cases result with
  | error e => exact always_pure hv trivial
  | ok _ =>
    refine bind (always_run hv fun _ u hu => ?_)
    have hu : Sound u := by rw [Sound, hu]; exact hv
    exact always_run hu fun _ _ _ => trivial

theorem always_writePfConf {old new : Str} (h : Sound w)
    (hnew : ∀ r, Marked r new → r.anchorPath ∈ w.files)
    (hok : ∀ v, Sound v → (∀ r : Redirect, r.anchorPath ∈ w.files → r.anchorPath ∈ v.files) →
      Q (.ok ()) v) (hfails : ∀ e, Q (.error e) w) : Always Sound Q (writePfConf old new) w := by
  have h' : Sound ⟨w.files.insert pfConfPath (utf8 new), w.deeds ++ [.wrote pfConfPath (utf8 new)]⟩ :=
    anchored_insert_pfConf hnew
  unfold writePfConf
  split
  · exact always_atomicWrite h h' (hok _ h' fun r hr => mem_insert.2 (.inr hr)) hfails
  · exact always_pure h (hok w h fun _ hr => hr)

theorem always_installRedirect {rules : Str} (h : Sound w) :
    Always Sound (fun _ _ => True) (installRedirect r rules) w := by
  have h' := h.insert (anchorPath_ne_pfConfPath r) (utf8 rules)
  refine bind (always_atomicWrite h h' ?_ fun _ => always_pure h trivial)
  refine bind (always_readToString h' (fun original horiginal => ?_)
    (fun _ => always_pure h' trivial) fun _ => always_pure h' trivial)
  -- what the old text refers to is there, and so are the new rules
  have hold : ∀ s, Marked s original → s.anchorPath ∈ w.files.insert r.anchorPath (utf8 rules) :=
    fun s hs => h' s _ horiginal (by rwa [lossy_utf8])
  have hnew : ∀ s, Marked s (insertAnchorRefs r original) →
      s.anchorPath ∈ w.files.insert r.anchorPath (utf8 rules) := by
    intro s hs
    rcases hs.of_insertAnchorRefs with rfl | hs
    · exact mem_insert_self
    · exact hold s hs
  refine bind (always_writePfConf h' hnew (fun v hv hpresent => ?_)
    fun _ => always_pure h' trivial)
  refine bind (always_run hv fun result u hu => ?_)
  have hu' : Sound u := by rw [Sound, hu]; exact hv
  cases result with
  | error e =>
    refine bind (always_writePfConf hu' (fun s hs => hu ▸ hpresent s (hold s hs))
      (fun x hx _ => always_pure hx trivial) fun _ => always_pure hu' trivial)
  | ok _ =>
    refine bind (always_run hu' fun _ x hx => ?_)
    have hx : Sound x := by rw [Sound, hx]; exact hu'
    exact always_installLaunchDaemon hx

theorem always_removeFiles (h : Sound w)
    (hfree : ∀ data, w.files[pfConfPath]? = some data → ¬ Marked r (lossy data)) :
    Always Sound (fun _ _ => True) (removeFiles r) w := by
  have hanchor : Anchored (w.files.erase r.anchorPath) :=
    h.erase (fun s hs => anchorPath_injective hs ▸ hfree) (anchorPath_ne_pfConfPath r)
  have hplist : ∀ v : World, Sound v → Always Sound (fun _ _ => True) (do
      match ← removeIfPresent r.plistPath with
      | .error e => return .error e
      | .ok _ => return .ok () : Program (Except HelperError Unit)) v := by
    intro v hv
    have hv' : Anchored (v.files.erase r.plistPath) :=
      hv.erase (fun s hs => absurd hs.symm (plistPath_ne_anchorPath r s)) (plistPath_ne_pfConfPath r)
    exact bind (always_removeIfPresent hv hv' (always_pure hv' trivial)
      (fun _ => always_pure hv trivial) fun _ => always_pure hv trivial)
  exact bind (always_removeIfPresent h hanchor (hplist _ hanchor) (fun _ => hplist _ h)
    fun _ => always_pure h trivial)

theorem always_uninstallRedirect (h : Sound w) :
    Always Sound (fun _ _ => True) (uninstallRedirect r) w := by
  refine bind (always_run h fun _ v hv => ?_)
  have hv : Sound v := by rw [Sound, hv]; exact h
  refine bind (always_readToString hv (fun pfConf hconf => ?_) (fun hnone => ?_)
    fun _ => always_pure hv trivial)
  · have hclean : ¬ Marked r (removeAnchorRefs r pfConf) := fun hm => hm.of_removeAnchorRefs.1 rfl
    simp only
    split
    · have hkept : ∀ s, Marked s (removeAnchorRefs r pfConf) → s.anchorPath ∈ v.files :=
        fun s hs => hv s _ hconf (by rw [lossy_utf8]; exact hs.of_removeAnchorRefs.2)
      have hv' : Anchored (v.files.insert pfConfPath (utf8 (removeAnchorRefs r pfConf))) :=
        anchored_insert_pfConf hkept
      refine bind (always_atomicWrite hv hv' ?_ fun _ => always_pure hv trivial)
      refine bind (always_run hv' fun _ u hu => ?_)
      have hu' : Sound u := by rw [Sound, hu]; exact hv'
      refine always_removeFiles hu' fun data hdata => ?_
      rw [hu, getElem?_insert_self] at hdata
      obtain rfl := Option.some.inj hdata
      rwa [lossy_utf8]
    · next hsame =>
      refine always_removeFiles hv fun data hdata => ?_
      obtain rfl := Option.some.inj (hconf.symm.trans hdata)
      rw [lossy_utf8, ← not_not.1 hsame]
      exact hclean
  · refine always_removeFiles hv fun data hdata => ?_
    rw [hnone] at hdata
    cases hdata

end

/-- The calls of a sequence. -/
inductive Call where
  | installPortRedirect (p : Ports)
  | installLanPortRedirect (lanIp : Ipv4Addr) (p : Ports)
  | uninstallPortRedirect
  | uninstallLanPortRedirect

def Call.program : Call → Program (Except HelperError Unit)
  | installPortRedirect p => Pf.installPortRedirect p
  | installLanPortRedirect lanIp p => Pf.installLanPortRedirect lanIp p
  | uninstallPortRedirect => Pf.uninstallPortRedirect
  | uninstallLanPortRedirect => Pf.uninstallLanPortRedirect

theorem always_call (c : Call) {w : World} (h : Sound w) :
    Always Sound (fun _ _ => True) c.program w := by
  have hinstall : ∀ p r rules, Always Sound (fun _ _ => True)
      (match requirePorts p with
        | .error e => return .error e
        | .ok () => installRedirect r rules) w := by
    intro p r rules
    split
    · exact always_pure h trivial
    · exact always_installRedirect h
  cases c with
  | installPortRedirect p => exact hinstall p _ _
  | installLanPortRedirect lanIp p =>
    simp only [Call.program, installLanPortRedirect]
    split
    · exact always_pure h trivial
    · exact hinstall p _ _
  | uninstallPortRedirect | uninstallLanPortRedirect => exact always_uninstallRedirect h

/-- A call, which of its operations fail, and before which of them it is stopped. -/
structure Step where
  call : Call
  faults : List (Option Fault)
  stop : Option Nat

def Step.instants (s : Step) (w : World) : List World :=
  let e := s.call.program.exec s.faults w
  match s.stop with
  | none => e.instants
  | some n => e.instants.take (n + 1)

/-- The worlds a sequence passes through. -/
def instants : List Step → World → List World
  | [], w => [w]
  | s :: steps, w => s.instants w ++ instants steps ((s.instants w).getLast?.getD w)

theorem sound_step {s : Step} {w : World} (h : Sound w) : ∀ v ∈ s.instants w, Sound v := by
  have hall := ((always_call s.call h).exec s.faults).1
  intro v hv
  unfold Step.instants at hv
  simp only at hv
  split at hv
  · exact hall v hv
  · exact hall v (List.mem_of_mem_take hv)

theorem sound_instants {steps : List Step} {w : World} (h : Sound w) :
    ∀ v ∈ instants steps w, Sound v := by
  induction steps generalizing w with
  | nil =>
    intro v hv
    rw [List.mem_singleton.1 hv]
    exact h
  | cons s steps ih =>
    intro v hv
    rcases List.mem_append.1 hv with hv | hv
    · exact sound_step h v hv
    · refine ih ?_ v hv
      cases hlast : (s.instants w).getLast? with
      | none => exact h
      | some u => exact sound_step h u (List.mem_of_getLast? hlast)

/-- From a `pf.conf` without marked lines, at every instant of every sequence of installs and
uninstalls, each of which may be stopped anywhere and any of whose operations may fail: if `pf.conf`
has the `load anchor` line of a redirect, then the rules of the redirect are there. -/
theorem loaded_anchor_exists {w : World}
    (hstart : ∀ (r : Redirect) (data : Bytes), w.files[pfConfPath]? = some data →
      ¬ Marked r (lossy data)) (steps : List Step) :
    ∀ v ∈ instants steps w, ∀ (r : Redirect) (data : Bytes), v.files[pfConfPath]? = some data →
      loadAnchorLine r ∈ lines (lossy data) → r.anchorPath ∈ v.files := by
  intro v hv r data hdata hline
  have hsound : Sound w := fun r data hdata hmarked => absurd hmarked (hstart r data hdata)
  exact sound_instants hsound v hv r data hdata ⟨_, hline, (List.suffix_append ..).isInfix⟩

def plainConf : World := ⟨(∅ : StrMap Bytes).insert pfConfPath (utf8 "set skip on lo0\n"), []⟩

def installBoth : List Step :=
  [⟨.installPortRedirect ⟨80, 8080, 443, 8443⟩, [], none⟩,
    ⟨.installLanPortRedirect ⟨(192, 168, 1, 5)⟩ ⟨80, 8080, 443, 8443⟩, [], some 4⟩]

/-- A call of each kind, the second of them stopped on the way. -/
theorem loaded_anchor_exists_both :
    ∃ v ∈ instants installBoth plainConf, ∃ data : Bytes, v.files[pfConfPath]? = some data ∧
      loadAnchorLine .loopback ∈ lines (lossy data) ∧ Redirect.loopback.anchorPath ∈ v.files := by
  have hstart : ∀ (r : Redirect) (data : Bytes), plainConf.files[pfConfPath]? = some data →
      ¬ Marked r (lossy data) := by
    intro r data hdata
    obtain rfl := Option.some.inj (getElem?_insert_self.symm.trans hdata)
    unfold Marked
    cases r <;> decide +kernel
  have hlast : ∃ v ∈ instants installBoth plainConf, v.files[pfConfPath]?.any fun data =>
      loadAnchorLine .loopback ∈ lines (lossy data) := by
    decide +kernel
  obtain ⟨v, hv, hany⟩ := hlast
  obtain ⟨data, hdata, hline⟩ := (Option.any_eq_true _ _).1 hany
  have hline := of_decide_eq_true hline
  exact ⟨v, hv, data, hdata, hline,
    loaded_anchor_exists hstart installBoth v hv .loopback data hdata hline⟩

end Orcker.Helper.Pf
