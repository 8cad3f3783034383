import Orcker.Helper.Ops
import Orcker.Helper.ResolverFile

/-!
# The Linux resolver

A drop-in takes effect by the reload after it, and an install that finds its drop-in in place takes
the reload for granted (`Settled`).
-/

namespace Orcker.Helper.Linux

open Base Program Orcker.Core List

/-- How addresses are written and read, alone and with a port. -/
structure AddrText (Ip : Type) extends IpText Ip where
  displayAddr : SocketAddr Ip → Str

variable {Ip : Type}

/-! ## Which manager -/

/-- The manager in charge of `/etc/resolv.conf`. -/
inductive LinuxResolverBackend where
  | systemdResolved
  | networkManager
  | unsupported
  deriving DecidableEq

/-- Its directory is there, or the file's head names it. -/
def detectSystemdResolved (resolvConfText : Str) (runSystemdResolveExists : Bool) : Bool :=
  runSystemdResolveExists ||
    ((lines resolvConfText).take 8).any (containsStr · "systemd-resolved")

def networkmanagerOwnsResolvConf (text : Str) : Bool :=
  ((lines text).take 8).any fun line => containsStr (lower line) "generated by networkmanager"

/-- First `systemd-resolved`, then `NetworkManager`. -/
def detectLinuxBackend (resolvConfText : Str) (runSystemdResolveExists : Bool) :
    LinuxResolverBackend :=
  if detectSystemdResolved resolvConfText runSystemdResolveExists then .systemdResolved
  else if networkmanagerOwnsResolvConf resolvConfText then .networkManager
  else .unsupported

def networkmanagerDnsmasqIsActive (text : Str) : Bool :=
  networkmanagerOwnsResolvConf text && (lines text).any fun line =>
    (splitWhitespace line).take 2 = ["nameserver", "127.0.0.1"]

/-! ## The texts -/

/-- The file for `systemd-resolved`. -/
def composeDropIn (std : AddrText Ip) (tld : Str) (addr : SocketAddr Ip) : Str :=
  "[Resolve]\nDNS=" ++ std.displayAddr addr ++ "\nDomains=~" ++ tld ++ "\n"

def composeNetworkmanager : Str := "# Managed by Orcker.\n[main]\ndns=dnsmasq\n"

def isComment (line : Str) : Bool :=
  line.isEmpty || line.head? == some '#' || line.head? == some ';'

/-- The first `dns` of a `[main]` section decides. -/
def matchesNetworkmanagerLines (inMain : Bool) : List Str → Bool
  | [] => false
  | raw :: rest =>
    let line := trim raw
    if isComment line then matchesNetworkmanagerLines inMain rest
    else
      match (line.dropPrefix? ['[']).bind fun s => List.dropSuffix? s [']'] with
      | some found => matchesNetworkmanagerLines (lower found = "main") rest
      | none =>
        match if inMain then splitOnce '=' line else none with
        | some (key, value) =>
          if lower (trim key) = "dns" then lower (trim value) = "dnsmasq"
          else matchesNetworkmanagerLines inMain rest
        | none => matchesNetworkmanagerLines inMain rest

def matchesNetworkmanager (text : Str) : Bool := matchesNetworkmanagerLines false (lines text)

/-- The file for the dnsmasq of `NetworkManager`. -/
def composeDnsmasq (std : AddrText Ip) (tld : Str) (addr : SocketAddr Ip) : Str :=
  "# Managed by Orcker.\nserver=/" ++ tld ++ "/" ++ std.display addr.ip ++ "#" ++
    decimal addr.port.toNat ++ "\n"

/-- A line of the text points at the address. -/
def matchesDnsmasq [DecidableEq Ip] (std : AddrText Ip) (text tld : Str) (addr : SocketAddr Ip) :
    Bool :=
  ((lines text).map trim).any fun line =>
    !isComment line &&
      (((line.dropPrefix? "server=/").bind (splitOnce '/')).bind fun value =>
        (rsplitOnce '#' value.2).map fun server =>
          value.1 = tld && std.parse server.1 = some addr.ip &&
            parseUInt 65535 server.2 = some addr.port.toNat).getD false

/-! ## The files -/

def dropInPath (tld : Str) : Str := "/etc/systemd/resolved.conf.d/orcker-" ++ tld ++ ".conf"

def networkmanagerPath : Str := "/etc/NetworkManager/conf.d/orcker-dnsmasq.conf"

def dnsmasqPath (tld : Str) : Str := "/etc/NetworkManager/dnsmasq.d/orcker-" ++ tld ++ ".conf"

def resolvConfPath : Str := "/etc/resolv.conf"

def reloadArgs : List Str := ["reload-or-restart", "systemd-resolved"]

def reloadSystemd : Program (Except HelperError Unit) :=
  runCommand "systemctl" "systemctl" reloadArgs

def reloadNetworkmanager : Program (Except HelperError Unit) :=
  runCommand "nmcli" "nmcli" ["general", "reload", "conf", "dns-full"]

/-- Put a file back as it was; failures are ignored. -/
def restoreFile (path : Str) (previous : Option Bytes) : Program Unit := do
  match previous with
  | some bytes => let _ ← atomicWrite path bytes
  | none => let _ ← removeIfPresent path

/-- The probe asks the local dnsmasq for a name. -/
def networkmanagerReady : Program Bool := do
  let resolv := (← readToString resolvConfPath).toOption.getD []
  if networkmanagerDnsmasqIsActive resolv then passes "127.0.0.1:53" else return false

/-- Ask up to `n` times. -/
def waitForNetworkmanager : Nat → Program Bool
  | 0 => return false
  | n + 1 => do
    if ← networkmanagerReady then return true
    waitForNetworkmanager n

/-- Reload, and wait for the listener. -/
def applyNetworkmanager : Program (Except HelperError Unit) := do
  match ← reloadNetworkmanager with
  | .error e => return .error e
  | .ok () =>
    if ← waitForNetworkmanager 20 then return .ok ()
    else return .error (.resolverPostcondition
      "NetworkManager dnsmasq did not answer through the active 127.0.0.1 resolver")

section

variable [DecidableEq Ip]

def networkmanagerFilesMatch (std : AddrText Ip) (tld : Str) (addr : SocketAddr Ip) :
    Program Bool := do
  if (← readToString networkmanagerPath).toOption.any matchesNetworkmanager then
    return (← readToString (dnsmasqPath tld)).toOption.any (matchesDnsmasq std · tld addr)
  else return false

/-- Both files are written, or the error of the first that is not. -/
def writeNetworkmanagerFiles (std : AddrText Ip) (tld : Str) (addr : SocketAddr Ip) :
    Program (Except HelperError Unit) := do
  match ← atomicWrite networkmanagerPath (utf8 composeNetworkmanager) with
  | .error e => return .error e
  | .ok () => atomicWrite (dnsmasqPath tld) (utf8 (composeDnsmasq std tld addr))

def installNetworkmanager (std : AddrText Ip) (tld : Str) (addr : SocketAddr Ip) :
    Program (Except HelperError Unit) := do
  match ← runCommand "dnsmasq" "dnsmasq" ["--version"] with
  | .error e => return .error e
  | .ok () =>
  match ← runCommand "nmcli" "nmcli" ["--version"] with
  | .error e => return .error e
  | .ok () =>
  if ← networkmanagerFilesMatch std tld addr then
    if ← networkmanagerReady then return .ok ()
  let oldNm := (← readFile networkmanagerPath).toOption
  let oldDns := (← readFile (dnsmasqPath tld)).toOption
  match ← writeNetworkmanagerFiles std tld addr with
  | .error e =>
    restoreFile networkmanagerPath oldNm
    restoreFile (dnsmasqPath tld) oldDns
    return .error e
  | .ok () =>
  match ← applyNetworkmanager with
  | .error e =>
    restoreFile networkmanagerPath oldNm
    restoreFile (dnsmasqPath tld) oldDns
    let _ ← reloadNetworkmanager
    return .error e
  | .ok () => return .ok ()

/-- A drop-in in place is left alone, and so is the manager. -/
def installDropIn (std : AddrText Ip) (tld : Str) (addr : SocketAddr Ip) :
    Program (Except HelperError Unit) := do
  let body := composeDropIn std tld addr
  match ← readToString (dropInPath tld) with
  | .ok text => if text = body then return .ok () else writeDropIn body
  | .error _ => writeDropIn body
where
  writeDropIn (body : Str) : Program (Except HelperError Unit) := do
    match ← atomicWrite (dropInPath tld) (utf8 body) with
    | .error e => return .error e
    | .ok () => reloadSystemd

def linuxBackend : Program LinuxResolverBackend := do
  let resolv := (← readToString resolvConfPath).toOption.getD []
  let resolvedRuntime ← passes "/run/systemd/resolve"
  return detectLinuxBackend resolv resolvedRuntime

/-- Through the manager in charge. -/
def installResolver (std : AddrText Ip) (tld : Str) (addr : SocketAddr Ip) :
    Program (Except HelperError Unit) :=
  match requireValidTld tld with
  | .error e => return .error e
  | .ok t => do
    match ← linuxBackend with
    | .systemdResolved => installDropIn std t.text addr
    | .networkManager => installNetworkmanager std t.text addr
    | .unsupported => return .error (.unsupported "install-resolver")

end

/-- Every manager's files are removed; a failing reload is ignored. -/
def uninstallResolver (tld : Str) : Program (Except HelperError Unit) :=
  match requireValidTld tld with
  | .error e => return .error e
  | .ok t => do
    match ← removeIfPresent (dropInPath t.text) with
    | .error e => return .error e
    | .ok resolvedRemoved =>
    match ← removeIfPresent networkmanagerPath with
    | .error e => return .error e
    | .ok nmRemoved =>
    match ← removeIfPresent (dnsmasqPath t.text) with
    | .error e => return .error e
    | .ok dnsRemoved =>
      if resolvedRemoved then let _ ← reloadSystemd
      if nmRemoved || dnsRemoved then let _ ← reloadNetworkmanager
      return .ok ()

/-! ## Sequences of calls -/

/-- The calls of a sequence. -/
inductive Call (Ip : Type) where
  | install (tld : Str) (addr : SocketAddr Ip)
  | uninstall (tld : Str)

/-- A call, and which of its operations fail. -/
structure Step (Ip : Type) where
  call : Call Ip
  faults : List (Option Fault)

section

variable [DecidableEq Ip]

def Step.exec (std : AddrText Ip) (w : World) (s : Step Ip) : Execution (Except HelperError Unit) :=
  match s.call with
  | .install tld addr => (installResolver std tld addr).exec s.faults w
  | .uninstall tld => (uninstallResolver tld).exec s.faults w

/-- The world after a sequence of calls. -/
def run (std : AddrText Ip) (steps : List (Step Ip)) (w : World) : World :=
  steps.foldl (fun w s => (s.exec std w).last) w

/-- Every install finds `systemd-resolved` in charge. -/
def OnSystemd (std : AddrText Ip) : List (Step Ip) → World → Prop
  | [], _ => True
  | s :: steps, w =>
    ((∃ tld addr, s.call = .install tld addr) →
      (linuxBackend.exec s.faults w).result = .systemdResolved) ∧
    OnSystemd std steps (s.exec std w).last

end

/-- Where the write of the drop-in, the fourth operation of an install and the two behind it, does
not fail, the reload behind it does not. -/
def reloads (faults : List (Option Fault)) : Prop :=
  writes (faults.drop 3) = true → fault (faults.drop 6) = none

/-- Of an uninstall nothing is asked. -/
def Step.reloads (s : Step Ip) : Prop :=
  ∀ tld addr, s.call = .install tld addr → Linux.reloads s.faults

/-- After the last write of the file, with this content, the manager has been reloaded. -/
def Reloaded (deeds : List Deed) (path : Str) (data : Bytes) : Prop :=
  ∃ before after, deeds = before ++ .wrote path data :: after ∧
    (∀ other, .wrote path other ∉ after) ∧ .ran "systemctl" reloadArgs ∈ after

/-- The drop-in is there and has been reloaded. -/
def Live (std : AddrText Ip) (w : World) (t : Tld) (addr : SocketAddr Ip) : Prop :=
  w.files[dropInPath t.text]? = some (utf8 (composeDropIn std t.text addr)) ∧
    Reloaded w.deeds (dropInPath t.text) (utf8 (composeDropIn std t.text addr))

/-- Every drop-in there is is in effect. -/
def Settled (w : World) : Prop :=
  ∀ (t : Tld) (data : Bytes), w.files[dropInPath t.text]? = some data →
    Reloaded w.deeds (dropInPath t.text) data

theorem Reloaded.append {deeds more : List Deed} {path : Str} {data : Bytes}
    (h : Reloaded deeds path data) (hmore : ∀ other, .wrote path other ∉ more) :
    Reloaded (deeds ++ more) path data := by
  obtain ⟨before, after, rfl, hlast, hran⟩ := h
  refine ⟨before, after ++ more, by simp, fun other hmem => ?_, mem_append_left _ hran⟩
  exact (mem_append.1 hmem).elim (hlast other) (hmore other)

/-! ### What a call can do -/

/-- Files may go, and nothing is written. -/
structure Clears (w w' : World) : Prop where
  files : ∀ (path : Str) (data : Bytes), w'.files[path]? = some data → w.files[path]? = some data
  deeds : ∃ more, w'.deeds = w.deeds ++ more ∧ ∀ path data, .wrote path data ∉ more

theorem Clears.refl (w : World) : Clears w w :=
  ⟨fun _ _ h => h, [], by simp, by simp⟩

variable {w : World} {w' v : World}

theorem Clears.settled (h : Clears w w') (hw : Settled w) : Settled w' := by
  obtain ⟨more, hdeeds, hmore⟩ := h.deeds
  intro t data hdata
  rw [hdeeds]
  exact (hw t data (h.files _ _ hdata)).append (hmore _)

theorem Clears.removed (h : Clears w v) (path : Str) :
    Clears w ⟨v.files.erase path, v.deeds ++ [.removed path]⟩ := by
  obtain ⟨more, hdeeds, hmore⟩ := h.deeds
  refine ⟨fun other data hdata => h.files other data ?_, more ++ [.removed path], ?_, ?_⟩
  · rw [Std.ExtTreeMap.getElem?_erase] at hdata
    split at hdata
    · cases hdata
    · exact hdata
  · rw [hdeeds, append_assoc]
  · simpa using hmore

theorem Clears.ran (h : Clears w v) (program : Str) (args : List Str) :
    Clears w ⟨v.files, v.deeds ++ [.ran program args]⟩ := by
  obtain ⟨more, hdeeds, hmore⟩ := h.deeds
  refine ⟨h.files, more ++ [.ran program args], ?_, ?_⟩
  · rw [hdeeds, append_assoc]
  · simpa using hmore

theorem Clears.removeIfPresent (h : Clears w v) (path : Str) :
    Always (Clears w) (fun _ => Clears w) (removeIfPresent path) v :=
  always_removeIfPresent h (h.removed path) (h.removed path) (fun _ => h) fun _ => h

theorem Clears.runCommand (h : Clears w v) (tool program : Str) (args : List Str) :
    Always (Clears w) (fun _ => Clears w) (runCommand tool program args) v :=
  always_runCommand h (h.ran program args) (h.ran program args) fun _ => h

theorem clears_uninstallResolver (tld : Str) (w : World) :
    Always (Clears w) (fun _ => Clears w) (uninstallResolver tld) w := by
  have h := Clears.refl w
  unfold uninstallResolver
  split
  · exact always_pure h h
  refine Always.bind ((h.removeIfPresent _).mono fun r v h _ => ?_)
  cases r with
  | error e => exact always_pure h h
  | ok resolvedRemoved =>
  refine Always.bind ((h.removeIfPresent _).mono fun r v h _ => ?_)
  cases r with
  | error e => exact always_pure h h
  | ok nmRemoved =>
  refine Always.bind ((h.removeIfPresent _).mono fun r v h _ => ?_)
  cases r with
  | error e => exact always_pure h h
  | ok dnsRemoved =>
    have hlast : ∀ v, Clears w v → Always (Clears w) (fun _ => Clears w)
        (if (nmRemoved || dnsRemoved) = true then do
          let _ ← reloadNetworkmanager
          pure (.ok ())
        else pure (.ok ()) : Program (Except HelperError Unit)) v := by
      intro v h
      split
      · exact Always.bind ((h.runCommand _ _ _).mono fun _ v h _ => always_pure h h)
      · exact always_pure h h
    show Always _ _ (if resolvedRemoved = true then _ else _) v
    split
    · exact Always.bind ((h.runCommand _ _ _).mono fun _ v h _ => hlast v h)
    · exact hlast v h

theorem exec_linuxBackend (faults : List (Option Fault)) (w : World) :
    let e := linuxBackend.exec faults w
    e.last = w ∧ left faults e = faults.drop 2 := by
  simp [linuxBackend, exec_bind, passes, exec, exec.step, left]

/-- What an install can do to a drop-in. -/
inductive Outcome (w : World) (path : Str) (data : Bytes) (faults : List (Option Fault)) :
    Except HelperError Unit → World → Prop
  | inPlace (h : w.files[path]? = some data) : Outcome w path data faults (.ok ()) w
  | unchanged (e : HelperError) : Outcome w path data faults (.error e) w
  | reloaded : Outcome w path data faults (.ok ())
      ⟨w.files.insert path data, w.deeds ++ [.wrote path data, .ran "systemctl" reloadArgs]⟩
  | unloaded (e : HelperError) (hwrites : writes faults.tail = true)
      (hreload : fault (faults.drop 4) ≠ none) : Outcome w path data faults (.error e)
      ⟨w.files.insert path data, w.deeds ++ [.wrote path data]⟩

theorem exec_writeDropIn (tld body : Str) (faults : List (Option Fault)) (w : World) :
    let e := (installDropIn.writeDropIn tld body).exec faults.tail w
    Outcome w (dropInPath tld) (utf8 body) faults e.result e.last := by
  simp only [installDropIn.writeDropIn, exec_bind]
  cases hwrites : writes faults.tail with
  | false =>
    obtain ⟨⟨error, hresult⟩, hlast⟩ :=
      exec_atomicWrite_of_not_writes hwrites (dropInPath tld) (utf8 body) w
    rw [hresult, hlast]
    exact .unchanged error
  | true =>
    rw [exec_atomicWrite_of_writes hwrites]
    have hleft : faults.tail.drop 3 = faults.drop 4 := drop_tail
    simp only [reloadSystemd, runCommand, exec_bind, exec_command, left, length_cons,
      length_nil, Nat.zero_add, Nat.reduceAdd, hleft]
    cases hf : fault (faults.drop 4) with
    | none =>
      simp only [World.run, exec_pure, append_assoc, cons_append, nil_append]
      exact .reloaded
    | some f => exact .unloaded _ hwrites (by simp [hf])

theorem exec_installDropIn (std : AddrText Ip) (tld : Str) (addr : SocketAddr Ip)
    (faults : List (Option Fault)) (w : World) :
    let e := (installDropIn std tld addr).exec faults w
    Outcome w (dropInPath tld) (utf8 (composeDropIn std tld addr)) faults e.result e.last := by
  simp only [installDropIn, exec_bind, exec_readToString]
  have hleft : left faults (⟨[w], w, (w.read (fault faults) (dropInPath tld)).bind decodeText⟩ :
      Execution (Except IoError Str)) = faults.tail := by simp [left]
  rw [hleft]
  cases hread : (w.read (fault faults) (dropInPath tld)).bind decodeText with
  | error e => exact exec_writeDropIn ..
  | ok text =>
    by_cases hbody : text = composeDropIn std tld addr
    · simp only [hbody, if_true]
      exact .inPlace (hbody ▸ read_bind_decodeText hread)
    · simp only [hbody, if_false]
      exact exec_writeDropIn ..

variable {t : Tld} {faults : List (Option Fault)}

section

variable [DecidableEq Ip]

theorem exec_installResolver (std : AddrText Ip) {raw : Str} (hraw : Tld.new raw = .ok t)
    (addr : SocketAddr Ip) (hbackend : (linuxBackend.exec faults w).result = .systemdResolved) :
    Outcome w (dropInPath t.text) (utf8 (composeDropIn std t.text addr)) (faults.drop 2)
      ((installResolver std raw addr).exec faults w).result
      ((installResolver std raw addr).exec faults w).last := by
  have htld : requireValidTld raw = .ok t := by simp only [requireValidTld, hraw]
  obtain ⟨hlast, hleft⟩ := exec_linuxBackend faults w
  simp only [installResolver, htld, exec_bind, hbackend, hlast, hleft]
  exact exec_installDropIn ..

end

/-! ### Drop-ins stay in effect -/

theorem Outcome.settled {data : Bytes} {r : Except HelperError Unit} (hw : Settled w)
    (h : Outcome w (dropInPath t.text) data (faults.drop 2) r w') (hreloads : reloads faults) :
    Settled w' := by
  cases h with
  | inPlace | unchanged => exact hw
  | unloaded e hwrites hreload =>
    -- excluded: the write has succeeded
    rw [tail_drop] at hwrites
    rw [drop_drop] at hreload
    exact absurd (hreloads hwrites) hreload
  | reloaded =>
    intro u other hother
    simp only [Std.ExtTreeMap.getElem?_insert, Std.LawfulEqCmp.compare_eq_iff_eq] at hother
    split at hother
    · next hpath =>
      obtain rfl := Option.some.inj hother
      rw [← hpath]
      exact ⟨w.deeds, [.ran "systemctl" reloadArgs], rfl, by simp, by simp⟩
    · next hpath =>
      refine (hw u other hother).append fun content hmem => ?_
      simp only [mem_cons, Deed.wrote.injEq, reduceCtorEq, not_mem_nil, or_false] at hmem
      exact hpath hmem.1.symm

variable {std : AddrText Ip}

theorem Outcome.live {addr : SocketAddr Ip} (hw : Settled w)
    (h : Outcome w (dropInPath t.text) (utf8 (composeDropIn std t.text addr)) faults (.ok ()) w') :
    Live std w' t addr := by
  cases h with
  | inPlace hfile => exact ⟨hfile, hw t _ hfile⟩
  | reloaded =>
    exact ⟨Std.ExtTreeMap.getElem?_insert_self, w.deeds, [.ran "systemctl" reloadArgs], rfl, by simp,
      by simp⟩

section

variable [DecidableEq Ip]

theorem settled_run {steps : List (Step Ip)} (hw : Settled w) (hbackend : OnSystemd std steps w)
    (hreloads : ∀ s ∈ steps, s.reloads) : Settled (run std steps w) := by
  induction steps generalizing w with
  | nil => exact hw
  | cons s steps ih =>
    obtain ⟨hs, hsteps⟩ := hbackend
    obtain ⟨hr, hrs⟩ := forall_mem_cons.1 hreloads
    refine ih ?_ hsteps hrs
    obtain ⟨call, faults⟩ := s
    cases call with
    | uninstall tld => exact (clears_uninstallResolver tld w |>.exec faults).2.settled hw
    | install tld addr =>
      cases hraw : Tld.new tld with
      | ok t =>
        exact (exec_installResolver std hraw addr (hs ⟨tld, addr, rfl⟩)).settled hw (hr tld addr rfl)
      | error e =>
        have htld : requireValidTld tld = .error (.validation (.tldInvalid tld)) := by
          simp only [requireValidTld, hraw]
        simp only [Step.exec, installResolver, htld]
        exact hw

theorem onSystemd_append {earlier later : List (Step Ip)} :
    OnSystemd std (earlier ++ later) w ↔
      OnSystemd std earlier w ∧ OnSystemd std later (run std earlier w) := by
  induction earlier generalizing w with
  | nil => simp [OnSystemd, run]
  | cons s earlier ih =>
    rw [cons_append, OnSystemd, OnSystemd, ih, and_assoc]
    rfl

/-- In every sequence of calls in which the reload after a written drop-in succeeds: an install
that returns without an error leaves its drop-in in place and in effect. -/
theorem installResolver_live {std : AddrText Ip} {w : World} (hw : Settled w)
    {steps : List (Step Ip)} (hbackend : OnSystemd std steps w)
    (hreloads : ∀ s ∈ steps, s.reloads) :
    ∀ earlier later raw addr faults, steps = earlier ++ ⟨.install raw addr, faults⟩ :: later →
      let e := (installResolver std raw addr).exec faults (run std earlier w)
      e.result = .ok () → ∃ t, Tld.new raw = .ok t ∧ Live std e.last t addr := by
  rintro earlier later raw addr faults rfl e hok
  obtain ⟨hearlier, hthis, -⟩ := onSystemd_append.1 hbackend
  have hsettled : Settled (run std earlier w) :=
    settled_run hw hearlier fun s hs => hreloads s (mem_append_left _ hs)
  cases hraw : Tld.new raw with
  | ok t =>
    have houtcome := exec_installResolver std hraw addr (hthis ⟨raw, addr, rfl⟩)
    exact ⟨t, rfl, Outcome.live hsettled (hok ▸ houtcome)⟩
  | error error =>
    have htld : requireValidTld raw = .error (.validation (.tldInvalid raw)) := by
      simp only [requireValidTld, hraw]
    simp only [e, installResolver, htld] at hok
    cases hok

end

/-! ### Two closed sequences -/

def loopbackText : AddrText Unit where
  display _ := "127.0.0.1"
  parse s := if s = "127.0.0.1" then some () else none
  displayAddr addr := "127.0.0.1:" ++ decimal addr.port.toNat

def installTest (faults : List (Option Fault)) : Step Unit := ⟨.install "test" ⟨(), 5353⟩, faults⟩

theorem settled_empty : Settled ⟨∅, []⟩ := by
  intro t data hdata
  rw [Std.ExtTreeMap.getElem?_empty] at hdata
  cases hdata

/-- An install on a fresh system is live. -/
theorem installResolver_live_fresh :
    let e := (installResolver loopbackText "test" ⟨(), 5353⟩).exec [] ⟨∅, []⟩
    e.result = .ok () ∧ ∃ t, Tld.new "test" = .ok t ∧ Live loopbackText e.last t ⟨(), 5353⟩ := by
  have hok : ((installResolver loopbackText "test" ⟨(), 5353⟩).exec [] ⟨∅, []⟩).result = .ok () := by
    decide +kernel
  have hbackend : OnSystemd loopbackText [installTest []] ⟨∅, []⟩ :=
    ⟨fun _ => by decide +kernel, trivial⟩
  have hreloads : ∀ s ∈ [installTest []], s.reloads :=
    forall_mem_singleton.2 fun _ _ _ _ => rfl
  exact ⟨hok, installResolver_live settled_empty hbackend hreloads [] [] "test" ⟨(), 5353⟩ [] rfl hok⟩

/-- The faults of an install whose reload fails. -/
def noReload : List (Option Fault) := List.replicate 6 none ++ [some ⟨"", .nonZero 1⟩]

/-- A second install finds the drop-in of the first in place, and returns without an error though no
reload has ever succeeded. -/
theorem installResolver_not_live :
    OnSystemd loopbackText [installTest noReload, installTest []] ⟨∅, []⟩ ∧
    let w := run loopbackText [installTest noReload] ⟨∅, []⟩
    let e := (installResolver loopbackText "test" ⟨(), 5353⟩).exec [] w
    e.result = .ok () ∧ ∀ data, ¬ Reloaded e.last.deeds (dropInPath "test") data := by
  refine ⟨⟨fun _ => by decide +kernel, fun _ => by decide +kernel, trivial⟩, by decide +kernel, ?_⟩
  rintro data ⟨before, after, hdeeds, -, hran⟩
  have hmem : .ran "systemctl" reloadArgs ∈
      ((installResolver loopbackText "test" ⟨(), 5353⟩).exec []
        (run loopbackText [installTest noReload] ⟨∅, []⟩)).last.deeds := by
    rw [hdeeds]
    exact mem_append_right _ (mem_cons_of_mem _ hran)
  exact absurd hmem (by decide +kernel)

end Orcker.Helper.Linux
