import Orcker.Daemon.LinkProject
import Orcker.Dns.Responder

/-!
# Targets that point back at Orcker

A proxied request must not come back to the port it arrived on. The mutation refuses names under the
TLD, which Orcker's own responder sends to the loopback address, and the dispatcher refuses loopback
targets on a bound port. Other addresses connect to this machine as well, as do numeric spellings
that the standard library does not read and the system's resolver does (`127.1`).
-/

namespace Orcker.Daemon

open Base Orcker.Core Orcker.Schema

/-- A loopback target on a bound port. -/
def targetsBoundListener (target : UpstreamTarget) (boundPorts : List Nat) : Bool :=
  let loopback := target.host == "localhost" || (parseIp target.host).any (·.isLoopback)
  loopback && boundPorts.contains target.port

/-- A malformed URL is left for the mutation to report. -/
def isSelfForward (url : Str) (boundPorts : List Nat) : Bool :=
  match UpstreamTarget.fromUrlStr url with
  | .error _ => false
  | .ok target => targetsBoundListener target boundPorts

/-- Why a project is refused before it is registered. -/
inductive LoopRefusal where
  | selfForward
  | invalid (e : CoreError)
  deriving DecidableEq

/-- Is the project's port one of Orcker's own? -/
def projectLoopRefusal (project : ContainerProject) (boundPorts : List Nat) : Option LoopRefusal :=
  match project.proxySite with
  | .ok proxy => if targetsBoundListener proxy.target boundPorts then some .selfForward else none
  | .error e => some (.invalid e)

/-- The target a request names. -/
def Request.upstreamUrl : Request → Option Str
  | .addProxy _ url => some url
  | .addProxyRule _ _ url => some url
  | _ => none

/-- The dispatcher's own check, before the mutation. -/
def dispatchRefuses (req : Request) (boundPorts : List Nat) : Bool :=
  match req.upstreamUrl with
  | some url => isSelfForward url boundPorts
  | none => false

/-- Addresses that connect to this machine although they are not loopback addresses. -/
def isOddLocal (ip : IpAddr) : Bool := ip.isUnspecified || ip.toIpv4Mapped.any (·.isLoopback)

/-- The value of a lower-case digit, 16 for everything else. -/
def digitValue (c : Char) : Nat :=
  if c.isDigit then c.toNat - '0'.toNat
  else if 'a' ≤ c ∧ c ≤ 'f' then c.toNat - 'a'.toNat + 10
  else 16

def digitsIn (base : Nat) (s : Str) : Option Nat :=
  if s ≠ [] ∧ s.all (digitValue · < base) then
    some (s.foldl (fun n c => n * base + digitValue c) 0)
  else none

/-- A number as C writes it. -/
def cNumber : Str → Option Nat
  | '0' :: 'x' :: digits => digitsIn 16 digits
  | '0' :: digits => digitsIn 8 ('0' :: digits)
  | digits => digitsIn 10 digits

/-- What the system's resolver makes of a host that is no address to the standard library: up to four
C numbers, of which the last one fills the bytes that are left. -/
def inetAton (host : Str) : Option IpAddr := do
  let numbers ← (host.splitOn '.').mapM cNumber
  let last ← numbers.getLast?
  let front := numbers.dropLast
  let room := 4 - front.length
  if front.length ≤ 3 ∧ front.all (· < 256) ∧ last < 256 ^ room then
    return .v4 (front ++ (List.range room).reverse.map fun i => last / 256 ^ i % 256)
  else none

/-- Hosts that connect to this machine and that the guard takes for foreign ones. -/
def isOddHost (host : Str) : Bool :=
  match parseIp host with
  | some ip => isOddLocal ip
  | none => (inetAton host).any fun ip => ip.isLoopback || ip.isUnspecified

example : ["127.1", "127.0.1", "2130706433", "0x7f000001", "0177.1", "0"].all
    (fun host => isOddHost host.toList) = true := by decide +kernel

/-- The host names this machine, for a system whose resolver asks the responder of the TLD. -/
def Designates (tld : Tld) (host : Str) : Prop :=
  host = "localhost" ∨
  (∃ ip, parseIp host = some ip ∧ (ip.isLoopback = true ∨ isOddLocal ip = true)) ∨
  (parseIp host = none ∧ ∃ ip, inetAton host = some ip ∧
    (ip.isLoopback = true ∨ ip.isUnspecified = true)) ∨
  (parseIp host = none ∧ ∃ qtype,
    (Dns.Responder.new tld).answer host qtype = .loopback4 ∨
    (Dns.Responder.new tld).answer host qtype = .loopback6)

/-- A target that does not lead back to a bound port of this machine. -/
def Escapes (tld : Tld) (boundPorts : List Nat) (target : UpstreamTarget) : Prop :=
  target.port ∉ boundPorts ∨ ¬Designates tld target.host

variable {tld : Tld} {host : Str}

theorem answer_refused_of_foreign (hlower : lower host = host) (hdot : host.getLast? ≠ some '.')
    (hforeign : ¬(host = tld.text ∨ ('.' :: tld.text).isSuffixOf host = true)) (qtype : Dns.QClass)
    : (Dns.Responder.new tld).answer host qtype = .refused := by
  rw [not_or, List.isSuffixOf_iff_suffix] at hforeign
  rw [Dns.answer_eq_refused_iff, stripDot_eq_self hdot, hlower]
  refine ⟨hforeign.1, ?_⟩
  rintro ⟨l, hl⟩
  rw [hlower] at hl
  exact hforeign.2 ⟨l, hl.symm⟩

theorem getLast?_of_isValidHost (h : isValidHost host = true) (hip : parseIp host = none) :
    host.getLast? ≠ some '.' := by
  unfold isValidHost at h
  rw [hip] at h
  simp only [Option.isSome_none, Bool.false_eq_true, if_false] at h
  split_ifs at h with hends
  intro hlast
  rw [hlast] at hends
  simp at hends

variable {target : UpstreamTarget}

theorem designates_iff
    (hforeign : ¬(target.host = tld.text ∨ ('.' :: tld.text).isSuffixOf target.host = true)) :
    Designates tld target.host ↔
      (target.host = "localhost" ∨
        ∃ ip, parseIp target.host = some ip ∧ ip.isLoopback = true) ∨
      isOddHost target.host = true := by
  have hrefused (hnone : parseIp target.host = none) (qtype : Dns.QClass) :
      (Dns.Responder.new tld).answer target.host qtype = .refused :=
    answer_refused_of_foreign target.host_lower
      (getLast?_of_isValidHost target.host_valid hnone) hforeign qtype
  unfold Designates isOddHost
  cases hip : parseIp target.host with
  | none => simp [hrefused hip, Option.any_eq_true]
  | some ip => simp [or_assoc]

theorem targetsBoundListener_iff {boundPorts : List Nat} :
    targetsBoundListener target boundPorts = true ↔
      (target.host = "localhost" ∨
        ∃ ip, parseIp target.host = some ip ∧ ip.isLoopback = true) ∧
      target.port ∈ boundPorts := by
  simp only [targetsBoundListener, Bool.and_eq_true, Bool.or_eq_true, beq_iff_eq, Option.any_eq_true,
    List.contains_iff_mem]

theorem escapes_iff {boundPorts : List Nat}
    (hforeign : ¬(target.host = tld.text ∨ ('.' :: tld.text).isSuffixOf target.host = true))
    (hguard : targetsBoundListener target boundPorts = false) :
    Escapes tld boundPorts target ↔
      ¬(target.port ∈ boundPorts ∧ isOddHost target.host = true) := by
  rw [Escapes, designates_iff hforeign, not_and, ← imp_iff_not_or]
  refine imp_congr_right fun hport => not_congr ?_
  have hnot : ¬(target.host = "localhost" ∨
      ∃ ip, parseIp target.host = some ip ∧ ip.isLoopback = true) := by
    intro h
    rw [targetsBoundListener_iff.2 ⟨h, hport⟩] at hguard
    cases hguard
  exact or_iff_right hnot

variable {cfg : Config} {router : SiteRouter} {boundPorts : List Nat}

theorem parseTarget_ok {url : Str} (h : parseTarget cfg url = .ok target) :
    UpstreamTarget.fromUrlStr url = .ok target ∧
      ¬(target.host = cfg.tld.text ∨ ('.' :: cfg.tld.text).isSuffixOf target.host = true) := by
  simp only [parseTarget, bind_eq_ok_iff, mapError_eq_ok_iff, pure_eq_ok, Except.ok.injEq] at h
  obtain ⟨t, ht, _, hforeign, rfl⟩ := h
  refine ⟨ht, fun hunder => ?_⟩
  rw [rejectLoopTarget, if_pos hunder] at hforeign
  cases hforeign

theorem parseTarget_of_apply {req : Request} {url : Str} {canonical : Option Path}
    {php : PhpVersion} {r : Config × Applied} (hurl : req.upstreamUrl = some url)
    (h : apply cfg router req canonical php = .ok r) : ∃ target, parseTarget cfg url = .ok target := by
  cases req <;> cases hurl
  · obtain ⟨target, htarget, -⟩ := bind_eq_ok_iff.1 h
    exact ⟨target, htarget⟩
  · obtain ⟨target, htarget, -⟩ := bind_eq_ok_iff.1 h
    exact ⟨target, htarget⟩

end Orcker.Daemon
