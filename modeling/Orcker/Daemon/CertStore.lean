import Orcker.Base.Fallible
import Orcker.Base.Ip
import Orcker.Base.Map

/-!
# Certificates of sites

A leaf certificate is issued when its host is first asked for, and stays in the cache from then on.
-/

namespace Orcker.Daemon.CertStore

open Base List

/-! Ints are in seconds since the epoch. -/

def days (n : Int) : Int := n * 86400

inductive TlsError where
  | notBeforeAfterNotAfter
  | yearAbove9998
  | emptyNameSet
  | invalidDnsName (index : Nat)

structure Validity where
  notBefore : Int
  notAfter : Int
  ordered : notBefore ≤ notAfter

/-- The start of the year 9999. -/
def yearCap : Int := 253370764800

/-- In order, and neither after the year 9998. -/
def Validity.new (notBefore notAfter : Int) : Except TlsError Validity :=
  if h : notBefore ≤ notAfter then
    if yearCap ≤ notBefore ∨ yearCap ≤ notAfter then .error .yearAbove9998
    else .ok ⟨notBefore, notAfter, h⟩
  else .error .notBeforeAfterNotAfter

inductive SanType where
  | ipAddress (ip : IpAddr)
  | dnsName (name : Str)

/-- A certificate, as far as its parameters go. -/
structure Leaf where
  subjectAltNames : List SanType
  commonName : Option Str
  validity : Validity

/-- An address, or else a name in ASCII. -/
def sanOf (name : Str) (index : Nat) : Except TlsError SanType :=
  match parseIp name with
  | some ip => .ok (.ipAddress ip)
  | none => if name.all isAscii then .ok (.dnsName name) else .error (.invalidDnsName index)

/-- A certificate for the names. -/
def issueLeaf (names : List Str) (validity : Validity) : Except TlsError Leaf := do
  if names.isEmpty then .error .emptyNameSet
  let sans ← names.zipIdx.mapM fun (name, index) => sanOf name index
  .ok ⟨sans, names.head?.filter fun cn => !cn.isEmpty && byteLen cn ≤ 64, validity⟩

/-- From yesterday on, for some thirteen months. -/
def leafValidity (now : Int) : Except TlsError Validity :=
  Validity.new (now - days 1) (now + days 395)

/-- How a server name is looked up. -/
def normalise (sniHost : Str) : Str := lower (sniHost.rdropWhile (· == '.'))

/-- The certificate, and the cache that is left. -/
def certifiedKey (cache : StrMap Leaf) (now : Int) (sniHost : Str) : Option Leaf × StrMap Leaf :=
  match cache[normalise sniHost]? with
  | some leaf => (some leaf, cache)
  | none =>
    match leafValidity now >>= issueLeaf [normalise sniHost] with
    | .error _ => (none, cache)
    | .ok leaf => (some leaf, cache.insert (normalise sniHost) leaf)

/-- The calls one after another, each with what it returned. -/
def run : StrMap Leaf → List (Int × Str) → List ((Int × Str) × Option Leaf)
  | _, [] => []
  | cache, c :: cs =>
    let (leaf, cache') := certifiedKey cache c.1 c.2
    (c, leaf) :: run cache' cs

/-- The host's own certificate, as it is issued at a time. -/
structure IssuedAt (time : Int) (host : Str) (leaf : Leaf) : Prop where
  names : leaf.subjectAltNames = [(parseIp host).elim (.dnsName host) .ipAddress]
  notBefore : leaf.validity.notBefore = time - days 1
  notAfter : leaf.validity.notAfter = time + days 395

/-- The certificate names the host of the call and no other, and is valid at its time. -/
def Fits (c : Int × Str) (leaf : Leaf) : Prop :=
  leaf.subjectAltNames = [(parseIp (normalise c.2)).elim (.dnsName (normalise c.2)) .ipAddress] ∧
    leaf.validity.notBefore ≤ c.1 ∧ c.1 ≤ leaf.validity.notAfter

theorem sanOf_eq_ok {name : Str} {index : Nat} {san : SanType} (h : sanOf name index = .ok san) :
    san = (parseIp name).elim (.dnsName name) .ipAddress := by
  unfold sanOf at h
  split at h
  · next ip hip =>
    rw [hip]
    exact (Except.ok.inj h).symm
  · next hip =>
    split_ifs at h
    rw [hip]
    exact (Except.ok.inj h).symm

theorem issuedAt {time : Int} {host : Str} {leaf : Leaf}
    (h : leafValidity time >>= issueLeaf [host] = .ok leaf) : IssuedAt time host leaf := by
  obtain ⟨validity, hvalidity, h⟩ := bind_eq_ok_iff.1 h
  unfold leafValidity Validity.new at hvalidity
  split_ifs at hvalidity
  obtain rfl := Except.ok.inj hvalidity
  obtain ⟨sans, hsans, h⟩ := bind_eq_ok_iff.1 h
  obtain rfl := Except.ok.inj h
  obtain ⟨san, hsan, rfl⟩ : ∃ san, sanOf host 0 = .ok san ∧ [san] = sans := by
    simpa [mapM_cons, bind_eq_ok_iff] using hsans
  exact ⟨by rw [sanOf_eq_ok hsan], rfl, rfl⟩

/-- A certificate in the cache was issued for its host, before the calls to come. -/
def Kept (cache : StrMap Leaf) (calls : List (Int × Str)) : Prop :=
  ∀ host leaf, cache[host]? = some leaf → ∃ time, IssuedAt time host leaf ∧ ∀ c ∈ calls, time ≤ c.1

/-- What the cache has for the host of the call has not run out. -/
def Within (cache : StrMap Leaf) (c : Int × Str) : Prop :=
  ∀ leaf, cache[normalise c.2]? = some leaf → c.1 ≤ leaf.validity.notAfter

/-- A certificate issued at the first call has not run out at the second. -/
def Close (c d : Int × Str) : Prop := normalise c.2 = normalise d.2 → d.1 ≤ c.1 + days 395

variable {cache : StrMap Leaf} {c : Int × Str} {cs calls : List (Int × Str)}

theorem Kept.tail (h : Kept cache (c :: cs)) : Kept cache cs := by
  intro host leaf hleaf
  obtain ⟨time, hissued, htime⟩ := h host leaf hleaf
  exact ⟨time, hissued, (forall_mem_cons.1 htime).2⟩

theorem certifiedKey_spec {leaf : Leaf} (hkept : Kept cache (c :: cs)) (hlater : ∀ d ∈ cs, c.1 ≤ d.1)
    (hsome : (certifiedKey cache c.1 c.2).1 = some leaf) :
    Kept (certifiedKey cache c.1 c.2).2 cs ∧ (Fits c leaf ↔ Within cache c) ∧
      ∀ d, Within (certifiedKey cache c.1 c.2).2 d ↔ Close c d ∧ Within cache d := by
  unfold certifiedKey at hsome ⊢
  cases hc : cache[normalise c.2]? with
  | some found =>
    simp only [hc, Option.some.injEq] at hsome ⊢
    subst hsome
    obtain ⟨time, hissued, htime⟩ := hkept _ _ hc
    have hnow := htime c (mem_cons_self ..)
    refine ⟨hkept.tail, ⟨fun h l hl => ?_, fun h => ⟨hissued.names, ?_, h found hc⟩⟩, fun d => ?_⟩
    · obtain rfl := Option.some.inj (hc.symm.trans hl)
      exact h.2.2
    · rw [hissued.notBefore, days]
      omega
    · -- what has not run out now has not run out if it is issued now
      refine (and_iff_right_of_imp fun h hhost => ?_).symm
      have hd := h found (hhost ▸ hc)
      rw [hissued.notAfter] at hd
      omega
  | none =>
    cases hissue : leafValidity c.1 >>= issueLeaf [normalise c.2] with
    | error e => simp [hc, hissue] at hsome
    | ok issued =>
      simp only [hc, hissue, Option.some.injEq] at hsome ⊢
      subst hsome
      have hissued := issuedAt hissue
      refine ⟨fun host l hl => ?_, iff_of_true ⟨hissued.names, ?_, ?_⟩ ?_, fun d => ?_⟩
      · rw [OrdMap.getElem?_insert] at hl
        split_ifs at hl with hhost
        · obtain rfl := Option.some.inj hl
          exact ⟨c.1, hhost ▸ hissued, hlater⟩
        · exact hkept.tail host l hl
      · rw [hissued.notBefore, days]
        omega
      · rw [hissued.notAfter, days]
        omega
      · simp [Within, hc]
      · unfold Within Close
        rw [OrdMap.getElem?_insert]
        split_ifs with hhost
        · simp [hhost, hc, hissued.notAfter]
        · exact (and_iff_right fun heq => absurd heq.symm hhost).symm

theorem run_fits_iff (hkept : Kept cache calls) (hclock : calls.Pairwise (·.1 ≤ ·.1))
    (hall : ∀ p ∈ run cache calls, p.2.isSome) :
    (∀ p ∈ run cache calls, ∀ leaf, p.2 = some leaf → Fits p.1 leaf) ↔
      (∀ c ∈ calls, Within cache c) ∧ calls.Pairwise Close := by
  induction calls generalizing cache with
  | nil => simp [run]
  | cons c cs ih =>
    obtain ⟨hlater, hclock⟩ := pairwise_cons.1 hclock
    obtain ⟨hsome, hrest⟩ := forall_mem_cons.1 hall
    obtain ⟨leaf, hleaf⟩ : ∃ leaf, (certifiedKey cache c.1 c.2).1 = some leaf :=
      Option.isSome_iff_exists.1 hsome
    obtain ⟨hcs, hfits, hwithin⟩ := certifiedKey_spec hkept hlater hleaf
    simp only [run, forall_mem_cons, pairwise_cons, ih hcs hclock hrest, hwithin, forall_and, hleaf,
      Option.some.injEq, forall_eq', hfits]
    tauto

/-- From an empty cache and with every certificate issued: each certificate is that of the host it
was asked for and valid at the time, exactly if no call for a host comes more than 395 days after
another. -/
theorem certificates_current_iff (calls : List (Int × Str)) (hclock : calls.Pairwise (·.1 ≤ ·.1))
    (hall : ∀ p ∈ run ∅ calls, p.2.isSome) :
    (∀ p ∈ run ∅ calls, ∀ leaf, p.2 = some leaf → Fits p.1 leaf) ↔ calls.Pairwise Close := by
  rw [run_fits_iff (by simp [Kept]) hclock hall]
  simp [Within]

/-- Two spellings of a host, a day apart. -/
theorem certificates_current_day :
    [(0, "App.test".toList), (86400, "app.test.".toList)].Pairwise Close ∧
      ∀ p ∈ run ∅ [(0, "App.test".toList), (86400, "app.test.".toList)], ∀ leaf, p.2 = some leaf →
        Fits p.1 leaf := by
  have hclose : [(0, "App.test".toList), (86400, "app.test.".toList)].Pairwise Close := by
    unfold Close
    decide +kernel
  exact ⟨hclose, (certificates_current_iff _ (by decide) (by decide +kernel)).2 hclose⟩

/-- One host, 396 days apart. -/
theorem certificate_runs_out :
    ¬∀ p ∈ run ∅ [(0, "app.test".toList), (396 * 86400, "app.test".toList)], ∀ leaf,
      p.2 = some leaf → Fits p.1 leaf := by
  rw [run_fits_iff (by simp [Kept]) (by decide) (by decide +kernel)]
  unfold Close
  exact fun h => absurd h.2 (by decide +kernel)

end Orcker.Daemon.CertStore
