import Orcker.Core.Proxy

/-!
# Upstream targets as texts, and which of them are local

Whether a target is local decides whether its certificate is checked.
-/

namespace Base.IpAddr

/-- Loopback, private, link-local and unique-local addresses. -/
def IsLocal (ip : IpAddr) : Prop :=
  ip.InBlock (.v4 [127, 0, 0, 0]) 8 ∨ ip.InBlock (.v6 [0, 0, 0, 0, 0, 0, 0, 1]) 128 ∨
    ip.InBlock (.v4 [10, 0, 0, 0]) 8 ∨ ip.InBlock (.v4 [172, 16, 0, 0]) 12 ∨
    ip.InBlock (.v4 [192, 168, 0, 0]) 16 ∨ ip.InBlock (.v4 [169, 254, 0, 0]) 16 ∨
    ip.InBlock (.v6 [0xfc00, 0, 0, 0, 0, 0, 0, 0]) 7 ∨
    ip.InBlock (.v6 [0xfe80, 0, 0, 0, 0, 0, 0, 0]) 10

/-- `10.0.0.0/8`, `172.16.0.0/12`, `192.168.0.0/16` -/
def isPrivate : List Nat → Bool
  | [10, _, _, _] => true
  | [172, b, _, _] => 16 ≤ b && b ≤ 31
  | [192, 168, _, _] => true
  | _ => false

/-- `169.254.0.0/16` -/
def isLinkLocal : List Nat → Bool
  | [169, 254, _, _] => true
  | _ => false

end Base.IpAddr

namespace Orcker.Core

open Base IpAddr List

def endsHost (c : Char) : Bool :=
  c == '/' || c == '?' || c == '#' || c == '@' || c == '[' || c == ']' || isWhitespace c

variable {c : Char}

theorem isIpChar_graphic (h : isIpChar c = true) : 33 ≤ c.toNat ∧ c.toNat ≤ 126 := by
  simp only [isIpChar, Bool.or_eq_true, beq_iff_eq] at h
  rcases h with (h | rfl) | rfl
  · obtain ⟨v, hv⟩ := Option.isSome_iff_exists.1 h
    rw [digitVal, Option.filter_eq_some_iff] at hv
    have hsome := hv.1
    split at hsome
    · omega
    split at hsome
    · omega
    split at hsome
    · omega
    · cases hsome
  · decide
  · decide

theorem isHostChar_graphic (h : isHostChar c = true) : 33 ≤ c.toNat ∧ c.toNat ≤ 126 := by
  simp only [isHostChar, Bool.or_eq_true, beq_iff_eq] at h
  rcases h with ((h | rfl) | rfl) | rfl
  · have := isAlphanum_iff_toNat.1 h
    omega
  · decide
  · decide
  · decide

theorem endsHost_of_hostChar (h : isIpChar c = true ∨ isHostChar c = true) :
    endsHost c = false := by
  have hne : ∀ d : Char, (isIpChar d || isHostChar d) = false → c ≠ d := by
    rintro d hd rfl
    rw [Bool.or_eq_false_iff] at hd
    rcases h with h | h
    · rw [hd.1] at h
      cases h
    · rw [hd.2] at h
      cases h
  have hspace : isWhitespace c = false := by
    have hgraphic : 33 ≤ c.toNat ∧ c.toNat ≤ 126 := by
      rcases h with h | h
      · exact isIpChar_graphic h
      · exact isHostChar_graphic h
    exact isWhitespace_of_graphic hgraphic.1 hgraphic.2
  simp only [endsHost, hspace, Bool.or_false, Bool.or_eq_false_iff, beq_eq_false_iff_ne]
  exact ⟨⟨⟨⟨⟨hne _ (by decide), hne _ (by decide)⟩, hne _ (by decide)⟩, hne _ (by decide)⟩,
    hne _ (by decide)⟩, hne _ (by decide)⟩

/-- For every target (its fields carry what the parser checks, so it is one that some text parses
to): its text parses to it again, its port is not zero, its host is lowercase, not empty and has no
character that ends a host, and no other target has its text. -/
theorem targets_round_trip (t : UpstreamTarget) :
    UpstreamTarget.fromUrlStr t.display = .ok t ∧ t.port ≠ 0 ∧ t.host ≠ [] ∧
      lower t.host = t.host ∧ (∀ c ∈ t.host, endsHost c = false) ∧
      ∀ t' : UpstreamTarget, t'.display = t.display → t' = t := by
  refine ⟨t.fromUrlStr_display, t.port_pos.ne', isValidHost_ne_nil t.host_valid, t.host_lower,
    fun c hc => endsHost_of_hostChar (isValidHost_chars t.host_valid c hc), fun t' h => ?_⟩
  have ht' := t'.fromUrlStr_display
  rw [h, t.fromUrlStr_display, Except.ok.injEq] at ht'
  exact ht'.symm

/-- The host is compared with the TLD before it is read as an address, and a TLD of digits makes
some addresses names under it. -/
def UpstreamTarget.isLocal (t : UpstreamTarget) (tld : Str) : Bool :=
  if t.host = "localhost" then true
  else if t.host = tld || (t.host.dropSuffix? tld).any fun front => front.getLast? == some '.' then
    true
  else
    match parseIp t.host with
    | some (.v4 octets) =>
      (IpAddr.v4 octets).isLoopback || IpAddr.isPrivate octets || IpAddr.isLinkLocal octets
    | some (.v6 segments) =>
      if (IpAddr.v6 segments).isLoopback then true
      else
        let seg0 := segments.head?.getD 0
        seg0 &&& 0xfe00 == 0xfc00 || seg0 &&& 0xffc0 == 0xfe80
    | none => false

/-- The host reads as the TLD or a name under it. -/
def UnderTld (host tld : Str) : Prop := host = tld ∨ ∃ front, host = front ++ '.' :: tld

theorem underTld_iff {host tld : Str} :
    (host = tld || (host.dropSuffix? tld).any fun front => front.getLast? == some '.') = true ↔
      UnderTld host tld := by
  rw [Bool.or_eq_true, decide_eq_true_eq, Option.any_eq_true, UnderTld]
  refine or_congr_right ⟨?_, ?_⟩
  · rintro ⟨front, hfront, hdot⟩
    obtain ⟨init, rfl⟩ := getLast?_eq_some_iff.1 (beq_iff_eq.1 hdot)
    rw [dropSuffix?_eq_some] at hfront
    exact ⟨init, by rw [hfront]; simp⟩
  · rintro ⟨front, rfl⟩
    exact ⟨front ++ ['.'], dropSuffix?_eq_some.2 (by simp), by simp⟩

section Address

variable {octets segments : List Nat}

theorem isPrivate_iff {a b c d : Nat} : IpAddr.isPrivate [a, b, c, d] = true ↔
    a = 10 ∨ (a = 172 ∧ 16 ≤ b ∧ b ≤ 31) ∨ a = 192 ∧ b = 168 := by
  unfold isPrivate
  split
  · simp_all
  · simp_all
  · simp_all
  · rename_i hten hclassB hclassC
    refine iff_of_false Bool.false_ne_true ?_
    rintro (rfl | ⟨rfl, -⟩ | ⟨rfl, rfl⟩)
    · exact hten b c d rfl
    · exact hclassB b c d rfl
    · exact hclassC c d rfl

theorem isLinkLocal_iff {a b c d : Nat} :
    IpAddr.isLinkLocal [a, b, c, d] = true ↔ a = 169 ∧ b = 254 := by
  unfold isLinkLocal
  split
  · simp_all
  · rename_i hlink
    refine iff_of_false Bool.false_ne_true ?_
    rintro ⟨rfl, rfl⟩
    exact hlink c d rfl

theorem isLocal_v4_iff (h : (IpAddr.v4 octets).WellFormed) :
    (IpAddr.v4 octets).IsLocal ↔ ((IpAddr.v4 octets).isLoopback || IpAddr.isPrivate octets ||
      IpAddr.isLinkLocal octets) = true := by
  obtain ⟨hlen, hall⟩ := h
  obtain ⟨a, b, c, d, rfl⟩ : ∃ a b c d, octets = [a, b, c, d] := by
    match octets, hlen with
    | [a, b, c, d], _ => exact ⟨a, b, c, d, rfl⟩
  simp only [forall_mem_cons, not_mem_nil, false_implies, implies_true, and_true] at hall
  rw [Bool.or_eq_true, Bool.or_eq_true, isPrivate_iff, isLinkLocal_iff]
  simp only [IpAddr.IsLocal, IpAddr.InBlock, width, value, packed, foldl_cons,
    foldl_nil, isLoopback, head?_cons, beq_iff_eq, Option.some.injEq, true_and]
  omega

theorem isLocal_v6_iff (h : (IpAddr.v6 segments).WellFormed) :
    (IpAddr.v6 segments).IsLocal ↔ (IpAddr.v6 segments).isLoopback = true ∨
      segments.head?.getD 0 &&& 0xfe00 = 0xfc00 ∨ segments.head?.getD 0 &&& 0xffc0 = 0xfe80 := by
  obtain ⟨hlen, hall⟩ := h
  obtain ⟨s₀, s₁, s₂, s₃, s₄, s₅, s₆, s₇, rfl⟩ :
      ∃ s₀ s₁ s₂ s₃ s₄ s₅ s₆ s₇, segments = [s₀, s₁, s₂, s₃, s₄, s₅, s₆, s₇] := by
    match segments, hlen with
    | [s₀, s₁, s₂, s₃, s₄, s₅, s₆, s₇], _ => exact ⟨s₀, s₁, s₂, s₃, s₄, s₅, s₆, s₇, rfl⟩
  simp only [forall_mem_cons, not_mem_nil, false_implies, implies_true, and_true] at hall
  have hunique : s₀ &&& 0xfe00 = 0xfc00 ↔ s₀ / 512 = 126 := by
    rw [show 0xfe00 = (2 ^ 7 - 1) <<< 9 from rfl, land_mask, Nat.shiftLeft_eq]
    omega
  have hlink : s₀ &&& 0xffc0 = 0xfe80 ↔ s₀ / 64 = 1018 := by
    rw [show 0xffc0 = (2 ^ 10 - 1) <<< 6 from rfl, land_mask, Nat.shiftLeft_eq]
    omega
  simp only [head?_cons, Option.getD_some, hunique, hlink, isLoopback, beq_iff_eq,
    cons.injEq, and_true]
  simp only [IpAddr.IsLocal, IpAddr.InBlock, width, value, packed, foldl_cons,
    foldl_nil, true_and]
  omega

variable {t : UpstreamTarget} {tld : Str}

theorem isLocal_of_not_under {ip : IpAddr} (hip : parseIp t.host = some ip)
    (hunder : ¬UnderTld t.host tld) : t.isLocal tld = true ↔ ip.IsLocal := by
  have hlocalhost : t.host ≠ "localhost" := by
    intro heq
    rw [heq] at hip
    exact absurd (parseIp_chars hip 'l' (by decide)) (by decide)
  have hwf := (parseIp_spec hip).2
  unfold UpstreamTarget.isLocal
  rw [if_neg hlocalhost, if_neg (by rwa [underTld_iff]), hip]
  cases ip with
  | v4 octets => exact (isLocal_v4_iff hwf).symm
  | v6 segments =>
    rw [isLocal_v6_iff hwf]
    by_cases hloop : (v6 segments).isLoopback = true
    · simp [hloop]
    · simp [hloop]

theorem isLocal_of_under (h : UnderTld t.host tld) : t.isLocal tld = true := by
  unfold UpstreamTarget.isLocal
  rw [if_pos (underTld_iff.2 h), ite_self]

/-- A TLD with a character that no address has, such as `test`, has no address under it. -/
theorem not_underTld_of_mem {host : Str} {ip : IpAddr} {c : Char} (hip : parseIp host = some ip)
    (hc : c ∈ tld) (hchar : isIpChar c = false) : ¬UnderTld host tld := by
  intro h
  have hmem : c ∈ host := by
    rcases h with rfl | ⟨front, rfl⟩
    · exact hc
    · exact mem_append_right _ (mem_cons_of_mem _ hc)
  rw [parseIp_chars hip c hmem] at hchar
  cases hchar

end Address

/-- For every TLD and every target whose host is an address: the target counts as local exactly for
the local addresses, if and only if the address is local or its text is not under the TLD. -/
theorem isLocal_address_iff (tld : Tld) (t : UpstreamTarget) (ip : IpAddr)
    (hip : parseIp t.host = some ip) :
    (t.isLocal tld.text = true ↔ ip.IsLocal) ↔ (ip.IsLocal ∨ ¬UnderTld t.host tld.text) := by
  by_cases hunder : UnderTld t.host tld.text
  · simp [isLocal_of_under hunder, hunder]
  · simp [isLocal_of_not_under hip hunder, hunder]

def targetAt (host : Str) (h : isValidHost host = true ∧ lower host = host) : UpstreamTarget :=
  ⟨true, host, 443, h.1, h.2, by decide, by decide⟩

def publicTarget : UpstreamTarget := targetAt "8.8.8.1" (by decide +kernel)

/-- Under the default TLD, a public address is not local. -/
theorem isLocal_address_test :
    publicTarget.isLocal (default : Tld).text = true ↔ (IpAddr.v4 [8, 8, 8, 1]).IsLocal := by
  have hip : parseIp publicTarget.host = some (.v4 [8, 8, 8, 1]) := by decide +kernel
  refine (isLocal_address_iff default publicTarget _ hip).2 (.inr ?_)
  exact not_underTld_of_mem hip (show 't' ∈ (default : Tld).text by decide) (by decide)

/-- `1` is a TLD, and the public address reads as a name under it. -/
theorem isLocal_public_address :
    UpstreamTarget.fromUrlStr "https://8.8.8.1" = .ok publicTarget ∧
      (Tld.new "1").toOption.map Tld.text = some "1".toList ∧
      parseIp publicTarget.host = some (.v4 [8, 8, 8, 1]) ∧
      ¬(IpAddr.v4 [8, 8, 8, 1]).IsLocal ∧ publicTarget.isLocal "1" = true := by
  refine ⟨by decide +kernel, by decide +kernel, by decide +kernel, ?_, by decide +kernel⟩
  simp [IpAddr.IsLocal, IpAddr.InBlock, width, value, packed]

end Orcker.Core
