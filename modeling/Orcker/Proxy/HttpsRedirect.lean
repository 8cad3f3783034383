import Orcker.Core.Resolve

/-!
# The upgrade to HTTPS

The router and the redirect have a rule each for what the port of a `Host` value is: behind the last
colon, and behind the only colon.
-/

namespace Orcker.Proxy.Redirect

open Base Orcker.Core List

/-- Strip the port, if there is but one colon; an IPv6 literal ends at its bracket. -/
def stripPort (host : Str) : Str :=
  match host with
  | '[' :: rest =>
    match splitOnce ']' rest with
    | some (literal, _) => '[' :: literal ++ [']']
    | none => host
  | _ => if host.count ':' = 1 then host.takeWhile (· ≠ ':') else host

/-- The same host on the HTTPS port. -/
def buildRedirectUri (host pathAndQuery : Str) (httpsPort : Nat) : Str :=
  let hostLower := lower (stripPort host)
  let pq := if pathAndQuery.isEmpty then ['/'] else pathAndQuery
  if httpsPort = 443 then "https://" ++ hostLower ++ pq
  else "https://" ++ hostLower ++ ':' :: decimal httpsPort ++ pq

def endsAuthority (c : Char) : Bool := c = '/' || c = '?' || c = '#'

/-- The authority of an `https` URI, and what follows it. -/
def splitUri (uri : Str) : Option (Str × Str) :=
  (uri.dropPrefix? "https://").map fun rest =>
    (rest.takeWhile (!endsAuthority ·), rest.dropWhile (!endsAuthority ·))

/-- The authority names the port, or the port is the default one. -/
def CarriesPort (authority : Str) (port : Nat) : Prop :=
  match rsplitOnce ':' authority with
  | some (_, text) => text = decimal port
  | none => port = 443

/-- The redirect leads to the claimant on the port, and keeps the rest of the request. -/
def LeadsBack (r : SiteRouter) (host pathAndQuery : Str) (httpsPort : Nat) (c : Route) : Prop :=
  ∃ authority, splitUri (buildRedirectUri host pathAndQuery httpsPort) =
      some (authority, if pathAndQuery.isEmpty then ['/'] else pathAndQuery) ∧
    CarriesPort authority httpsPort ∧ r.resolveRoute authority = some c

/-- What stands between the scheme and the path. -/
def target (host : Str) (httpsPort : Nat) : Str :=
  lower (stripPort host) ++ if httpsPort = 443 then [] else ':' :: decimal httpsPort

theorem buildRedirectUri_eq (host pathAndQuery : Str) (httpsPort : Nat) :
    buildRedirectUri host pathAndQuery httpsPort = "https://" ++
      (target host httpsPort ++ if pathAndQuery.isEmpty then ['/'] else pathAndQuery) := by
  unfold buildRedirectUri target
  simp only
  split_ifs <;> simp

theorem span_append_iff {α : Type} {p : α → Bool} {l m rest : List α} (hne : rest ≠ []) :
    ((l ++ rest).takeWhile p = m ∧ (l ++ rest).dropWhile p = rest) ↔
      m = l ∧ (∀ a ∈ l, p a = true) ∧ ∀ a ∈ rest.head?, p a = false := by
  constructor
  · rintro ⟨rfl, hdrop⟩
    have hsplit := takeWhile_append_dropWhile (p := p) (l := l ++ rest)
    rw [hdrop] at hsplit
    have hl := append_cancel_right hsplit
    refine ⟨hl, fun a ha => mem_takeWhile_imp (hl ▸ ha), fun a ha => ?_⟩
    have hnot := head?_dropWhile_not p (l ++ rest)
    rw [hdrop, Option.mem_def.1 ha] at hnot
    simpa using hnot
  · rintro ⟨rfl, hl, hrest⟩
    rw [takeWhile_append_of_pos hl, dropWhile_append_of_pos hl]
    cases rest with
    | nil => exact absurd rfl hne
    | cons a rest =>
      have ha : ¬p a = true := by simpa using hrest a rfl
      rw [takeWhile_cons_of_neg ha, dropWhile_cons_of_neg ha]
      simp

variable {r : SiteRouter} {host : Str} {httpsPort : Nat} {c : Route}

theorem leadsBack_iff {pathAndQuery : Str} :
    LeadsBack r host pathAndQuery httpsPort c ↔
      (∀ ch ∈ target host httpsPort, endsAuthority ch = false) ∧
      (∀ ch ∈ pathAndQuery.head?, endsAuthority ch = true) ∧
      CarriesPort (target host httpsPort) httpsPort ∧
      r.resolveRoute (target host httpsPort) = some c := by
  have hne : (if pathAndQuery.isEmpty then ['/'] else pathAndQuery) ≠ [] := by
    split_ifs with h
    · simp
    · simpa using h
  have hhead : (∀ ch ∈ (if pathAndQuery.isEmpty then ['/'] else pathAndQuery).head?,
      (!endsAuthority ch) = false) ↔ ∀ ch ∈ pathAndQuery.head?, endsAuthority ch = true := by
    cases pathAndQuery with
    | nil => simp [endsAuthority]
    | cons ch rest => simp
  unfold LeadsBack splitUri
  rw [buildRedirectUri_eq, dropPrefix?_eq_some.2 rfl]
  simp only [Option.map_some, Option.some.injEq, Prod.mk.injEq, span_append_iff hne, hhead,
    Bool.not_eq_true', and_assoc, exists_eq_left]

theorem routable_of_resolveRoute (h : r.resolveRoute host = some c) : Routable host := by
  cases hn : normalise host with
  | unroutable =>
    rw [SiteRouter.resolveRoute_eq, hn] at h
    cases h
  | hostname s => exact (normalise_eq_hostname_iff.1 hn).1

theorem stripPort_of_routable (h : Routable host) :
    stripPort host = if host.count ':' = 1 then host.takeWhile (· ≠ ':') else host := by
  unfold stripPort
  split
  · exact absurd rfl h.not_bracketed
  · rfl

theorem target_colon_free {head : Str} (httpsPort : Nat) (hstrip : stripPort host = head)
    (hcolon : ':' ∉ head) :
    CarriesPort (target host httpsPort) httpsPort ∧
      normalise (target host httpsPort) = normalise head := by
  have hfree : ':' ∉ lower head := by rwa [mem_lower_iff (by decide)]
  rw [target, hstrip, CarriesPort]
  split_ifs with hport
  · rw [append_nil, rsplitOnce_eq_none_iff.2 hfree]
    exact ⟨hport, normalise_lower head⟩
  · rw [rsplitOnce_append (notMem_decimal (by decide)),
      normalise_append_port hfree fun c hc => isDigit_of_mem_decimal hc]
    exact ⟨rfl, normalise_lower head⟩

theorem resolveRoute_of_port_left {head tail : Str} (hhost : host = head ++ ':' :: tail)
    (htail : ∀ c ∈ tail, c.isDigit = true) :
    r.resolveRoute (lower host ++ ':' :: decimal httpsPort) = none := by
  have hlower : lower host = lower head ++ ':' :: lower tail := by
    rw [hhost, lower_append, lower_cons]
    rfl
  have hdot : '.' ∉ lower tail := by
    rw [mem_lower_iff (by decide)]
    exact fun h => absurd (htail '.' h) (by decide)
  have hlast : (lower host).getLast? ≠ some '.' := by
    rw [hlower, getLast?_append_of_ne_nil _ (by simp)]
    intro h
    rcases mem_cons.1 (mem_of_getLast? h) with h | h
    · cases h
    · exact hdot h
  rw [SiteRouter.resolveRoute_eq]
  cases hn : normalise (lower host ++ ':' :: decimal httpsPort) with
  | unroutable => rfl
  | hostname s =>
    obtain ⟨-, hs, -⟩ := normalise_eq_hostname_iff.1 hn
    have hcanon : s = lower host := by
      rw [hs, canonicalHost, withoutPort, stripPort_append (notMem_decimal (by decide)),
        if_pos fun c => isDigit_of_mem_decimal, Option.getD_some, stripDot_eq_self hlast,
        lower_lower]
    simp only
    cases hsub : s.dropSuffix? ('.' :: r.config.tld.text) with
    | none => rfl
    | some sub =>
      -- Of two ends of one text one is an end of the other: the dot or the colon is misplaced.
      rw [dropSuffix?_eq_some, hcanon, hlower] at hsub
      have hone : ':' :: lower tail <:+ lower head ++ ':' :: lower tail := suffix_append _ _
      have htwo : '.' :: r.config.tld.text <:+ lower head ++ ':' :: lower tail :=
        hsub ▸ suffix_append _ _
      exfalso
      rcases suffix_or_suffix_of_suffix hone htwo with h | h
      · rcases suffix_cons_iff.1 h with h | h
        · cases h
        · rcases r.config.tld.text_chars ':' (h.subset mem_cons_self) with h | h
          · cases h
          · exact absurd h (by decide)
      · rcases suffix_cons_iff.1 h with h | h
        · cases h
        · exact hdot (h.subset mem_cons_self)

theorem endsAuthority_lower_iff {s : Str} :
    (∀ ch ∈ lower s, endsAuthority ch = false) ↔ ∀ ch ∈ s, endsAuthority ch = false := by
  have hch (ch : Char) : endsAuthority ch.toLower = endsAuthority ch := by
    unfold endsAuthority
    simp only [toLower_eq_iff (d := '/') (by decide),
      toLower_eq_iff (d := '?') (by decide),
      toLower_eq_iff (d := '#') (by decide)]
  simp [lower, hch]

theorem endsAuthority_of_isDigit {ch : Char} (h : ch.isDigit = true) :
    endsAuthority ch = false := by
  cases hch : endsAuthority ch with
  | false => rfl
  | true =>
    simp only [endsAuthority, Bool.or_eq_true, decide_eq_true_eq] at hch
    rcases hch with (rfl | rfl) | rfl <;> cases h

theorem endsAuthority_target_iff :
    (∀ ch ∈ target host httpsPort, endsAuthority ch = false) ↔
      ∀ ch ∈ stripPort host, endsAuthority ch = false := by
  have hport : ∀ ch ∈ (if httpsPort = 443 then [] else ':' :: decimal httpsPort),
      endsAuthority ch = false := by
    intro ch hch
    split_ifs at hch
    · cases hch
    · rcases mem_cons.1 hch with rfl | hch
      · decide
      · exact endsAuthority_of_isDigit (isDigit_of_mem_decimal hch)
  rw [target, forall_mem_append, endsAuthority_lower_iff, and_iff_left hport]

/-- For every router, every host it resolves, every port and every text behind the host: the
redirect carries the port, leads back to the claimant and keeps the text exactly if the host has
none of the marks that end an authority, the text is empty or begins with one, and the host has at
most one colon, or both ports are the default one. -/
theorem redirect_leads_back_iff (r : SiteRouter) (host pathAndQuery : Str) (httpsPort : Nat)
    (c : Route) (h : r.resolveRoute host = some c) :
    LeadsBack r host pathAndQuery httpsPort c ↔
      (∀ ch ∈ host, endsAuthority ch = false) ∧
      (∀ ch ∈ pathAndQuery.head?, endsAuthority ch = true) ∧
      (host.count ':' ≤ 1 ∨ httpsPort = 443 ∧ ":443".toList <:+ host) := by
  have hroutable := routable_of_resolveRoute h
  have hstrip := stripPort_of_routable hroutable
  rw [leadsBack_iff, endsAuthority_target_iff]
  cases hsplit : rsplitOnce ':' host with
  | none =>
    -- no port
    have hcolon := rsplitOnce_eq_none_iff.1 hsplit
    have hcount : host.count ':' = 0 := count_eq_zero.2 hcolon
    rw [hcount, if_neg (by decide)] at hstrip
    obtain ⟨hcarries, hnorm⟩ := target_colon_free httpsPort hstrip hcolon
    rw [hstrip, r.resolveRoute_congr hnorm, hcount]
    simp [hcarries, h]
  | some parts =>
    obtain ⟨hhost, hfree⟩ := rsplitOnce_eq_some_iff.1 hsplit
    have hdigits := hroutable.port_digits _ _ hhost hfree
    have hcount : host.count ':' = parts.1.count ':' + 1 := by
      rw [hhost, count_append, count_cons_self, count_eq_zero.2 hfree]
    by_cases hcolon : ':' ∈ parts.1
    · -- two colons: what the router takes for the port is left in place
      have hpos := count_pos_iff.2 hcolon
      rw [if_neg (by omega)] at hstrip
      rw [hstrip]
      refine and_congr_right fun _ => and_congr_right fun _ => ?_
      rw [or_iff_right (by omega)]
      by_cases hport : httpsPort = 443
      · have htarget : target host httpsPort = lower host := by
          rw [target, hstrip, if_pos hport, append_nil]
        have hresolve : r.resolveRoute (lower host) = some c := by
          rw [r.resolveRoute_congr (normalise_lower host), h]
        have hlower : lower parts.2 = parts.2 := lower_eq_self fun ch hch => by
          have hdigit := isDigit_iff_toNat.1 (hdigits ch hch)
          rw [char_eq_iff_toNat, toNat_toLower, if_neg (by omega)]
        rw [htarget, CarriesPort, rsplitOnce_colon_lower, hsplit, and_iff_left hresolve,
          and_iff_right hport]
        simp only [Option.map_some, hlower, hport]
        constructor
        · intro heq
          rw [hhost, heq]
          exact suffix_append _ _
        · rintro ⟨front, hfront⟩
          have hsame := rsplitOnce_append (l := front) (c := ':') (r := "443".toList) (by decide)
          rw [show front ++ ':' :: "443".toList = host from hfront, hsplit] at hsame
          rw [Option.some.inj hsame]
          show "443".toList = decimal 443
          decide
      · have htarget : target host httpsPort = lower host ++ ':' :: decimal httpsPort := by
          rw [target, hstrip, if_neg hport]
        rw [htarget, resolveRoute_of_port_left hhost hdigits]
        simp [hport]
    · have hzero : parts.1.count ':' = 0 := count_eq_zero.2 hcolon
      have hstrip' : stripPort host = parts.1 := by
        rw [hstrip, if_pos (by omega), hhost, takeWhile_append_of_pos,
          takeWhile_cons_of_neg (by simp), append_nil]
        intro ch hch
        simpa using fun heq : ch = ':' => hcolon (heq ▸ hch)
      obtain ⟨hcarries, hnorm⟩ := target_colon_free httpsPort hstrip' hcolon
      have hresolve : r.resolveRoute (target host httpsPort) = some c := by
        rw [r.resolveRoute_congr hnorm, ← h, hhost]
        exact (r.resolveRoute_congr (normalise_append_port hcolon hdigits)).symm
      have hmarks : (∀ ch ∈ parts.1, endsAuthority ch = false) ↔
          ∀ ch ∈ host, endsAuthority ch = false := by
        rw [hhost, forall_mem_append, forall_mem_cons]
        simp only [show endsAuthority ':' = false from rfl, true_and, iff_self_and]
        exact fun _ ch hch => endsAuthority_of_isDigit (hdigits ch hch)
      rw [hstrip', hmarks]
      simp [hcarries, hresolve, hcount, hzero]

theorem redirect_leads_back_foo :
    LeadsBack fooRouter "X.foo.test.:80" "/a?b" 8443 (.php fooSite) :=
  (redirect_leads_back_iff fooRouter "X.foo.test.:80" "/a?b" 8443 (.php fooSite)
    (by decide +kernel)).2 ⟨by simp [endsAuthority], by simp [endsAuthority], .inl (by decide)⟩

/-- The redirect keeps the port of the request and appends its own. -/
theorem redirect_leads_astray :
    fooRouter.resolveRoute "x:y.foo.test:80" = some (.php fooSite) ∧
      buildRedirectUri "x:y.foo.test:80" "/" 8443 = "https://x:y.foo.test:80:8443/".toList ∧
      ¬LeadsBack fooRouter "x:y.foo.test:80" "/" 8443 (.php fooSite) := by
  refine ⟨by decide +kernel, by decide +kernel, fun hback => ?_⟩
  have hnone : fooRouter.resolveRoute (target "x:y.foo.test:80" 8443) = none := by
    decide +kernel
  rw [leadsBack_iff, hnone] at hback
  exact absurd hback.2.2.2 (by simp)

end Orcker.Proxy.Redirect
