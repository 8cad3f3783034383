import Orcker.Core.RouterInvariant

/-!
# Host resolution

A `Host:` header value is cleaned, the TLD is stripped, and the sub-part looked up: an exact domain
first, then the single-label wildcard.
-/

namespace Orcker.Core

open Base List Domain

/-- A host name, or something that cannot be routed. -/
inductive HostKind where
  | hostname (host : Str)
  | unroutable
  deriving DecidableEq, Repr

/-- The host in front of an optional port; `none` when what follows the last
colon is not a number. -/
def stripPort (raw : Str) : Option Str :=
  match rsplitOnce ':' raw with
  | none => some raw
  | some (head, tail) => if tail.isEmpty || tail.all Char.isDigit then some head else none

def stripDot (host : Str) : Str := (host.dropSuffix? ['.']).getD host

/-- Cleans a `Host:` header value. -/
def normalise (raw : Str) : HostKind :=
  if raw.isEmpty then .unroutable
  else if raw.head? = some '[' then .unroutable
  else if !raw.all isAscii then .unroutable
  else
    match stripPort raw with
    | none => .unroutable
    | some host =>
      if host.isEmpty then .unroutable
      else
        let host := stripDot host
        if host.isEmpty then .unroutable
        else if host.head? = some '.' then .unroutable
        else .hostname (lower host)

/-- Resolve a `Host:` header value. -/
def SiteRouter.resolveRoute (r : SiteRouter) (host : Str) : Option Route :=
  match normalise host with
  | .unroutable => none
  | .hostname host =>
    if host = r.config.tld.text then none
    else
      match host.dropSuffix? r.config.dottedTld with
      | none => none
      | some sub =>
        if sub.isEmpty then none
        else
          match r.exact[sub]? with
          | some name => r.routeFor name
          | none =>
            match splitOnce '.' sub with
            | none => none
            | some (_, rest) =>
              match r.wildcards['*' :: '.' :: rest]? with
              | some name => r.routeFor name
              | none => none

def withoutPort (h : Str) : Str := (stripPort h).getD h

/-- Without port and trailing dot, in lower case. -/
def canonicalHost (h : Str) : Str := lower (stripDot (withoutPort h))

/-- The hosts normalisation does not refuse outright: ASCII, not an IPv6
literal, and with nothing but digits behind the last colon. -/
structure Routable (h : Str) : Prop where
  ascii : ∀ c ∈ h, isAscii c
  not_bracketed : h.head? ≠ some '['
  port_digits : ∀ head tail, h = head ++ ':' :: tail → ':' ∉ tail → ∀ c ∈ tail, c.isDigit

variable {h s : Str}

theorem stripPort_eq_self (h : ':' ∉ s) : stripPort s = some s := by
  unfold stripPort
  rw [rsplitOnce_eq_none_iff.2 h]

theorem stripPort_append {tail : Str} (hcolon : ':' ∉ tail) :
    stripPort (s ++ ':' :: tail) = if ∀ c ∈ tail, c.isDigit then some s else none := by
  unfold stripPort
  rw [rsplitOnce_append hcolon]
  cases tail <;> simp

theorem routable_iff :
    Routable h ↔ (∀ c ∈ h, isAscii c) ∧ h.head? ≠ some '[' ∧ stripPort h ≠ none := by
  constructor
  · rintro ⟨ha, hb, hp⟩
    refine ⟨ha, hb, ?_⟩
    cases hs : rsplitOnce ':' h with
    | none => simp [stripPort, hs]
    | some p =>
      obtain ⟨rfl, hcolon⟩ := rsplitOnce_eq_some_iff.1 hs
      rw [stripPort_append hcolon, if_pos (hp _ _ rfl hcolon)]
      simp
  · rintro ⟨ha, hb, hp⟩
    refine ⟨ha, hb, ?_⟩
    rintro head tail rfl hcolon
    by_contra hd
    exact hp (by rw [stripPort_append hcolon, if_neg hd])

theorem lower_head?_eq {d : Char} (hd : d.isAlpha = false) :
    (lower s).head? = some d ↔ s.head? = some d := by
  rw [lower, head?_map, map_toLower_eq_some_iff hd]

@[simp] theorem stripDot_nil : stripDot [] = [] := by decide

theorem normalise_eq_hostname_iff :
    normalise h = .hostname s ↔
      Routable h ∧ s = canonicalHost h ∧ s ≠ [] ∧ s.head? ≠ some '.' := by
  rw [routable_iff]
  unfold normalise canonicalHost withoutPort
  constructor
  · intro hn
    split at hn
    · cases hn
    split at hn
    · cases hn
    rename_i hbracket
    split at hn
    · cases hn
    rename_i hascii
    split at hn
    · cases hn
    rename_i host hport
    split at hn
    · cases hn
    simp only at hn
    split at hn
    · cases hn
    rename_i hne
    split at hn
    · cases hn
    rename_i hdot
    cases hn
    refine ⟨⟨by simpa using hascii, hbracket, by rw [hport]; simp⟩, by rw [hport]; rfl, ?_, ?_⟩
    · simpa using hne
    · rwa [ne_eq, lower_head?_eq (by decide)]
  · rintro ⟨⟨hascii, hbracket, hport⟩, rfl, hne, hdot⟩
    obtain ⟨host, hhost⟩ := Option.ne_none_iff_exists'.1 hport
    rw [hhost] at hne hdot ⊢
    simp only [Option.getD_some] at hne hdot ⊢
    rw [ne_eq, lower_eq_nil] at hne
    rw [ne_eq, lower_head?_eq (by decide)] at hdot
    have hraw : h ≠ [] := by
      rintro rfl
      rw [show stripPort [] = some [] from rfl] at hhost
      cases hhost
      exact hne stripDot_nil
    have hhostne : host ≠ [] := by
      rintro rfl
      exact hne stripDot_nil
    rw [if_neg (by simpa using hraw), if_neg hbracket, if_neg (by simpa using hascii)]
    simp only [List.isEmpty_iff, hhostne, if_false, hne, hdot]

def Route.name : Route → Str
  | .php site => site.name.text
  | .proxy p => p.name.text

namespace SiteRouter

/-- `name` answers `sub`: it holds it exactly, or nobody does and it holds the
wildcard one label up. -/
def Answers (r : SiteRouter) (name sub : Str) : Prop :=
  (∃ d : Domain, d.sub = sub ∧ d.isWildcard = false ∧ r.Holds name d) ∨
  ((∀ n (d : Domain), d.sub = sub → d.isWildcard = false → ¬r.Holds n d) ∧
    ∃ label rest, sub = label ++ '.' :: rest ∧ label ≠ [] ∧ '.' ∉ label ∧
      ∃ d : Domain, d.sub = '*' :: '.' :: rest ∧ r.Holds name d)

/-- The owner of a sub-part, or of the wildcard above it. -/
def subOwner (r : SiteRouter) (sub : Str) : Option Str :=
  match r.exact[sub]? with
  | some name => some name
  | none =>
    match splitOnce '.' sub with
    | none => none
    | some (_, rest) => r.wildcards['*' :: '.' :: rest]?

theorem isClaimant_iff_routeFor {r : SiteRouter} {n : Str} :
    r.IsClaimant n ↔ ∃ c, r.routeFor n = some c := by
  unfold routeFor IsClaimant
  rw [OrdMap.mem_iff_exists, OrdMap.mem_iff_exists]
  cases r.sites[n]? with
  | some site => simp
  | none => simp [Option.map_eq_some_iff]

theorem resolveRoute_eq (r : SiteRouter) (host : Str) :
    r.resolveRoute host =
      match normalise host with
      | .unroutable => none
      | .hostname host =>
        match host.dropSuffix? ('.' :: r.config.tld.text) with
        | none => none
        | some sub => if sub.isEmpty then none else (r.subOwner sub).bind r.routeFor := by
  unfold resolveRoute subOwner
  rw [r.config.dotted_eq]
  cases normalise host with
  | unroutable => rfl
  | hostname host =>
    simp only
    split
    · -- the bare TLD is too short to carry its own dotted form as a suffix
      rename_i htld
      cases hs : host.dropSuffix? ('.' :: r.config.tld.text) with
      | none => rfl
      | some sub =>
        rw [dropSuffix?_eq_some, htld] at hs
        have := congrArg length hs
        simp only [length_append, length_cons] at this
        omega
    · cases host.dropSuffix? ('.' :: r.config.tld.text) with
      | none => rfl
      | some sub =>
        simp only
        split
        · rfl
        · cases r.exact[sub]? with
          | some name => rfl
          | none =>
            simp only
            cases splitOnce '.' sub with
            | none => rfl
            | some p =>
              simp only
              cases r.wildcards['*' :: '.' :: p.2]? <;> rfl

end SiteRouter

namespace RouterInv

variable {r : SiteRouter} {sub n : Str}

theorem exact_iff (h : RouterInv r) :
    r.exact[sub]? = some n ↔ ∃ d : Domain, d.sub = sub ∧ d.isWildcard = false ∧ r.Holds n d := by
  refine ⟨h.exact_entry, ?_⟩
  rintro ⟨d, rfl, hw, hholds⟩
  have hl := (h.lookup_iff d n).2 hholds
  rwa [DomainIndex.lookup, hw, if_neg (by decide)] at hl

theorem wildcards_iff (h : RouterInv r) {rest : Str} :
    r.wildcards['*' :: '.' :: rest]? = some n ↔
      ∃ d : Domain, d.sub = '*' :: '.' :: rest ∧ r.Holds n d := by
  constructor
  · intro hk
    obtain ⟨d, hd, -, hholds⟩ := h.wildcard_entry hk
    exact ⟨d, hd, hholds⟩
  · rintro ⟨d, hd, hholds⟩
    have hl := (h.lookup_iff d n).2 hholds
    rwa [DomainIndex.lookup, if_pos (isWildcard_iff.2 ⟨rest, hd⟩), hd] at hl

theorem subOwner_eq_some_iff (h : RouterInv r) (hdot : sub.head? ≠ some '.') :
    r.subOwner sub = some n ↔ r.Answers n sub := by
  unfold SiteRouter.subOwner SiteRouter.Answers
  cases hexact : r.exact[sub]? with
  | some m =>
    have hm := h.exact_iff.1 hexact
    simp only [Option.some.injEq]
    constructor
    · rintro rfl
      exact .inl hm
    · rintro (hn | ⟨hnone, -⟩)
      · rw [← h.exact_iff, hexact] at hn
        exact Option.some.inj hn
      · obtain ⟨d, hd, hw, hholds⟩ := hm
        exact absurd hholds (hnone m d hd hw)
  | none =>
    have hnone : ∀ n (d : Domain), d.sub = sub → d.isWildcard = false → ¬r.Holds n d := by
      intro n d hd hw hholds
      have := h.exact_iff.2 ⟨d, hd, hw, hholds⟩
      rw [hexact] at this
      cases this
    have hleft : ¬∃ d : Domain, d.sub = sub ∧ d.isWildcard = false ∧ r.Holds n d := by
      rintro ⟨d, hd, hw, hholds⟩
      exact hnone n d hd hw hholds
    rw [or_iff_right hleft, and_iff_right hnone]
    cases hsplit : splitOnce '.' sub with
    | none =>
      rw [splitOnce_eq_none_iff] at hsplit
      simp only [reduceCtorEq, false_iff]
      rintro ⟨label, rest, rfl, -⟩
      exact hsplit (by simp)
    | some p =>
      obtain ⟨label, rest⟩ := p
      rw [splitOnce_eq_some_iff] at hsplit
      obtain ⟨rfl, hlabel⟩ := hsplit
      simp only
      rw [h.wildcards_iff]
      have hne : label ≠ [] := by
        rintro rfl
        exact hdot rfl
      constructor
      · rintro hd
        exact ⟨label, rest, rfl, hne, hlabel, hd⟩
      · rintro ⟨label', rest', heq, -, hlabel', hd⟩
        have := splitOnce_append (r := rest) hlabel
        rw [heq, splitOnce_append hlabel'] at this
        obtain ⟨rfl, rfl⟩ := Prod.mk.inj (Option.some.inj this)
        exact hd

theorem head?_ne_dot_of_answers (ha : r.Answers n sub) : sub.head? ≠ some '.' := by
  rcases ha with ⟨d, rfl, -, -⟩ | ⟨-, label, rest, rfl, hne, hlabel, -⟩
  · exact d.sub_head?_ne_dot
  · obtain ⟨c, label, rfl⟩ := exists_cons_of_ne_nil hne
    rintro hc
    rw [cons_append, head?_cons, Option.some.injEq] at hc
    exact hlabel (by simp [hc])

theorem routeFor_name (h : RouterInv r) {c : Route} (hc : r.routeFor n = some c) : c.name = n := by
  unfold SiteRouter.routeFor at hc
  split at hc
  · rename_i site hsite
    cases hc
    exact h.site_names n site hsite
  · obtain ⟨proxy, hproxy, rfl⟩ := Option.map_eq_some_iff.1 hc
    exact h.proxy_names n proxy hproxy

/-- What a host resolves to, without mentioning either index: the canonical host is a sub-part under
the TLD, and some claimant holds that sub-part, or nobody does and the claimant holds the wildcard
that replaces its first label. -/
theorem resolveRoute_eq_some_iff (h : RouterInv r) {host : Str} {c : Route} :
    r.resolveRoute host = some c ↔
      Routable host ∧ ∃ sub, canonicalHost host = sub ++ '.' :: r.config.tld.text ∧ sub ≠ [] ∧
        r.routeFor c.name = some c ∧ r.Answers c.name sub := by
  rw [SiteRouter.resolveRoute_eq]
  constructor
  · intro hr
    cases hn : normalise host with
    | unroutable =>
      rw [hn] at hr
      cases hr
    | hostname s =>
      obtain ⟨hroutable, rfl, hne, hdot⟩ := normalise_eq_hostname_iff.1 hn
      rw [hn] at hr
      simp only at hr
      split at hr
      · cases hr
      rename_i sub hsub
      rw [dropSuffix?_eq_some] at hsub
      split at hr
      · cases hr
      rename_i hsubne
      have hsubne : sub ≠ [] := by simpa using hsubne
      obtain ⟨n, howner, hroute⟩ := Option.bind_eq_some_iff.1 hr
      rw [hsub, List.head?_append_of_ne_nil _ hsubne] at hdot
      obtain rfl := h.routeFor_name hroute
      exact ⟨hroutable, sub, hsub, hsubne, hroute, (h.subOwner_eq_some_iff hdot).1 howner⟩
  · rintro ⟨hroutable, sub, hsub, hsubne, hroute, hans⟩
    have hdot := head?_ne_dot_of_answers hans
    have hn : normalise host = .hostname (canonicalHost host) := by
      refine normalise_eq_hostname_iff.2 ⟨hroutable, rfl, ?_, ?_⟩
      · rw [hsub]
        simp
      · rwa [hsub, List.head?_append_of_ne_nil _ hsubne]
    rw [hn]
    simp only [dropSuffix?_eq_some.2 hsub, List.isEmpty_iff, hsubne, if_false]
    rw [(h.subOwner_eq_some_iff hdot).2 hans]
    exact hroute

end RouterInv

theorem rsplitOnce_colon_lower (s : Str) :
    rsplitOnce ':' (lower s) = (rsplitOnce ':' s).map fun p => (lower p.1, lower p.2) := by
  cases hs : rsplitOnce ':' s with
  | none =>
    rw [rsplitOnce_eq_none_iff] at hs
    exact rsplitOnce_eq_none_iff.2 (by rwa [mem_lower_iff (by decide)])
  | some p =>
    obtain ⟨l, r⟩ := p
    rw [rsplitOnce_eq_some_iff] at hs
    obtain ⟨rfl, hr⟩ := hs
    refine rsplitOnce_eq_some_iff.2 ⟨by simp, ?_⟩
    rwa [mem_lower_iff (by decide)]

theorem all_isDigit_lower (s : Str) : (lower s).all Char.isDigit = s.all Char.isDigit := by
  have hd : ∀ c : Char, c.toLower.isDigit = c.isDigit := fun c => by
    rw [Bool.eq_iff_iff, isDigit_iff_toNat, isDigit_iff_toNat, toNat_toLower]
    split <;> omega
  simp [lower, all_map, Function.comp_def, hd]

theorem stripPort_lower (h : Str) : stripPort (lower h) = (stripPort h).map lower := by
  unfold stripPort
  rw [rsplitOnce_colon_lower]
  cases rsplitOnce ':' h with
  | none => rfl
  | some p =>
    simp only [Option.map_some, all_isDigit_lower, isEmpty_lower]
    split <;> rfl

theorem stripDot_append_dot (s : Str) : stripDot (s ++ ['.']) = s := by
  unfold stripDot
  rw [dropSuffix?_eq_some.2 rfl]
  rfl

theorem stripDot_eq_self (h : s.getLast? ≠ some '.') : stripDot s = s := getD_dropSuffix?_eq_self h

theorem stripDot_lower (s : Str) : stripDot (lower s) = lower (stripDot s) := by
  by_cases h : s.getLast? = some '.'
  · obtain ⟨t, rfl⟩ := getLast?_eq_some_iff.1 h
    rw [stripDot_append_dot, lower_append, show lower ['.'] = ['.'] from by decide,
      stripDot_append_dot]
  · rw [stripDot_eq_self h, stripDot_eq_self]
    rwa [lower, getLast?_map, ne_eq, map_toLower_eq_some_iff (by decide)]

theorem normalise_lower (h : Str) : normalise (lower h) = normalise h := by
  unfold normalise
  simp only [isEmpty_lower, lower_head?_eq (d := '[') (by decide),
    all_isAscii_lower, stripPort_lower]
  cases stripPort h with
  | none => rfl
  | some host =>
    simp only [Option.map_some, isEmpty_lower, stripDot_lower,
      lower_head?_eq (d := '.') (by decide), lower_lower]

theorem normalise_append_dot (hcolon : ':' ∉ h) (hdot : h.getLast? ≠ some '.') :
    normalise (h ++ ['.']) = normalise h := by
  cases h with
  | nil => decide
  | cons c h =>
    unfold normalise
    rw [stripPort_eq_self hcolon, stripPort_eq_self (s := c :: h ++ ['.']) (by simpa using hcolon)]
    simp only [stripDot_append_dot, stripDot_eq_self hdot]
    simp [show isAscii '.' = true by decide]

theorem normalise_append_port {digits : Str} (hcolon : ':' ∉ h)
    (hdigits : ∀ c ∈ digits, c.isDigit) : normalise (h ++ ':' :: digits) = normalise h := by
  have hfree : ':' ∉ digits := fun hc => absurd (hdigits ':' hc) (by decide)
  have hascii : digits.all isAscii = true := all_eq_true.2 fun c hc => by
    have := isDigit_iff_toNat.1 (hdigits c hc)
    rw [isAscii, decide_eq_true_eq]
    omega
  unfold normalise
  rw [stripPort_append hfree, if_pos hdigits, stripPort_eq_self hcolon]
  cases h with
  | nil => simp [hascii]
  | cons c h => simp [show isAscii ':' = true by decide, hascii]

namespace SiteRouter

theorem resolveRoute_congr (r : SiteRouter) {h h' : Str} (hn : normalise h = normalise h') :
    r.resolveRoute h = r.resolveRoute h' := by
  unfold resolveRoute
  rw [hn]

end SiteRouter

theorem canonicalHost_toFqdn (d : Domain) (t : Tld) :
    Routable (d.toFqdn t.text) ∧ canonicalHost (d.toFqdn t.text) = d.toFqdn t.text := by
  have hcolon : ':' ∉ d.toFqdn t.text := by
    have hd : ':' ∉ d.sub := notMem_sub (by decide) (by decide) (by decide)
    have ht : ':' ∉ t.text := fun hc => by
      rcases t.text_chars ':' hc with h | h
      · exact absurd h (by decide)
      · exact absurd h (by decide)
    simp [toFqdn, hd, ht]
  have hport := stripPort_eq_self hcolon
  have hlast : (d.toFqdn t.text).getLast? ≠ some '.' := by
    have hne : t.text ≠ [] := t.text_ne_nil
    rw [toFqdn, ← singleton_append, ← append_assoc,
      getLast?_append_of_ne_nil _ hne]
    exact t.text_getLast?_ne_dot
  refine ⟨routable_iff.2 ⟨fun c hc => ?_, ?_, by rw [hport]; simp⟩, ?_⟩
  · rw [toFqdn, mem_append, mem_cons] at hc
    rcases hc with hc | rfl | hc
    · exact all_eq_true.1 d.sub_all_isAscii c hc
    · decide
    · rcases t.text_chars c hc with rfl | h
      · decide
      · exact isLabelChar_isAscii h
  · rw [toFqdn, head?_append_of_ne_nil _ d.sub_ne_nil]
    intro hb
    exact notMem_sub (by decide) (by decide) (by decide) (mem_of_head? hb)
  · unfold canonicalHost withoutPort
    rw [hport, Option.getD_some, stripDot_eq_self hlast, toFqdn, lower_append, lower_cons,
      d.lower_sub, t.lower_text]
    rfl

theorem RouterInv.resolveRoute_toFqdn {r : SiteRouter} (h : RouterInv r) {d : Domain} {c : Route}
    (hw : d.isWildcard = false) (hc : r.routeFor c.name = some c) (hd : r.Holds c.name d) :
    r.resolveRoute (d.toFqdn r.config.tld.text) = some c := by
  obtain ⟨hroutable, hcanon⟩ := canonicalHost_toFqdn d r.config.tld
  exact h.resolveRoute_eq_some_iff.2
    ⟨hroutable, d.sub, hcanon, d.sub_ne_nil, hc, .inl ⟨d, rfl, hw, hd⟩⟩

/-- Host resolution of any router that calls have built. A routable host (ASCII,
not an IPv6 literal, digits behind its last colon) resolves to a claimant exactly
when its canonical form is a non-empty sub-part under the TLD that the claimant
answers; ASCII case, a trailing dot and a decimal port do not matter; and every
exact domain routes to its holder. -/
theorem SiteRouter.run_resolveRoute (config : RouterConfig) (ops : List RouterOp) :
    let r := (SiteRouter.new config).run ops
    (∀ (h : Str) (c : Route), r.resolveRoute h = some c ↔
      Routable h ∧ ∃ sub, canonicalHost h = sub ++ '.' :: r.config.tld.text ∧ sub ≠ [] ∧
        r.routeFor c.name = some c ∧ r.Answers c.name sub) ∧
    (∀ h h' : Str, lower h = lower h' → r.resolveRoute h = r.resolveRoute h') ∧
    (∀ h : Str, ':' ∉ h → h.getLast? ≠ some '.' →
      r.resolveRoute (h ++ ['.']) = r.resolveRoute h) ∧
    (∀ h digits : Str, ':' ∉ h → (∀ c ∈ digits, c.isDigit) →
      r.resolveRoute (h ++ ':' :: digits) = r.resolveRoute h) ∧
    (∀ (d : Domain) (c : Route), d.isWildcard = false → r.routeFor c.name = some c →
      r.Holds c.name d → r.resolveRoute (d.toFqdn r.config.tld.text) = some c) := by
  intro r
  have hinv : RouterInv r := (RouterInv.new config).run ops
  refine ⟨fun h c => hinv.resolveRoute_eq_some_iff, fun h h' heq => ?_, fun h hcolon hdot => ?_,
    fun h digits hcolon hdigits => ?_, fun d c hw hc hd => hinv.resolveRoute_toFqdn hw hc hd⟩
  · refine r.resolveRoute_congr ?_
    rw [← normalise_lower h, heq, normalise_lower]
  · exact r.resolveRoute_congr (normalise_append_dot hcolon hdot)
  · exact r.resolveRoute_congr (normalise_append_port hcolon hdigits)

def fooSite : Site := Site.ofName .parked ⟨"foo", by decide⟩ "/srv/foo" ⟨8, 3⟩

/-- A router whose site `foo` holds `foo` and `*.foo`. -/
def fooRouter : SiteRouter :=
  (SiteRouter.new (.withTld default)).run
    [.insertWithDomains fooSite [⟨"foo", by decide⟩, ⟨"*.foo", by decide⟩] ⟨"foo", by decide⟩]

/-- A host with a non-ASCII label has the form `foo` answers, yet resolves to
nothing: only routable hosts follow the pattern. -/
theorem SiteRouter.resolveRoute_nonAscii :
    canonicalHost "bär.foo.test" = "bär.foo".toList ++ '.' :: fooRouter.config.tld.text ∧
      fooRouter.routeFor "foo" = some (.php fooSite) ∧ fooRouter.Answers "foo" "bär.foo" ∧
      fooRouter.resolveRoute "bär.foo.test" = none := by
  have hinv : RouterInv fooRouter := (RouterInv.new _).run _
  refine ⟨by decide, by decide, ?_, by decide⟩
  exact (hinv.subOwner_eq_some_iff (by decide)).1 (by decide)

end Orcker.Core
