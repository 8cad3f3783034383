import Orcker.Base.Ip
import Orcker.Base.Path
import Orcker.Core.Name

/-!
# Proxy targets, proxy rules, route rules and whole-host proxies

The targets and rules carry what their constructors check, so each re-parses to itself from the text
it is stored as.
-/

namespace Orcker.Core

open Base List

/-- `[A-Za-z0-9._-]` -/
def isHostChar (c : Char) : Bool := c.isAlphanum || c == '-' || c == '.' || c == '_'

/-- An IP literal or a plain DNS host name. -/
def isValidHost (host : Str) : Bool :=
  if (parseIp host).isSome then true
  else if host.isEmpty || host.head? == some '.' || host.getLast? == some '.' then false
  else host.all isHostChar

/-- Split off the port of `host:port`, `[v6]:port`, or a host without one. -/
def splitHostPort (rest : Str) (defaultPort : Nat) : Option (Str × Nat) :=
  match rest.dropPrefix? ['['] with
  | some inner =>
    match splitOnce ']' inner with
    | none => none
    | some (host, after) =>
      if after.isEmpty then some (host, defaultPort)
      else
        match after.dropPrefix? [':'] with
        | none => none
        | some digits => (parseUInt 65535 digits).map fun port => (host, port)
  | none =>
    match rest.count ':' with
    | 0 => some (rest, defaultPort)
    | 1 =>
      match rsplitOnce ':' rest with
      | none => none
      | some (host, digits) => (parseUInt 65535 digits).map fun port => (host, port)
    | _ => none

@[simp] theorem isHostChar_toLower (c : Char) : isHostChar c.toLower = isHostChar c := by
  rw [Bool.eq_iff_iff]
  simp only [isHostChar, isAlphanum_toLower, Bool.or_eq_true, beq_iff_eq]
  rw [toLower_eq_iff (by decide), toLower_eq_iff (by decide), toLower_eq_iff (by decide)]

variable {host : Str}

theorem isValidHost_lower (h : isValidHost host) : isValidHost (lower host) := by
  unfold isValidHost at h ⊢
  rw [parseIp_lower]
  split at h
  · rename_i hip
    rw [if_pos hip]
  rename_i hip
  rw [if_neg hip]
  split at h
  · cases h
  rename_i hends
  rw [if_neg]
  · simpa [lower, all_map, Function.comp_def] using h
  · simpa [lower, map_toLower_eq_some_iff (d := '.') (by decide)] using hends

theorem isValidHost_chars (h : isValidHost host) : ∀ c ∈ host, isIpChar c ∨ isHostChar c := by
  unfold isValidHost at h
  split at h
  · rename_i hip
    obtain ⟨ip, hip⟩ := Option.isSome_iff_exists.1 hip
    exact fun c hc => .inl (parseIp_chars hip c hc)
  split at h
  · cases h
  · exact fun c hc => .inr (all_eq_true.1 h c hc)

theorem notMem_of_isValidHost {c : Char} (h : isValidHost host)
    (hc : (isIpChar c || isHostChar c) = false) : c ∉ host := by
  intro hmem
  rw [Bool.or_eq_false_iff] at hc
  rcases isValidHost_chars h c hmem with h' | h'
  · rw [hc.1] at h'
    cases h'
  · rw [hc.2] at h'
    cases h'

theorem isValidHost_ne_nil (h : isValidHost host) : host ≠ [] := by
  rintro rfl
  exact absurd h (by decide)

/-- A validated `http[s]://host:port` forwarding target. -/
structure UpstreamTarget where
  secure : Bool
  host : Str
  port : Nat
  host_valid : isValidHost host
  host_lower : lower host = host
  port_pos : 0 < port
  port_le : port ≤ 65535
  deriving DecidableEq

namespace UpstreamTarget

theorem splitHostPort_le {rest host : Str} {defaultPort port : Nat}
    (hd : defaultPort ≤ 65535) (h : splitHostPort rest defaultPort = some (host, port)) :
    port ≤ 65535 := by
  have hmap : ∀ {digits host' : Str},
      (parseUInt 65535 digits).map (fun port => (host', port)) = some (host, port) →
      port ≤ 65535 := by
    intro digits host' hmap
    obtain ⟨n, hn, heq⟩ := Option.map_eq_some_iff.1 hmap
    obtain ⟨-, rfl⟩ := Prod.mk.inj heq
    exact parseUInt_le hn
  unfold splitHostPort at h
  split at h
  · split at h
    · cases h
    split at h
    · obtain ⟨-, rfl⟩ := Prod.mk.inj (Option.some.inj h)
      exact hd
    split at h
    · cases h
    · exact hmap h
  · split at h
    · obtain ⟨-, rfl⟩ := Prod.mk.inj (Option.some.inj h)
      exact hd
    · split at h
      · cases h
      · exact hmap h
    · cases h

/-- Parse a target. The host is stored lowercased; the port defaults by scheme. -/
def fromUrlStr (input : Str) : Except CoreError UpstreamTarget :=
  let raw := trim input
  if raw.isEmpty then .error (.invalidUpstreamTarget input .empty)
  else
    match splitOnceStr "://" raw with
    | none => .error (.invalidUpstreamTarget input .missingScheme)
    | some (scheme, rest) =>
      let secure? :=
        if lower scheme = "http" then some false
        else if lower scheme = "https" then some true
        else none
      match secure? with
      | none => .error (.invalidUpstreamTarget input .unsupportedScheme)
      | some secure =>
        if rest.contains '@' then .error (.invalidUpstreamTarget input .hasCredentials)
        else if rest.contains '/' || rest.contains '?' || rest.contains '#' then
          .error (.invalidUpstreamTarget input .hasPathOrQuery)
        else
          match hs : splitHostPort rest (if secure then 443 else 80) with
          | none => .error (.invalidUpstreamTarget input .invalidPort)
          | some (host, port) =>
            if host.isEmpty then .error (.invalidUpstreamTarget input .missingHost)
            else if hv : isValidHost host then
              if hp : port = 0 then .error (.invalidUpstreamTarget input .invalidPort)
              else
                .ok {
                  secure
                  host := lower host
                  port
                  host_valid := isValidHost_lower hv
                  host_lower := lower_lower host
                  port_pos := Nat.pos_of_ne_zero hp
                  port_le := splitHostPort_le (by split <;> decide) hs }
            else .error (.invalidUpstreamTarget input .invalidHost)

/-- `host:port`, an IPv6 host bracketed, the port always written. -/
def authority (t : UpstreamTarget) : Str :=
  if t.host.contains ':' then '[' :: t.host ++ ']' :: ':' :: decimal t.port
  else t.host ++ ':' :: decimal t.port

def scheme (t : UpstreamTarget) : Str := if t.secure then "https" else "http"

/-- The URL of a target. -/
def display (t : UpstreamTarget) : Str := t.scheme ++ ("://" ++ t.authority)

theorem notMem_authority {t : UpstreamTarget} {c : Char}
    (hhost : (isIpChar c || isHostChar c) = false) (hpunct : c ∉ ['[', ']', ':'])
    (hdigit : c.isDigit = false) : c ∉ t.authority := by
  have h1 := notMem_of_isValidHost t.host_valid hhost
  have h2 := notMem_decimal hdigit (n := t.port)
  simp only [mem_cons, not_or, not_mem_nil, not_false_eq_true, and_true] at hpunct
  unfold authority
  split <;> simp [h1, h2, hpunct]

theorem splitHostPort_authority (t : UpstreamTarget) (defaultPort : Nat) :
    splitHostPort t.authority defaultPort = some (t.host, t.port) := by
  have hport : parseUInt 65535 (decimal t.port) = some t.port := parseUInt_decimal t.port_le
  have hbracket : ']' ∉ t.host := notMem_of_isValidHost t.host_valid (by decide)
  unfold authority splitHostPort
  by_cases hcolon : ':' ∈ t.host
  · rw [if_pos (by simpa using hcolon)]
    rw [show ('[' :: t.host ++ ']' :: ':' :: decimal t.port).dropPrefix? ['['] =
      some (t.host ++ ']' :: ':' :: decimal t.port) from dropPrefix?_eq_some.2 rfl]
    simp only [splitOnce_append hbracket, isEmpty_cons, Bool.false_eq_true, if_false]
    rw [show (':' :: decimal t.port).dropPrefix? [':'] = some (decimal t.port) from
      dropPrefix?_eq_some.2 rfl]
    simp [hport]
  · rw [if_neg (by simpa using hcolon)]
    have hopen : (t.host ++ ':' :: decimal t.port).dropPrefix? ['['] = none := by
      cases hp : (t.host ++ ':' :: decimal t.port).dropPrefix? ['['] with
      | none => rfl
      | some rest =>
        rw [dropPrefix?_eq_some] at hp
        obtain ⟨c, cs, hcs⟩ := exists_cons_of_ne_nil (isValidHost_ne_nil t.host_valid)
        rw [hcs, cons_append, cons_append, cons.injEq] at hp
        exact absurd (by rw [hcs, hp.1]; simp)
          (notMem_of_isValidHost t.host_valid (by decide : (isIpChar '[' || isHostChar '[') = false))
    have hdigits : ':' ∉ decimal t.port := notMem_decimal (by decide)
    have hcount : (t.host ++ ':' :: decimal t.port).count ':' = 1 := by
      rw [count_append, count_eq_zero_of_not_mem hcolon, count_cons_self,
        count_eq_zero_of_not_mem hdigits]
    simp only [hopen, hcount, rsplitOnce_append hdigits, hport, Option.map_some]

theorem scheme_ne_nil (t : UpstreamTarget) : t.scheme ≠ [] := by
  unfold scheme
  split <;> decide

theorem trim_display (t : UpstreamTarget) : trim t.display = t.display := by
  refine trim_eq_self ?_ ?_
  · intro c hc
    rw [display, head?_append_of_ne_nil _ t.scheme_ne_nil] at hc
    have hh : c = 'h' := by
      unfold scheme at hc
      split at hc <;> exact (Option.some.inj hc).symm
    rw [hh]
    decide
  · intro c hc
    obtain ⟨front, hfront⟩ : ∃ front, t.authority = front ++ decimal t.port := by
      unfold authority
      split
      · exact ⟨'[' :: t.host ++ [']', ':'], by simp⟩
      · exact ⟨t.host ++ [':'], by simp⟩
    rw [display, hfront, ← append_assoc, ← append_assoc,
      getLast?_append_of_ne_nil _ (decimal_ne_nil t.port)] at hc
    have hdigit := isDigit_iff_toNat.1 (isDigit_of_mem_decimal (mem_of_getLast? hc))
    exact isWhitespace_of_graphic (by omega) (by omega)

theorem secure_of_scheme (t : UpstreamTarget) :
    (if lower t.scheme = "http" then some false
      else if lower t.scheme = "https" then some true else none) = some t.secure := by
  unfold scheme
  cases t.secure <;> decide

/-- The URL of a target is parsed back to it. -/
theorem fromUrlStr_display (t : UpstreamTarget) : fromUrlStr t.display = .ok t := by
  have hne : t.display.isEmpty = false := by
    simp [display, t.scheme_ne_nil]
  have hsplit : splitOnceStr "://" t.display = some (t.scheme, t.authority) := by
    refine splitOnceStr_append (c := ':') t.authority ?_
    unfold scheme
    split <;> decide
  have hnot : ∀ c, (isIpChar c || isHostChar c) = false → c ∉ ['[', ']', ':'] →
      c.isDigit = false → t.authority.contains c = false := fun c h1 h2 h3 => by
    rw [Bool.eq_false_iff, ne_eq, contains_iff_mem]
    exact notMem_authority h1 h2 h3
  unfold fromUrlStr
  simp only [trim_display, hne, Bool.false_eq_true, if_false, hsplit, secure_of_scheme,
    hnot '@' (by decide) (by decide) (by decide), hnot '/' (by decide) (by decide) (by decide),
    hnot '?' (by decide) (by decide) (by decide), hnot '#' (by decide) (by decide) (by decide),
    Bool.or_self]
  split
  · rename_i hs
    rw [splitHostPort_authority] at hs
    cases hs
  · rename_i host port hs
    have hs' := hs
    rw [splitHostPort_authority] at hs'
    obtain ⟨rfl, rfl⟩ := Prod.mk.inj (Option.some.inj hs')
    rw [if_neg (by simpa using isValidHost_ne_nil t.host_valid), dif_pos t.host_valid,
      dif_neg t.port_pos.ne']
    simp only [t.host_lower]

end UpstreamTarget

/-- The checks on a rule's path prefix, which proxy rules and route rules run in
the same order and report under their own errors. -/
def checkPathPrefix {ε : Type} (empty notAbsolute control dotDot : ε) (p : Str) : Except ε Unit :=
  if p.isEmpty then .error empty
  else if p.head? ≠ some '/' then .error notAbsolute
  else if p.any (fun c => isControl c || c == ' ' || c == '?' || c == '#') then .error control
  else if (p.splitOn '/').any (· == ['.', '.']) then .error dotDot
  else .ok ()

/-- What a rule's prefix has to be. -/
structure IsPathPrefix (p : Str) : Prop where
  absolute : p.head? = some '/'
  chars : ∀ c ∈ p, (isControl c || c == ' ' || c == '?' || c == '#') = false
  segments : ['.', '.'] ∉ p.splitOn '/'

theorem IsPathPrefix.ne_nil {p : Str} (h : IsPathPrefix p) : p ≠ [] := by
  rintro rfl
  cases h.absolute

theorem checkPathPrefix_eq_ok_iff {ε : Type} {empty notAbsolute control dotDot : ε} {p : Str} :
    checkPathPrefix empty notAbsolute control dotDot p = .ok () ↔ IsPathPrefix p := by
  unfold checkPathPrefix
  constructor
  · intro h
    split at h
    · cases h
    split at h
    · cases h
    split at h
    · cases h
    split at h
    · cases h
    rename_i habs hchars hsegs
    refine ⟨not_not.1 habs, fun c hc => ?_, by simpa using hsegs⟩
    exact Bool.eq_false_iff.2 (any_eq_false.1 (Bool.eq_false_iff.2 hchars) c hc)
  · rintro ⟨habs, hchars, hsegs⟩
    rw [if_neg (by rintro h; rw [isEmpty_iff.1 h] at habs; cases habs),
      if_neg (not_not_intro habs), if_neg, if_neg (by simpa using hsegs)]
    rw [Bool.not_eq_true, any_eq_false]
    exact fun c hc => by simpa using hchars c hc

/-- The reversed text without leading slashes, the last character excepted. -/
def dropSlashes : Str → Str
  | '/' :: c :: s => dropSlashes (c :: s)
  | s => s

/-- Drop trailing slashes, but never the only character. -/
def normalizePrefix (p : Str) : Str := (dropSlashes p.reverse).reverse

theorem dropSlashes_eq (s : Str) : ∃ k, s = List.replicate k '/' ++ dropSlashes s := by
  fun_induction dropSlashes s with
  | case1 c s ih =>
    obtain ⟨k, hk⟩ := ih
    exact ⟨k + 1, by rw [replicate_succ, cons_append, ← hk]⟩
  | case2 s => exact ⟨0, rfl⟩

theorem dropSlashes_ne_nil {s : Str} (h : s ≠ []) : dropSlashes s ≠ [] := by
  fun_induction dropSlashes s with
  | case1 c s ih => exact ih (by simp)
  | case2 s => exact h

theorem dropSlashes_idem (s : Str) : dropSlashes (dropSlashes s) = dropSlashes s := by
  fun_induction dropSlashes s with
  | case1 c s ih => exact ih
  | case2 s hs => exact dropSlashes.eq_2 s hs

theorem normalizePrefix_idem (p : Str) :
    normalizePrefix (normalizePrefix p) = normalizePrefix p := by
  simp [normalizePrefix, dropSlashes_idem]

theorem normalizePrefix_append (p : Str) : ∃ k, p = normalizePrefix p ++ List.replicate k '/' := by
  obtain ⟨k, hk⟩ := dropSlashes_eq p.reverse
  refine ⟨k, ?_⟩
  have := congrArg reverse hk
  rwa [reverse_reverse, reverse_append, reverse_replicate] at this

theorem IsPathPrefix.normalize {p : Str} (h : IsPathPrefix p) : IsPathPrefix (normalizePrefix p) := by
  obtain ⟨k, hk⟩ := normalizePrefix_append p
  have hne : normalizePrefix p ≠ [] := by
    intro hnil
    exact dropSlashes_ne_nil (s := p.reverse) (by simpa using h.ne_nil)
      (by simpa [normalizePrefix] using hnil)
  refine ⟨?_, fun c hc => h.chars c ?_, fun hseg => h.segments ?_⟩
  · have := h.absolute
    rwa [hk, head?_append_of_ne_nil _ hne] at this
  · rw [hk]
    exact mem_append_left _ hc
  · rw [hk]
    cases k with
    | zero => simpa using hseg
    | succ k =>
      rw [replicate_succ, splitOn_append_cons_self]
      exact mem_append_left _ hseg

/-- A path prefix of a PHP site that is forwarded to an upstream. -/
structure ProxyRule where
  pathPrefix : Str
  target : UpstreamTarget
  wellFormed : IsPathPrefix pathPrefix
  normal : normalizePrefix pathPrefix = pathPrefix

namespace ProxyRule

theorem ext_fields {r r' : ProxyRule} (hp : r.pathPrefix = r'.pathPrefix)
    (ht : r.target = r'.target) : r = r' := by
  cases r; cases r'; cases hp; cases ht; rfl

instance : DecidableEq ProxyRule := fun r r' =>
  decidable_of_iff (r.pathPrefix = r'.pathPrefix ∧ r.target = r'.target)
    ⟨fun h => ext_fields h.1 h.2, fun h => h ▸ ⟨rfl, rfl⟩⟩

def new (pathPrefix : Str) (target : UpstreamTarget) : Except CoreError ProxyRule :=
  match h : checkPathPrefix ProxyRuleErrorReason.empty .notAbsolute .containsControl
      .containsDotDot pathPrefix with
  | .error reason => .error (.invalidProxyRule pathPrefix reason)
  | .ok () =>
    .ok {
      pathPrefix := normalizePrefix pathPrefix
      target
      wellFormed := (checkPathPrefix_eq_ok_iff.1 h).normalize
      normal := normalizePrefix_idem pathPrefix }

theorem new_ok {p : Str} {t : UpstreamTarget} {r : ProxyRule} (h : new p t = .ok r) :
    r.pathPrefix = normalizePrefix p ∧ r.target = t ∧ p ≠ [] := by
  unfold new at h
  split at h
  · cases h
  · rename_i hcheck
    cases h
    exact ⟨rfl, rfl, (checkPathPrefix_eq_ok_iff.1 hcheck).ne_nil⟩

theorem new_self (r : ProxyRule) : new r.pathPrefix r.target = .ok r := by
  unfold new
  split
  · rename_i reason h
    rw [checkPathPrefix_eq_ok_iff.2 r.wellFormed] at h
    cases h
  · exact congrArg Except.ok (ext_fields r.normal rfl)

end ProxyRule

/-- What a route rule demands of its target: a plain relative path. -/
def isRouteTarget (target : Str) : Bool :=
  !target.any isControl && (Path.ofStr target).isSafeRelative

/-- A path prefix that falls back to a file under the served root. -/
structure RouteRule where
  pathPrefix : Str
  target : Str
  wellFormed : IsPathPrefix pathPrefix
  normal : normalizePrefix pathPrefix = pathPrefix
  target_ne : target ≠ []
  target_safe : isRouteTarget target

namespace RouteRule

theorem ext_fields {r r' : RouteRule} (hp : r.pathPrefix = r'.pathPrefix)
    (ht : r.target = r'.target) : r = r' := by
  cases r; cases r'; cases hp; cases ht; rfl

instance : DecidableEq RouteRule := fun r r' =>
  decidable_of_iff (r.pathPrefix = r'.pathPrefix ∧ r.target = r'.target)
    ⟨fun h => ext_fields h.1 h.2, fun h => h ▸ ⟨rfl, rfl⟩⟩

def new (pathPrefix target : Str) : Except CoreError RouteRule :=
  match h : checkPathPrefix RouteRuleErrorReason.emptyPrefix .prefixNotAbsolute
      .prefixContainsControl .prefixContainsDotDot pathPrefix with
  | .error reason => .error (.invalidRouteRule pathPrefix reason)
  | .ok () =>
    if ht : target = [] then .error (.invalidRouteRule target .emptyTarget)
    else if hs : isRouteTarget target then
      .ok {
        pathPrefix := normalizePrefix pathPrefix
        target
        wellFormed := (checkPathPrefix_eq_ok_iff.1 h).normalize
        normal := normalizePrefix_idem pathPrefix
        target_ne := ht
        target_safe := hs }
    else .error (.invalidRouteRule target .invalidTarget)

theorem new_ok {p t : Str} {r : RouteRule} (h : new p t = .ok r) :
    r.pathPrefix = normalizePrefix p ∧ p ≠ [] := by
  unfold new at h
  split at h
  · cases h
  · rename_i hcheck
    split_ifs at h
    cases h
    exact ⟨rfl, (checkPathPrefix_eq_ok_iff.1 hcheck).ne_nil⟩

theorem new_self (r : RouteRule) : new r.pathPrefix r.target = .ok r := by
  unfold new
  split
  · rename_i reason h
    rw [checkPathPrefix_eq_ok_iff.2 r.wellFormed] at h
    cases h
  · rw [dif_neg r.target_ne, dif_pos r.target_safe]
    exact congrArg Except.ok (ext_fields r.normal rfl)

end RouteRule

/-- A whole host forwarded to an upstream. -/
structure ProxySite where
  name : ProxyName
  target : UpstreamTarget
  secure : Bool
  deriving DecidableEq

namespace ProxySite

def new (name : Str) (target : UpstreamTarget) : Except CoreError ProxySite :=
  match validateProxyName name with
  | .error e => .error e
  | .ok name => .ok { name, target, secure := false }

theorem new_ok {name : Str} {target : UpstreamTarget} {p : ProxySite}
    (h : new name target = .ok p) : validateProxyName name = .ok p.name ∧ p.target = target := by
  unfold new at h
  split at h
  · cases h
  · rename_i hname
    cases h
    exact ⟨hname, rfl⟩

def setSecure (p : ProxySite) (secure : Bool) : ProxySite := { p with secure }

end ProxySite

end Orcker.Core
