import Orcker.Base.Map

/-!
# Domains, TLDs and names

The validated strings routing is keyed by. A field of each says that the text is a fixed point of
its validator, so an unvalidated value cannot be built and re-validating a stored value returns it.
-/

namespace Orcker.Core

open Base

inductive UpstreamTargetErrorReason where
  | empty
  | missingScheme
  | unsupportedScheme
  | hasCredentials
  | hasPathOrQuery
  | missingHost
  | invalidHost
  | invalidPort
  deriving DecidableEq, Repr

inductive ProxyRuleErrorReason where
  | empty
  | notAbsolute
  | containsDotDot
  | containsControl
  deriving DecidableEq, Repr

inductive RouteRuleErrorReason where
  | emptyPrefix
  | prefixNotAbsolute
  | prefixContainsControl
  | prefixContainsDotDot
  | emptyTarget
  | invalidTarget
  deriving DecidableEq, Repr

inductive PhpVersionErrorReason where
  | empty
  | missingMinor
  | nonNumeric
  | unsupportedPrefix
  | majorOutOfRange
  | minorOutOfRange
  deriving DecidableEq, Repr

inductive TldErrorReason where
  | empty
  | leadingOrTrailingDot
  | consecutiveDots
  | containsWhitespace
  | nonAscii
  | invalidCharacter
  | labelTooLong
  | leadingOrTrailingHyphen
  | tooLong
  deriving DecidableEq, Repr

inductive SiteNameErrorReason where
  | empty
  | containsDot
  | invalidCharacter
  | labelTooLong
  | leadingOrTrailingHyphen
  deriving DecidableEq, Repr

inductive DomainErrorReason where
  | empty
  | emptyLabel
  | notUnderTld
  | misplacedWildcard
  | bareWildcard
  | invalidCharacter
  | labelTooLong
  | leadingOrTrailingHyphen
  | tooLong
  deriving DecidableEq, Repr

/-- A proxy name is a domain sub-part, so its shape errors are the domain's. -/
inductive ProxyNameErrorReason where
  | wildcard
  | shape (reason : DomainErrorReason)
  deriving DecidableEq, Repr

/-- Errors produced by the core types and the router. -/
inductive CoreError where
  | invalidPhpVersion (input : Str) (reason : PhpVersionErrorReason)
  | invalidTld (input : Str) (reason : TldErrorReason)
  | duplicateSite (name : Str)
  | siteNotFound (name : Str)
  | invalidSiteName (name : Str) (reason : SiteNameErrorReason)
  | portRangeExhausted (first last : UInt16)
  | invalidDomain (input : Str) (reason : DomainErrorReason)
  | duplicateDomain (domain : Str)
  | invalidUpstreamTarget (input : Str) (reason : UpstreamTargetErrorReason)
  | invalidProxyName (name : Str) (reason : ProxyNameErrorReason)
  | invalidProxyRule (input : Str) (reason : ProxyRuleErrorReason)
  | invalidRouteRule (input : Str) (reason : RouteRuleErrorReason)
  deriving DecidableEq, Repr

def maxNameBytes : Nat := 253

def maxLabelBytes : Nat := 63

/-- `[a-z0-9-]` -/
def isLabelChar (c : Char) : Bool := c.isLower || c.isDigit || c == '-'

/-- Length, charset and hyphen checks on one label, in the order both the domain
and the TLD validator run them; they differ in the errors only. -/
def checkLabel {ε : Type} (tooLong invalid hyphen : ε) (label : Str) : Except ε Unit :=
  if maxLabelBytes < byteLen label then .error tooLong
  else if !label.all isLabelChar then .error invalid
  else if label.head? = some '-' ∨ label.getLast? = some '-' then .error hyphen
  else .ok ()

/-- One DNS label. -/
structure IsLabel (label : Str) : Prop where
  short : byteLen label ≤ maxLabelBytes
  chars : ∀ c ∈ label, isLabelChar c
  head_ne : label.head? ≠ some '-'
  last_ne : label.getLast? ≠ some '-'

theorem checkLabel_eq_ok_iff {ε : Type} {tooLong invalid hyphen : ε} {label : Str} :
    checkLabel tooLong invalid hyphen label = .ok () ↔ IsLabel label := by
  unfold checkLabel
  constructor
  · intro h
    split at h
    · cases h
    split at h
    · cases h
    split at h
    · cases h
    rename_i hlen hall hhy
    simp only [not_or] at hhy
    exact ⟨Nat.le_of_not_lt hlen, by simpa using hall, hhy.1, hhy.2⟩
  · rintro ⟨hlen, hall, hhead, hlast⟩
    rw [if_neg (Nat.not_lt.2 hlen), if_neg (by simpa using hall), if_neg (by simp [hhead, hlast])]

theorem isLabelChar_toNat {c : Char} (h : isLabelChar c) :
    (97 ≤ c.toNat ∧ c.toNat ≤ 122) ∨ (48 ≤ c.toNat ∧ c.toNat ≤ 57) ∨ c.toNat = 45 := by
  rw [isLabelChar, Bool.or_eq_true, Bool.or_eq_true, isLower_iff_toNat, isDigit_iff_toNat,
    beq_iff_eq, char_eq_iff_toNat, or_assoc] at h
  exact h

/-- The per-label pass over a sub-part of `count` labels, `i` being the position
of the next one. -/
def validateLabels (count : Nat) : Nat → List Str → Except DomainErrorReason Unit
  | _, [] => .ok ()
  | i, label :: rest =>
    if label.isEmpty then .error .emptyLabel
    else if label.contains '*' then
      if label ≠ ['*'] then .error .misplacedWildcard
      else if i ≠ 0 then .error .misplacedWildcard
      else if count = 1 then .error .bareWildcard
      else validateLabels count (i + 1) rest
    else
      match checkLabel .labelTooLong .invalidCharacter .leadingOrTrailingHyphen label with
      | .error reason => .error reason
      | .ok () => validateLabels count (i + 1) rest

/-- Validate and lowercase a domain sub-part. -/
def validateSteps (raw : Str) : Except DomainErrorReason Str :=
  if raw.isEmpty then .error .empty
  else if !raw.all isAscii then .error .invalidCharacter
  else if maxNameBytes < byteLen raw then .error .tooLong
  else
    let lowered := lower raw
    let labels := lowered.splitOn '.'
    match validateLabels labels.length 0 labels with
    | .error reason => .error reason
    | .ok () => .ok lowered

theorem validateSteps_eq_ok_iff {raw out : Str} :
    validateSteps raw = .ok out ↔
      raw ≠ [] ∧ raw.all isAscii ∧ byteLen raw ≤ maxNameBytes ∧
        validateLabels ((lower raw).splitOn '.').length 0 ((lower raw).splitOn '.') = .ok () ∧
        out = lower raw := by
  unfold validateSteps
  constructor
  · intro h
    split at h
    · cases h
    split at h
    · cases h
    split at h
    · cases h
    rename_i hne hascii hlen
    simp only at h
    split at h
    · cases h
    rename_i hlabels
    refine ⟨by simpa using hne, by simpa using hascii, Nat.le_of_not_lt hlen, hlabels, ?_⟩
    exact (Except.ok.inj h).symm
  · rintro ⟨hne, hascii, hlen, hlabels, rfl⟩
    rw [if_neg (by simpa using hne), if_neg (by simpa using hascii), if_neg (Nat.not_lt.2 hlen)]
    simp only [hlabels]

theorem validateSteps_idem {raw out : Str} (h : validateSteps raw = .ok out) :
    validateSteps out = .ok out := by
  obtain ⟨hne, hascii, hlen, hlabels, rfl⟩ := validateSteps_eq_ok_iff.1 h
  refine validateSteps_eq_ok_iff.2 ⟨?_, ?_, ?_, ?_, ?_⟩
  · simpa using hne
  · simpa using hascii
  · simpa using hlen
  · simpa using hlabels
  · simp

/-- A validated routable domain sub-part (below the TLD). -/
structure Domain where
  sub : Str
  valid : validateSteps sub = .ok sub
  deriving DecidableEq

namespace Domain

@[ext] theorem ext {d e : Domain} (h : d.sub = e.sub) : d = e := by
  cases d; cases e; cases h; rfl

theorem sub_inj {d e : Domain} : d.sub = e.sub ↔ d = e := ⟨ext, fun h => h ▸ rfl⟩

/-- A sub-part from a text in any case. -/
def parseSubpart (sub : Str) : Except CoreError Domain :=
  match h : validateSteps sub with
  | .ok s => .ok ⟨s, validateSteps_idem h⟩
  | .error reason => .error (.invalidDomain sub reason)

/-- The leftmost label is `*`. -/
def isWildcard (d : Domain) : Bool := "*.".toList.isPrefixOf d.sub

/-- The host that the domain names under a TLD. -/
def toFqdn (d : Domain) (tld : Str) : Str := d.sub ++ '.' :: tld

/-- Parse a full host name that must sit under `tld`. A shape error is reported
against the original host name, not the stripped sub-part. -/
def parse (fqdn tld : Str) : Except CoreError Domain :=
  let lowered := lower fqdn
  let trimmed := (lowered.dropSuffix? ['.']).getD lowered
  let tld := lower tld
  if trimmed.isEmpty then .error (.invalidDomain fqdn .empty)
  else if maxNameBytes < byteLen trimmed then .error (.invalidDomain fqdn .tooLong)
  else if trimmed = tld then .error (.invalidDomain fqdn .notUnderTld)
  else
    match trimmed.dropSuffix? ('.' :: tld) with
    | none => .error (.invalidDomain fqdn .notUnderTld)
    | some sub =>
      match parseSubpart sub with
      | .ok d => .ok d
      | .error (.invalidDomain _ reason) => .error (.invalidDomain fqdn reason)
      | .error other => .error other

@[simp] theorem parseSubpart_sub (d : Domain) : parseSubpart d.sub = .ok d := by
  unfold parseSubpart
  split
  · rename_i s hs
    rw [d.valid] at hs
    exact congrArg Except.ok (ext (Except.ok.inj hs).symm)
  · rename_i reason hs
    rw [d.valid] at hs
    cases hs

theorem parseSubpart_sub_eq {raw : Str} {d : Domain} (h : parseSubpart raw = .ok d) :
    d.sub = lower raw := by
  unfold parseSubpart at h
  split at h
  · rename_i s hs
    cases h
    exact (validateSteps_eq_ok_iff.1 hs).2.2.2.2
  · cases h

theorem validateLabels_ok {count i : Nat} {labels : List Str}
    (h : validateLabels count i labels = .ok ()) :
    ∀ label ∈ labels, label ≠ [] ∧ (IsLabel label ∨ label = ['*']) := by
  induction labels generalizing i with
  | nil => simp
  | cons label rest ih =>
    unfold validateLabels at h
    split at h
    · cases h
    rename_i hne
    have hne : label ≠ [] := by simpa using hne
    rw [List.forall_mem_cons]
    split at h
    · split at h
      · cases h
      rename_i hstar
      split at h
      · cases h
      split at h
      · cases h
      exact ⟨⟨hne, .inr (not_not.1 hstar)⟩, ih h⟩
    · split at h
      · cases h
      rename_i hlabel
      exact ⟨⟨hne, .inl (checkLabel_eq_ok_iff.1 hlabel)⟩, ih h⟩

theorem labels_ok (d : Domain) :
    ∀ label ∈ d.sub.splitOn '.', label ≠ [] ∧ (IsLabel label ∨ label = ['*']) := by
  obtain ⟨-, -, -, hlabels, heq⟩ := validateSteps_eq_ok_iff.1 d.valid
  rw [← heq] at hlabels
  exact validateLabels_ok hlabels

theorem sub_ne_nil (d : Domain) : d.sub ≠ [] := (validateSteps_eq_ok_iff.1 d.valid).1

@[simp] theorem lower_sub (d : Domain) : lower d.sub = d.sub :=
  (validateSteps_eq_ok_iff.1 d.valid).2.2.2.2.symm

theorem sub_all_isAscii (d : Domain) : d.sub.all isAscii :=
  (validateSteps_eq_ok_iff.1 d.valid).2.1

theorem sub_chars (d : Domain) : ∀ c ∈ d.sub, c = '.' ∨ isLabelChar c ∨ c = '*' := by
  refine forall_mem_of_splitOn fun label hlabel c hc => ?_
  rcases (d.labels_ok label hlabel).2 with h | rfl
  · exact .inl (h.chars c hc)
  · exact .inr (by simpa using hc)

theorem sub_head?_ne_dot (d : Domain) : d.sub.head? ≠ some '.' :=
  head?_ne_of_splitOn fun label hlabel => (d.labels_ok label hlabel).1

theorem notMem_sub {d : Domain} {c : Char} (hdot : c ≠ '.') (hstar : c ≠ '*')
    (hlabel : isLabelChar c = false) : c ∉ d.sub := by
  intro hc
  rcases d.sub_chars c hc with h | h | h
  · exact hdot h
  · rw [hlabel] at h
    cases h
  · exact hstar h

theorem isWildcard_iff {d : Domain} : d.isWildcard ↔ ∃ rest, d.sub = '*' :: '.' :: rest := by
  unfold isWildcard
  rw [List.isPrefixOf_iff_prefix]
  simp only [List.prefix_iff_eq_append]
  constructor
  · intro h
    exact ⟨_, h.symm⟩
  · rintro ⟨rest, h⟩
    simp [h]

end Domain

end Orcker.Core
