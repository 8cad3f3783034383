import Orcker.Core.Domain

/-!
# TLDs, site names, proxy names and effective domain sets

The effective set of a claimant is `(apex - suppressed) + added`, with the apex restored when no
exact domain would be left: a claimant is always reachable under a concrete host
(`exists_exact_effectiveDomains`).
-/

namespace Orcker.Core

open Base List

variable {raw out : Str}

namespace Tld

/-- Every character must be ASCII and not ASCII whitespace; the first offender
decides the error. -/
def validateCharset : Str → Except TldErrorReason Unit
  | [] => .ok ()
  | c :: s =>
    if !isAscii c then .error .nonAscii
    else if c = ' ' ∨ c = '\t' ∨ c = '\n' ∨ c = '\x0c' ∨ c = '\r' then
      .error .containsWhitespace
    else validateCharset s

def validateLabel (label : Str) : Except TldErrorReason Unit :=
  if label.isEmpty then .error .consecutiveDots
  else checkLabel .labelTooLong .invalidCharacter .leadingOrTrailingHyphen label

def validateLabels : List Str → Except TldErrorReason Unit
  | [] => .ok ()
  | label :: rest =>
    match validateLabel label with
    | .error reason => .error reason
    | .ok () => validateLabels rest

/-- Validate and lowercase a TLD, dropping one trailing dot. -/
def validateSteps (raw : Str) : Except TldErrorReason Str :=
  if raw.isEmpty then .error .empty
  else
    let stripped := (raw.dropSuffix? ['.']).getD raw
    if stripped.isEmpty ∨ stripped.getLast? = some '.' ∨ stripped.head? = some '.' then
      .error .leadingOrTrailingDot
    else if maxNameBytes < byteLen stripped then .error .tooLong
    else
      match validateCharset stripped with
      | .error reason => .error reason
      | .ok () =>
        let lowered := lower stripped
        match validateLabels (lowered.splitOn '.') with
        | .error reason => .error reason
        | .ok () => .ok lowered

theorem validateLabels_ok {labels : List Str} (h : validateLabels labels = .ok ()) :
    ∀ label ∈ labels, label ≠ [] ∧ IsLabel label := by
  induction labels with
  | nil => simp
  | cons label rest ih =>
    unfold validateLabels at h
    split at h
    · cases h
    rename_i hlabel
    unfold validateLabel at hlabel
    split at hlabel
    · cases hlabel
    rename_i hne
    rw [forall_mem_cons]
    exact ⟨⟨by simpa using hne, checkLabel_eq_ok_iff.1 hlabel⟩, ih h⟩

theorem validateCharset_eq_ok_iff {s : Str} :
    validateCharset s = .ok () ↔ ∀ c ∈ s, isAscii c ∧
      ¬(c = ' ' ∨ c = '\t' ∨ c = '\n' ∨ c = '\x0c' ∨ c = '\r') := by
  induction s with
  | nil => simp [validateCharset]
  | cons c s ih =>
    rw [forall_mem_cons, ← ih, validateCharset]
    split
    · rename_i hc
      simp_all
    · split
      · rename_i hw
        simp [hw]
      · rename_i hc hw
        simp_all

theorem validateSteps_eq_ok (h : validateSteps raw = .ok out) :
    out ≠ [] ∧ lower out = out ∧ out.getLast? ≠ some '.' ∧ out.head? ≠ some '.' ∧
      byteLen out ≤ maxNameBytes ∧ validateCharset out = .ok () ∧
      validateLabels (out.splitOn '.') = .ok () := by
  unfold validateSteps at h
  split at h
  · cases h
  simp only at h
  split at h
  · cases h
  rename_i hdots
  split at h
  · cases h
  rename_i hlen
  split at h
  · cases h
  rename_i hcharset
  split at h
  · cases h
  rename_i hlabels
  cases h
  generalize (raw.dropSuffix? ['.']).getD raw = stripped at *
  simp only [not_or, List.isEmpty_iff] at hdots
  refine ⟨by simpa using hdots.1, lower_lower _, ?_, ?_, by simpa using hlen, ?_, hlabels⟩
  · rw [lower, getLast?_map, ne_eq, map_toLower_eq_some_iff (by decide)]
    exact hdots.2.1
  · rw [lower, head?_map, ne_eq, map_toLower_eq_some_iff (by decide)]
    exact hdots.2.2
  · rw [validateCharset_eq_ok_iff] at hcharset ⊢
    intro c hc
    obtain ⟨b, hb, rfl⟩ := mem_map.1 hc
    have := hcharset b hb
    rw [isAscii_toLower]
    rw [toLower_eq_iff (by decide), toLower_eq_iff (by decide), toLower_eq_iff (by decide),
      toLower_eq_iff (by decide), toLower_eq_iff (by decide)]
    exact this

theorem validateSteps_idem (h : validateSteps raw = .ok out) : validateSteps out = .ok out := by
  obtain ⟨hne, hlower, hlast, hhead, hlen, hcharset, hlabels⟩ := validateSteps_eq_ok h
  unfold validateSteps
  rw [if_neg (by simpa using hne)]
  simp only [getD_dropSuffix?_eq_self hlast]
  rw [if_neg (by simp [hne, hlast, hhead]), if_neg (Nat.not_lt.2 hlen), hcharset]
  simp only [hlower, hlabels]

end Tld

/-- A validated DNS suffix, lowercased, without leading or trailing dot. -/
structure Tld where
  text : Str
  valid : Tld.validateSteps text = .ok text
  deriving DecidableEq

namespace Tld

@[ext] theorem ext {s t : Tld} (h : s.text = t.text) : s = t := by
  cases s; cases t; cases h; rfl

def new (s : Str) : Except CoreError Tld :=
  match h : validateSteps s with
  | .ok t => .ok ⟨t, validateSteps_idem h⟩
  | .error reason => .error (.invalidTld s reason)

instance : Inhabited Tld := ⟨⟨"test", by decide⟩⟩

@[simp] theorem new_text (t : Tld) : new t.text = .ok t := by
  unfold new
  split
  · rename_i s hs
    rw [t.valid] at hs
    exact congrArg Except.ok (ext (Except.ok.inj hs).symm)
  · rename_i reason hs
    rw [t.valid] at hs
    cases hs

theorem text_ne_nil (t : Tld) : t.text ≠ [] := (validateSteps_eq_ok t.valid).1

@[simp] theorem lower_text (t : Tld) : lower t.text = t.text := (validateSteps_eq_ok t.valid).2.1

theorem text_getLast?_ne_dot (t : Tld) : t.text.getLast? ≠ some '.' :=
  (validateSteps_eq_ok t.valid).2.2.1

theorem labels_ok (t : Tld) : ∀ label ∈ t.text.splitOn '.', label ≠ [] ∧ IsLabel label :=
  validateLabels_ok (validateSteps_eq_ok t.valid).2.2.2.2.2.2

theorem text_chars (t : Tld) : ∀ c ∈ t.text, c = '.' ∨ isLabelChar c :=
  forall_mem_of_splitOn fun label hlabel => (t.labels_ok label hlabel).2.chars

end Tld

/-- Validate and lowercase a site name: one DNS label. -/
def validateAndLowercaseName (raw : Str) : Except CoreError Str :=
  if raw.isEmpty then .error (.invalidSiteName raw .empty)
  else if raw.contains '.' then .error (.invalidSiteName raw .containsDot)
  else if !raw.all (fun c => c.isAlphanum || c == '-') then
    .error (.invalidSiteName raw .invalidCharacter)
  else
    let lowered := lower raw
    if lowered.head? = some '-' ∨ lowered.getLast? = some '-' then
      .error (.invalidSiteName raw .leadingOrTrailingHyphen)
    else if maxLabelBytes < byteLen lowered then .error (.invalidSiteName raw .labelTooLong)
    else .ok lowered

variable {c : Char}

theorem isLabelChar_toLower (h : (c.isAlphanum || c == '-') = true) : isLabelChar c.toLower := by
  rw [Bool.or_eq_true, isAlphanum_iff_toNat, beq_iff_eq, char_eq_iff_toNat] at h
  rw [isLabelChar, Bool.or_eq_true, Bool.or_eq_true, isLower_iff_toNat, isDigit_iff_toNat,
    beq_iff_eq, char_eq_iff_toNat, toNat_toLower]
  have hdash : '-'.toNat = 45 := rfl
  split <;> omega

theorem isLabelChar_alnum (h : isLabelChar c) : (c.isAlphanum || c == '-') = true := by
  simp only [isLabelChar, Char.isAlphanum, Char.isAlpha, Bool.or_eq_true] at h ⊢
  tauto

theorem isLabelChar_lower (h : isLabelChar c) : c.toLower = c := by
  rw [char_eq_iff_toNat, toNat_toLower, if_neg]
  have := isLabelChar_toNat h
  omega

theorem isLabelChar_isAscii (h : isLabelChar c) : isAscii c := by
  simp only [isAscii, decide_eq_true_eq]
  have := isLabelChar_toNat h
  omega

variable {s : Str} {start suppressed : List Domain} {name : ProxyName}

theorem lower_eq_self (h : ∀ c ∈ s, c.toLower = c) : lower s = s := by
  unfold lower
  exact (map_congr_left h).trans (map_id s)

theorem validateAndLowercaseName_eq_ok (h : validateAndLowercaseName raw = .ok out) :
    out = lower raw ∧ out ≠ [] ∧ IsLabel out := by
  unfold validateAndLowercaseName at h
  split at h
  · cases h
  rename_i hne
  split at h
  · cases h
  split at h
  · cases h
  rename_i hchars
  simp only at h
  split at h
  · cases h
  rename_i hhyphen
  split at h
  · cases h
  rename_i hlen
  cases h
  rw [not_or] at hhyphen
  refine ⟨rfl, by simpa using hne, Nat.le_of_not_lt hlen, ?_, hhyphen.1, hhyphen.2⟩
  intro c hc
  obtain ⟨b, hb, rfl⟩ := mem_map.1 hc
  have hall : raw.all (fun c => c.isAlphanum || c == '-') = true := by
    simpa only [Bool.not_eq_true', Bool.not_eq_false] using hchars
  exact isLabelChar_toLower (all_eq_true.1 hall b hb)

theorem validateAndLowercaseName_of_isLabel (hne : s ≠ []) (h : IsLabel s) :
    validateAndLowercaseName s = .ok s := by
  have hlower : lower s = s := lower_eq_self fun c hc => isLabelChar_lower (h.chars c hc)
  have hdot : '.' ∉ s := fun hc => absurd (h.chars _ hc) (by decide)
  unfold validateAndLowercaseName
  rw [if_neg (by simpa using hne), if_neg (by simpa using hdot), if_neg]
  · simp only [hlower]
    rw [if_neg (by simp [h.head_ne, h.last_ne]), if_neg (Nat.not_lt.2 h.short)]
  · have hall : s.all (fun c => c.isAlphanum || c == '-') = true :=
      all_eq_true.2 fun c hc => isLabelChar_alnum (h.chars c hc)
    rw [hall]
    decide

/-- A validated site name: a single lowercase DNS label. -/
structure SiteName where
  text : Str
  valid : validateAndLowercaseName text = .ok text
  deriving DecidableEq

namespace SiteName

@[ext] theorem ext {m n : SiteName} (h : m.text = n.text) : m = n := by
  cases m; cases n; cases h; rfl

def new (raw : Str) : Except CoreError SiteName :=
  match h : validateAndLowercaseName raw with
  | .ok s =>
    have hs := validateAndLowercaseName_eq_ok h
    .ok ⟨s, validateAndLowercaseName_of_isLabel hs.2.1 hs.2.2⟩
  | .error e => .error e

@[simp] theorem new_text (n : SiteName) : new n.text = .ok n := by
  unfold new
  split
  · rename_i s hs
    rw [n.valid] at hs
    exact congrArg Except.ok (ext (Except.ok.inj hs).symm)
  · rename_i reason hs
    rw [n.valid] at hs
    cases hs

theorem text_ne_nil (n : SiteName) : n.text ≠ [] := (validateAndLowercaseName_eq_ok n.valid).2.1

theorem isLabel (n : SiteName) : IsLabel n.text := (validateAndLowercaseName_eq_ok n.valid).2.2

end SiteName

/-- A validated whole-host proxy name: a sub-part that is not a wildcard. -/
structure ProxyName extends Domain where
  exact : toDomain.isWildcard = false
  deriving DecidableEq

namespace ProxyName

abbrev text (n : ProxyName) : Str := n.sub

@[ext] theorem ext {m n : ProxyName} (h : m.text = n.text) : m = n := by
  obtain ⟨d, hd⟩ := m
  obtain ⟨e, he⟩ := n
  cases Domain.ext h
  rfl

end ProxyName

/-- A domain that is not a wildcard. -/
def validateProxyName (raw : Str) : Except CoreError ProxyName :=
  match Domain.parseSubpart raw with
  | .error (.invalidDomain _ reason) => .error (.invalidProxyName raw (.shape reason))
  | .error other => .error other
  | .ok parsed =>
    if h : parsed.isWildcard then .error (.invalidProxyName raw .wildcard)
    else .ok ⟨parsed, by simpa using h⟩

@[simp] theorem validateProxyName_text (n : ProxyName) : validateProxyName n.text = .ok n := by
  unfold validateProxyName
  simp [n.exact]

theorem validateProxyName_eq_ok {n : ProxyName} (h : validateProxyName raw = .ok n) :
    n.text = lower raw := by
  unfold validateProxyName at h
  split at h
  · cases h
  · cases h
  · rename_i parsed hparsed
    split at h
    · cases h
    · cases h
      exact Domain.parseSubpart_sub_eq hparsed

theorem validateSteps_of_isLabel (hne : s ≠ []) (h : IsLabel s) : validateSteps s = .ok s := by
  have hlower : lower s = s := lower_eq_self fun c hc => isLabelChar_lower (h.chars c hc)
  have hdot : '.' ∉ s := fun hc => absurd (h.chars _ hc) (by decide)
  have hstar : s.contains '*' = false := by
    rw [Bool.eq_false_iff, ne_eq, contains_iff_mem]
    exact fun hc => absurd (h.chars _ hc) (by decide)
  refine validateSteps_eq_ok_iff.2 ⟨hne, ?_, ?_, ?_, hlower.symm⟩
  · exact all_eq_true.2 fun c hc => isLabelChar_isAscii (h.chars c hc)
  · exact h.short.trans (by decide)
  · rw [hlower, splitOn_eq_singleton hdot]
    rw [validateLabels, if_neg (by simpa using hne), if_neg (by rw [hstar]; decide),
      checkLabel_eq_ok_iff.2 h]
    rfl

/-- Every site name is a proxy name: one label is a non-wildcard sub-part. -/
def SiteName.toProxyName (n : SiteName) : ProxyName where
  sub := n.text
  valid := validateSteps_of_isLabel n.text_ne_nil n.isLabel
  exact := by
    by_contra hw
    rw [Bool.not_eq_false] at hw
    obtain ⟨rest, hrest⟩ := Domain.isWildcard_iff.1 hw
    change n.text = '*' :: '.' :: rest at hrest
    exact absurd (n.isLabel.chars '*' (by simp [hrest])) (by decide)

@[simp] theorem SiteName.text_toProxyName (n : SiteName) : n.toProxyName.sub = n.text := rfl

/-- The default exact domain of a claimant: its name. -/
def Domain.apex (name : ProxyName) : Domain where
  sub := lower name.text
  valid := by rw [name.lower_sub]; exact name.valid

@[simp] theorem Domain.apex_eq (name : ProxyName) : Domain.apex name = name.toDomain :=
  Domain.ext name.lower_sub

/-- Append what is not there yet, in order. -/
def pushNew (out : List Domain) (d : Domain) : List Domain :=
  if d ∈ out then out else out ++ [d]

/-- `(apex - suppressed) + added`, apex first. -/
def selectedDomains (name : ProxyName) (added suppressed : List Domain) : List Domain :=
  added.foldl pushNew (if Domain.apex name ∈ suppressed then [] else [Domain.apex name])

/-- A claimant's effective routable set: the selected domains, with the apex
restored when no exact domain is left. -/
def effectiveDomains (name : ProxyName) (added suppressed : List Domain) : List Domain :=
  let out := selectedDomains name added suppressed
  if out.any (fun d => !d.isWildcard) then out else Domain.apex name :: out

/-- The displayed domain of a claimant: the stored one if it is exact and still
present, else the apex, else the first exact domain. -/
def choosePrimary (name : ProxyName) (effective : List Domain) (stored : Option Domain) : Domain :=
  let fallback :=
    let apex := Domain.apex name
    if apex ∈ effective then apex
    else (effective.find? fun d => !d.isWildcard).getD apex
  match stored with
  | some p => if !p.isWildcard ∧ p ∈ effective then p else fallback
  | none => fallback

variable {d : Domain} {added : List Domain}

theorem mem_foldl_pushNew : d ∈ added.foldl pushNew start ↔ d ∈ start ∨ d ∈ added := by
  induction added generalizing start with
  | nil => simp
  | cons a added ih =>
    rw [foldl_cons, ih, mem_cons, pushNew]
    split
    · rename_i ha
      constructor
      · tauto
      · rintro (h | rfl | h)
        · exact .inl h
        · exact .inl ha
        · exact .inr h
    · simp [or_assoc]

theorem nodup_foldl_pushNew (h : start.Nodup) : (added.foldl pushNew start).Nodup := by
  induction added generalizing start with
  | nil => exact h
  | cons a added ih =>
    refine ih ?_
    unfold pushNew
    split
    · exact h
    · rename_i ha
      exact nodup_append.2 ⟨h, nodup_singleton a, by
        intro b hb c hc
        rw [mem_singleton] at hc
        rintro rfl
        exact ha (hc ▸ hb)⟩

theorem mem_selectedDomains :
    d ∈ selectedDomains name added suppressed ↔
      (d = Domain.apex name ∧ Domain.apex name ∉ suppressed) ∨ d ∈ added := by
  rw [selectedDomains, mem_foldl_pushNew]
  split
  · rename_i h
    refine or_congr_left ⟨fun hd => absurd hd not_mem_nil, fun hd => absurd h hd.2⟩
  · rename_i h
    rw [mem_singleton, and_iff_left h]

theorem mem_effectiveDomains :
    d ∈ effectiveDomains name added suppressed ↔
      (d = Domain.apex name ∧ (Domain.apex name ∉ suppressed ∨ ∀ e ∈ added, e.isWildcard = true)) ∨
        d ∈ added := by
  have hselected : ∀ e, e ∈ selectedDomains name added suppressed ↔ _ :=
    fun e => mem_selectedDomains
  unfold effectiveDomains
  simp only
  split
  · rename_i hany
    obtain ⟨e, he, hexact⟩ := any_eq_true.1 hany
    rw [hselected]
    constructor
    · exact Or.imp_left fun h => ⟨h.1, .inl h.2⟩
    · rintro (⟨rfl, h | h⟩ | h)
      · exact .inl ⟨rfl, h⟩
      · -- The exact domain that is left is not an added one, so it is the apex.
        rcases (hselected e).1 he with he | he
        · exact .inl ⟨rfl, he.2⟩
        · rw [h e he] at hexact
          cases hexact
      · exact .inr h
  · rename_i hany
    have hwild : ∀ e ∈ selectedDomains name added suppressed, e.isWildcard = true := by
      intro e he
      by_contra hexact
      exact hany (any_eq_true.2 ⟨e, he, by simp [hexact]⟩)
    have hadded : ∀ e ∈ added, e.isWildcard = true :=
      fun e he => hwild e ((hselected e).2 (.inr he))
    rw [mem_cons, hselected]
    tauto

theorem nodup_effectiveDomains (name : ProxyName) (added suppressed : List Domain) :
    (effectiveDomains name added suppressed).Nodup := by
  have hout : (selectedDomains name added suppressed).Nodup :=
    nodup_foldl_pushNew (by split <;> simp)
  unfold effectiveDomains
  simp only
  split
  · exact hout
  · rename_i hnone
    refine nodup_cons.2 ⟨fun hmem => hnone ?_, hout⟩
    exact any_eq_true.2 ⟨_, hmem, by simp [name.exact]⟩

/-- A claimant is always reachable under at least one concrete host. -/
theorem exists_exact_effectiveDomains (name : ProxyName) (added suppressed : List Domain) :
    ∃ d ∈ effectiveDomains name added suppressed, d.isWildcard = false := by
  unfold effectiveDomains
  simp only
  split
  · rename_i h
    simpa using h
  · exact ⟨_, mem_cons_self, by simp [name.exact]⟩

/-- Where there is a concrete host, the primary is one. -/
theorem choosePrimary_exact (name : ProxyName) {effective : List Domain} (stored : Option Domain)
    (h : ∃ d ∈ effective, d.isWildcard = false) :
    choosePrimary name effective stored ∈ effective ∧
      (choosePrimary name effective stored).isWildcard = false := by
  have hfallback : ∀ p, p = (if Domain.apex name ∈ effective then Domain.apex name
      else (effective.find? fun d => !d.isWildcard).getD (Domain.apex name)) →
      p ∈ effective ∧ p.isWildcard = false := by
    rintro p rfl
    split
    · rename_i hmem
      exact ⟨hmem, by simp [name.exact]⟩
    · obtain ⟨d, hd, hw⟩ := h
      obtain ⟨e, he⟩ := Option.isSome_iff_exists.1
        (find?_isSome.2 ⟨d, hd, by simp [hw]⟩ :
          (effective.find? fun d => !d.isWildcard).isSome)
      rw [he, Option.getD_some]
      exact ⟨mem_of_find?_eq_some he, by simpa using find?_some he⟩
  unfold choosePrimary
  cases stored with
  | none => exact hfallback _ rfl
  | some p =>
    simp only
    split
    · rename_i hp
      exact ⟨hp.2, by simpa using hp.1⟩
    · exact hfallback _ rfl

end Orcker.Core
