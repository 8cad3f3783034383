import Orcker.Core.Proxy

/-!
# Sites and container projects

A `Site` is served from disk; a `ContainerProject` is served by containers and
reaches the router as a whole-host proxy of its loopback port.
-/

namespace Orcker.Core

open Base List

/-- A `(major, minor)` pair. The range check sits in the parser, so an
unparsed version may hold any two bytes. -/
structure PhpVersion where
  major : UInt8
  minor : UInt8
  deriving DecidableEq, Repr

/-- Versions are ordered by major, then minor number. -/
instance : Ord PhpVersion where
  compare := compareLex (compareOn PhpVersion.major) (compareOn PhpVersion.minor)

instance : Std.TransOrd PhpVersion :=
  inferInstanceAs (Std.TransCmp (compareLex (compareOn PhpVersion.major) (compareOn PhpVersion.minor)))

instance : Std.LawfulEqOrd PhpVersion where
  eq_of_compare {a b} h := by
    have h : (compare a.major b.major).then (compare a.minor b.minor) = .eq := h
    rw [Ordering.then_eq_eq, Std.compare_eq_iff_eq, Std.compare_eq_iff_eq] at h
    cases a; cases b
    simp_all

/-- Found in a parked directory, or linked by name. -/
inductive SiteKind where
  | parked
  | linked
  deriving DecidableEq, Repr

/-- A routable site. The name is the router's key and has no setter. -/
structure Site where
  name : SiteName
  documentRoot : Path
  webSubpath : Path
  php : PhpVersion
  secure : Bool
  kind : SiteKind
  wpAutoLogin : Bool
  wpAutoLoginUser : Option Str
  frontController : Option Bool
  deriving DecidableEq

namespace Site

/-- The site both constructors build, under a name that is already validated. -/
def ofName (kind : SiteKind) (name : SiteName) (documentRoot : Path) (php : PhpVersion) : Site where
  name := name
  documentRoot := documentRoot
  webSubpath := ⟨[]⟩
  php := php
  secure := false
  kind := kind
  wpAutoLogin := false
  wpAutoLoginUser := none
  frontController := none

def parked (name : Str) (documentRoot : Path) (php : PhpVersion) : Except CoreError Site :=
  (SiteName.new name).map fun name => ofName .parked name documentRoot php

def linked (name : Str) (documentRoot : Path) (php : PhpVersion) : Except CoreError Site :=
  (SiteName.new name).map fun name => ofName .linked name documentRoot php

/-- The directory the proxy serves. A sub-path that is absolute or climbs is
treated as empty, so the result never leaves the document root textually. -/
def servedRoot (s : Site) : Path :=
  if s.webSubpath.isEmpty || !s.webSubpath.isSafeRelative then s.documentRoot
  else s.documentRoot.join s.webSubpath

/-- The in-place setters; there is none for the name. -/
inductive Setter where
  | documentRoot (p : Path)
  | webSubpath (p : Path)
  | php (v : PhpVersion)
  | secure (secure : Bool)
  | kind (k : SiteKind)
  | wpAutoLogin (enabled : Bool)
  | wpAutoLoginUser (user : Option Str)
  | frontController (frontController : Option Bool)

/-- The setters of a site. -/
def set (s : Site) : Setter → Site
  | .documentRoot p => { s with documentRoot := p }
  | .webSubpath p => { s with webSubpath := p }
  | .php v => { s with php := v }
  | .secure secure => { s with secure }
  | .kind k => { s with kind := k }
  | .wpAutoLogin enabled => { s with wpAutoLogin := enabled }
  | .wpAutoLoginUser user => { s with wpAutoLoginUser := user }
  | .frontController frontController => { s with frontController }

@[simp] theorem set_name (s : Site) (f : Setter) : (s.set f).name = s.name := by
  cases f <;> rfl

end Site

/-- A directory served by its own container stack on a loopback port. -/
structure ContainerProject where
  name : SiteName
  root : Path
  port : UInt16
  secure : Bool
  deriving DecidableEq

namespace ContainerProject

def new (name : Str) (root : Path) (port : UInt16) : Except CoreError ContainerProject :=
  (SiteName.new name).map fun name => { name, root, port, secure := false }

def setSecure (p : ContainerProject) (secure : Bool) : ContainerProject := { p with secure }

/-- The loopback port of the containers. -/
def upstream (p : ContainerProject) : Except CoreError UpstreamTarget :=
  UpstreamTarget.fromUrlStr ("http://127.0.0.1:" ++ decimal p.port.toNat)

/-- A project as the router sees it. -/
def proxySite (p : ContainerProject) : Except CoreError ProxySite :=
  match p.upstream with
  | .error e => .error e
  | .ok target =>
    match ProxySite.new p.name.text target with
    | .error e => .error e
    | .ok proxy => .ok (proxy.setSecure p.secure)

def loopback (port : UInt16) (h : port ≠ 0) : UpstreamTarget where
  secure := false
  host := "127.0.0.1"
  port := port.toNat
  host_valid := by decide
  host_lower := by decide
  port_pos := by
    have hne : port.toNat ≠ 0 := fun heq => h (UInt16.toNat_inj.1 heq)
    omega
  port_le := by
    have hlt := port.toNat_lt
    omega

theorem proxySite_eq (p : ContainerProject) (h : p.port ≠ 0) :
    p.proxySite = .ok ⟨p.name.toProxyName, loopback p.port h, p.secure⟩ := by
  have hdisplay : (loopback p.port h).display =
      "http://127.0.0.1:" ++ decimal p.port.toNat := rfl
  have hupstream : p.upstream = .ok (loopback p.port h) := by
    rw [upstream, ← hdisplay, UpstreamTarget.fromUrlStr_display]
  have hname : validateProxyName p.name.text = .ok p.name.toProxyName :=
    validateProxyName_text p.name.toProxyName
  rw [proxySite, hupstream]
  simp only [ProxySite.new, hname]
  rfl

theorem name_of_proxySite {p : ContainerProject} {q : ProxySite} (h : p.proxySite = .ok q) :
    q.name.text = p.name.text := by
  have hname : validateProxyName p.name.text = .ok p.name.toProxyName :=
    validateProxyName_text p.name.toProxyName
  unfold proxySite at h
  split at h
  · cases h
  · simp only [ProxySite.new, hname] at h
    cases h
    rfl

end ContainerProject

/-! ## Site names from directory names

Both functions return DNS labels, so the validator accepts what they return unchanged. -/

section

/-- One character of the slug: alphanumerics lowercased, a run of anything else
as one hyphen, none at the start. -/
def slugStep (out : Str) (ch : Char) : Str :=
  if ch.isAlphanum then out ++ [ch.toLower]
  else if !out.isEmpty && out.getLast? != some '-' then out ++ ['-']
  else out

def trimHyphens (out : Str) : Str := (out.reverse.dropWhile (· == '-')).reverse

/-- A name made out of any text, if anything is left of it. -/
def slugifySiteName (raw : Str) : Option Str :=
  let out := trimHyphens (raw.foldl slugStep [])
  if out.isEmpty then none
  else
    let out := if maxLabelBytes < out.length then trimHyphens (out.take maxLabelBytes) else out
    if out.isEmpty then none else some out

/-- The name itself if it is one. -/
def normalizeSiteName (raw : Str) : Option Str :=
  match validateAndLowercaseName raw with
  | .ok name => some name
  | .error _ => slugifySiteName raw

/-- The part of `IsLabel` that every prefix keeps. -/
structure IsSlug (out : Str) : Prop where
  chars : ∀ c ∈ out, isLabelChar c
  head_ne : out.head? ≠ some '-'

theorem IsSlug.nil : IsSlug [] := ⟨by simp, by simp⟩

variable {out name : Str}

theorem IsSlug.append {c : Char} (h : IsSlug out) (hc : isLabelChar c) (hne : out ≠ [] ∨ c ≠ '-') :
    IsSlug (out ++ [c]) := by
  refine ⟨?_, ?_⟩
  · intro d hd
    rcases mem_append.1 hd with hd | hd
    · exact h.chars d hd
    · rw [mem_singleton.1 hd]
      exact hc
  · cases out with
    | nil => simpa using hne
    | cons d out => exact h.head_ne

theorem IsSlug.of_isPrefix {out' : Str} (h : IsSlug out) (hp : out' <+: out) : IsSlug out' := by
  obtain ⟨t, rfl⟩ := hp
  refine ⟨fun c hc => h.chars c (mem_append_left t hc), ?_⟩
  cases out' with
  | nil => simp
  | cons d out' => exact h.head_ne

theorem isSlug_slugStep (h : IsSlug out) (ch : Char) : IsSlug (slugStep out ch) := by
  rw [slugStep]
  split
  · rename_i hch
    have hlabel : isLabelChar ch.toLower := isLabelChar_toLower (by simp [hch])
    refine h.append hlabel (.inr fun hdash => ?_)
    -- Lowercasing keeps a character alphanumeric, and a hyphen is not.
    rw [← isAlphanum_toLower, hdash] at hch
    exact absurd hch (by decide)
  · split
    · rename_i hne
      rw [Bool.and_eq_true] at hne
      exact h.append (by decide) (.inl (by simpa using hne.1))
    · exact h

theorem isSlug_foldl (h : IsSlug out) (raw : Str) : IsSlug (raw.foldl slugStep out) := by
  induction raw generalizing out with
  | nil => exact h
  | cons ch raw ih => exact ih (isSlug_slugStep h ch)

theorem trimHyphens_isPrefix (out : Str) : trimHyphens out <+: out := by
  have h := dropWhile_suffix (fun c => c == '-') (l := out.reverse)
  rw [trimHyphens, ← reverse_suffix, reverse_reverse]
  exact h

theorem getLast?_trimHyphens_ne (out : Str) : (trimHyphens out).getLast? ≠ some '-' := by
  rw [trimHyphens, getLast?_reverse]
  intro h
  have := head?_dropWhile_not (fun c : Char => c == '-') out.reverse
  rw [h] at this
  simp at this

theorem IsSlug.isLabel (h : IsSlug out) (hlast : out.getLast? ≠ some '-')
    (hlen : out.length ≤ maxLabelBytes) : IsLabel out := by
  refine ⟨?_, h.chars, h.head_ne, hlast⟩
  have hsize : out.map Char.utf8Size = out.map fun _ => 1 :=
    map_congr_left fun c hc => utf8Size_of_isAscii (isLabelChar_isAscii (h.chars c hc))
  rw [byteLen, hsize]
  simpa using hlen

theorem trimHyphens_trimHyphens (out : Str) : trimHyphens (trimHyphens out) = trimHyphens out := by
  simp [trimHyphens, dropWhile_idempotent]

theorem slugifySiteName_eq_some {raw : Str} (h : slugifySiteName raw = some name) :
    name ≠ [] ∧ name <+: raw.foldl slugStep [] ∧ trimHyphens name = name ∧
      name.length ≤ maxLabelBytes := by
  have htrim := trimHyphens_isPrefix (raw.foldl slugStep [])
  rw [slugifySiteName] at h
  split at h
  · cases h
  rename_i hne
  simp only at h
  split at h
  · -- Cut to the limit, the name is trimmed once more.
    split at h
    · cases h
    rename_i hne
    obtain rfl := Option.some.inj h
    have hcut := trimHyphens_isPrefix ((trimHyphens (raw.foldl slugStep [])).take maxLabelBytes)
    exact ⟨by simpa using hne, hcut.trans (( take_prefix _ _).trans htrim),
      trimHyphens_trimHyphens _, hcut.length_le.trans (length_take_le ..)⟩
  · rename_i hlen
    obtain rfl := Option.some.inj h
    exact ⟨by simpa using hne, htrim, trimHyphens_trimHyphens _, Nat.le_of_not_lt hlen⟩

theorem isLabel_of_slugify {raw : Str} (h : slugifySiteName raw = some name) :
    name ≠ [] ∧ IsLabel name := by
  obtain ⟨hne, hp, htrim, hlen⟩ := slugifySiteName_eq_some h
  have hlast := getLast?_trimHyphens_ne name
  rw [htrim] at hlast
  exact ⟨hne, ((isSlug_foldl .nil raw).of_isPrefix hp).isLabel hlast hlen⟩

theorem isLabel_of_normalize {raw : Str} (h : normalizeSiteName raw = some name) :
    name ≠ [] ∧ IsLabel name := by
  rw [normalizeSiteName] at h
  split at h
  · rename_i name' hok
    obtain rfl := Option.some.inj h
    exact (validateAndLowercaseName_eq_ok hok).2
  · exact isLabel_of_slugify h

theorem normalizeSiteName_of_isLabel (h : name ≠ [] ∧ IsLabel name) :
    normalizeSiteName name = some name := by
  rw [normalizeSiteName, validateAndLowercaseName_of_isLabel h.1 h.2]

theorem foldl_slugStep_eq_nil_iff (raw out : Str) :
    raw.foldl slugStep out = [] ↔ out = [] ∧ ∀ c ∈ raw, c.isAlphanum = false := by
  induction raw generalizing out with
  | nil => simp
  | cons ch raw ih =>
    rw [foldl_cons, ih, slugStep]
    cases hch : ch.isAlphanum <;> cases out <;> grind

theorem IsSlug.trimHyphens_ne_nil (h : IsSlug out) (hne : out ≠ []) : trimHyphens out ≠ [] := by
  cases out with
  | nil => exact absurd rfl hne
  | cons c out =>
    intro htrim
    have hall := dropWhile_eq_nil_iff.1 (reverse_eq_nil_iff.1 htrim) c (by simp)
    exact h.head_ne (congrArg some (beq_iff_eq.1 hall))

theorem slugifySiteName_eq_none_iff (raw : Str) :
    slugifySiteName raw = none ↔ ∀ c ∈ raw, c.isAlphanum = false := by
  have hslug := isSlug_foldl .nil raw
  have hnil := foldl_slugStep_eq_nil_iff raw []
  rw [and_iff_right rfl] at hnil
  rw [← hnil]
  refine ⟨fun h => by_contra fun hne => ?_, fun h => by rw [slugifySiteName, h]; rfl⟩
  have htrim := hslug.trimHyphens_ne_nil hne
  have hcut := ((hslug.of_isPrefix (trimHyphens_isPrefix _)).of_isPrefix
    ( take_prefix maxLabelBytes _)).trimHyphens_ne_nil (by simp [htrim, maxLabelBytes])
  rw [slugifySiteName] at h
  grind

/-- What the loop has put out it puts out again, from every beginning of it. -/
theorem foldl_slugStep_stable (h : ∀ p, p <+: out → p.foldl slugStep [] = p) (raw : Str) :
    ∀ p, p <+: raw.foldl slugStep out → p.foldl slugStep [] = p := by
  induction raw generalizing out with
  | nil => exact h
  | cons ch raw ih =>
    refine ih fun p hp => ?_
    have hout := h out prefix_rfl
    rw [slugStep] at hp
    split at hp
    · rename_i hch
      rcases prefix_concat_iff.1 hp with rfl | hp
      · rw [foldl_append, hout, foldl_cons, foldl_nil, slugStep, isAlphanum_toLower, if_pos hch,
          toLower_toLower]
      · exact h p hp
    · split at hp
      · rename_i hlast
        rcases prefix_concat_iff.1 hp with rfl | hp
        · rw [foldl_append, hout]
          exact if_pos hlast
        · exact h p hp
      · exact h p hp

theorem slugifySiteName_eq_self {raw : Str} (h : slugifySiteName raw = some name) :
    ¬['-', '-'] <:+: name ∧ slugifySiteName name = some name := by
  obtain ⟨hne, hp, htrim, hlen⟩ := slugifySiteName_eq_some h
  have hstable := @foldl_slugStep_stable [] (by simp) raw
  have hfold := hstable name hp
  refine ⟨?_, ?_⟩
  · rintro ⟨a, b, rfl⟩
    have hone := hstable (a ++ ['-']) (.trans ⟨'-' :: b, by simp⟩ hp)
    have htwo := hstable (a ++ ['-'] ++ ['-']) (.trans ⟨b, by simp⟩ hp)
    rw [foldl_append, hone] at htwo
    simp [slugStep] at htwo
  rw [slugifySiteName, hfold, htrim]
  simp [hne, Nat.not_lt.2 hlen]

/-- Every name comes out as a label, and comes out again as it is; nothing comes out of a text
without letters and digits. -/
theorem site_names_valid (s : Str) :
    (normalizeSiteName s = none ↔ ∀ c ∈ s, c.isAlphanum = false) ∧
    (∀ n, normalizeSiteName s = some n →
      validateAndLowercaseName n = .ok n ∧ normalizeSiteName n = some n ∧
        ((validateAndLowercaseName s).isOk → n = lower s)) ∧
    ∀ n, slugifySiteName s = some n →
      IsLabel n ∧ ¬['-', '-'] <:+: n ∧ slugifySiteName n = some n := by
  refine ⟨?_, fun n h => ?_, fun n h => ⟨(isLabel_of_slugify h).2, slugifySiteName_eq_self h⟩⟩
  · rw [normalizeSiteName]
    split
    · rename_i name hok
      obtain ⟨rfl, hne, hlabel⟩ := validateAndLowercaseName_eq_ok hok
      refine iff_of_false nofun fun hall => hlabel.head_ne ?_
      cases s with
      | nil => exact absurd rfl hne
      | cons c s =>
        have hc := isLabelChar_alnum (hlabel.chars c.toLower mem_cons_self)
        rw [isAlphanum_toLower, hall c mem_cons_self, Bool.false_or, beq_iff_eq] at hc
        exact congrArg some hc
    · exact slugifySiteName_eq_none_iff s
  · have hlabel := isLabel_of_normalize h
    refine ⟨validateAndLowercaseName_of_isLabel hlabel.1 hlabel.2,
      normalizeSiteName_of_isLabel hlabel, fun hok => ?_⟩
    rw [normalizeSiteName] at h
    cases hs : validateAndLowercaseName s with
    | ok m =>
      rw [hs] at h
      exact (Option.some.inj h).symm.trans (validateAndLowercaseName_eq_ok hs).1
    | error e =>
      rw [hs] at hok
      cases hok

theorem SiteName.exists_new (h : name ≠ [] ∧ IsLabel name) :
    ∃ n : SiteName, SiteName.new name = .ok n ∧ n.text = name :=
  ⟨⟨name, validateAndLowercaseName_of_isLabel h.1 h.2⟩, SiteName.new_text ⟨name, _⟩, rfl⟩

end

end Orcker.Core
