import Orcker.Core.Resolve
import Orcker.Proxy.Http

/-!
# Unbound access

Without a resolver for the TLD, sites are reached over `localhost`.
-/

namespace Orcker.Proxy

open Base Orcker.Core List

def siteCookie : Str := "orcker-site"

structure SwitchParse where
  domain : Str
  remainder : Str
  deriving DecidableEq

/-- The domain ends at the first slash. -/
def splitSwitch (after : Str) : SwitchParse :=
  match splitOnce '/' after with
  | some (domain, rest) => ⟨domain, '/' :: rest⟩
  | none => ⟨after, ['/']⟩

/-- A switch URL is `/~domain/rest`. -/
def parseSwitch (path : Str) : Option SwitchParse :=
  match path.dropPrefix? ['/', '~'] with
  | none => none
  | some after =>
    if (splitSwitch after).domain.isEmpty then none else some (splitSwitch after)

theorem parseSwitch_append {domain rest : Str} (hne : domain ≠ []) (hslash : '/' ∉ domain) :
    parseSwitch ('/' :: '~' :: (domain ++ '/' :: rest)) = some ⟨domain, '/' :: rest⟩ := by
  have hdrop : ('/' :: '~' :: (domain ++ '/' :: rest)).dropPrefix? ['/', '~'] =
      some (domain ++ '/' :: rest) := dropPrefix?_eq_some.2 rfl
  have hsplit : splitSwitch (domain ++ '/' :: rest) = ⟨domain, '/' :: rest⟩ := by
    rw [splitSwitch, splitOnce_append hslash]
  unfold parseSwitch
  rw [hdrop]
  simp only [hsplit, List.isEmpty_iff, hne, if_false]

theorem remainder_subset {path : Str} {sw : SwitchParse} (h : parseSwitch path = some sw) (c : Char)
    (hc : c ≠ '/') (hmem : c ∈ sw.remainder) : c ∈ path := by
  unfold parseSwitch at h
  split at h
  · cases h
  · rename_i after hafter
    split at h
    · cases h
    · obtain rfl := Option.some.inj h
      rw [dropPrefix?_eq_some.1 hafter]
      refine mem_append_right _ ?_
      unfold splitSwitch at hmem
      split at hmem
      · rename_i domain rest hsplit
        rw [(splitOnce_eq_some_iff.1 hsplit).1]
        exact mem_append_right _ hmem
      · exact absurd (mem_singleton.1 hmem) hc

/-- The way back to the picker. -/
def isClearSwitch (path : Str) : Bool := path = ['/', '~'] || path = ['/', '~', '/']

/-- The site a `Cookie` header pins. -/
def parseCookieSite (cookieHeader : Str) : Option Str :=
  (cookieHeader.splitOn ';').findSome? fun pair =>
    match splitOnce '=' (trim pair) with
    | none => none
    | some (k, v) => if k = siteCookie ∧ v ≠ [] then some v else none

def isSlash (c : Char) : Bool := c = '/' || c = '\\'

/-- One `/` for a leading run of slashes and backslashes. -/
def sanitizeDest (path : Str) : Str :=
  let trimmed := path.dropWhile isSlash
  let stripped := path.length - trimmed.length
  if stripped = 1 ∧ path.head? = some '/' then path
  else if trimmed.isEmpty then ['/']
  else '/' :: trimmed

def joinPathQuery (path : Str) (query : Option Str) : Str :=
  match query with
  | some q => if q.isEmpty then sanitizeDest path else sanitizeDest path ++ '?' :: q
  | none => sanitizeDest path

theorem sanitizeDest_eq (path : Str) : sanitizeDest path = '/' :: path.dropWhile isSlash := by
  unfold sanitizeDest
  simp only
  split
  · rename_i h
    obtain ⟨hone, hhead⟩ := h
    -- The one character taken off is the slash in front.
    cases path with
    | nil => cases hhead
    | cons c rest =>
      obtain rfl : c = '/' := Option.some.inj hhead
      have hdrop : ('/' :: rest).dropWhile isSlash = rest.dropWhile isSlash := rfl
      rw [hdrop] at hone ⊢
      have hlen := (dropWhile_suffix (l := rest) isSlash).length_le
      rw [length_cons] at hone
      rw [(dropWhile_suffix (l := rest) isSlash).eq_of_length (by omega)]
  · split
    · rename_i hempty
      rw [isEmpty_iff.1 hempty]
    · rfl

theorem head?_dropWhile_isSlash (path : Str) {c : Char}
    (h : (path.dropWhile isSlash).head? = some c) : isSlash c = false := by
  have hnot := head?_dropWhile_not isSlash path
  rw [h] at hnot
  simpa using hnot

@[simp] theorem sanitizeDest_sanitizeDest (path : Str) :
    sanitizeDest (sanitizeDest path) = sanitizeDest path := by
  have hdrop : ('/' :: path.dropWhile isSlash).dropWhile isSlash = path.dropWhile isSlash := by
    rw [dropWhile_cons_of_pos (by decide)]
    cases htrim : path.dropWhile isSlash with
    | nil => rfl
    | cons c rest =>
      have hc : isSlash c = false := head?_dropWhile_isSlash path (by rw [htrim]; rfl)
      rw [dropWhile_cons_of_neg (by simp [hc])]
  rw [sanitizeDest_eq (sanitizeDest path), sanitizeDest_eq path, hdrop]

def escapeHtmlChar (c : Char) : Str :=
  if c = '&' then "&amp;"
  else if c = '<' then "&lt;"
  else if c = '>' then "&gt;"
  else if c = '"' then "&quot;"
  else if c = '\'' then "&#39;"
  else [c]

/-- Text on a page, or in an attribute. -/
def htmlEscape (s : Str) : Str := s.flatMap escapeHtmlChar

/-- What a browser reads in an attribute value, for the references the page uses. -/
def htmlUnescape : Str → Str
  | '&' :: 'a' :: 'm' :: 'p' :: ';' :: rest => '&' :: htmlUnescape rest
  | '&' :: 'l' :: 't' :: ';' :: rest => '<' :: htmlUnescape rest
  | '&' :: 'g' :: 't' :: ';' :: rest => '>' :: htmlUnescape rest
  | '&' :: 'q' :: 'u' :: 'o' :: 't' :: ';' :: rest => '"' :: htmlUnescape rest
  | '&' :: '#' :: '3' :: '9' :: ';' :: rest => '\'' :: htmlUnescape rest
  | c :: rest => c :: htmlUnescape rest
  | [] => []

theorem htmlUnescape_escapeHtmlChar (c : Char) (rest : Str) :
    htmlUnescape (escapeHtmlChar c ++ rest) = c :: htmlUnescape rest := by
  unfold escapeHtmlChar
  by_cases hamp : c = '&'
  · subst hamp
    rfl
  by_cases hlt : c = '<'
  · subst hlt
    rfl
  by_cases hgt : c = '>'
  · subst hgt
    rfl
  by_cases hquot : c = '"'
  · subst hquot
    rfl
  by_cases hapos : c = '\''
  · subst hapos
    rfl
  rw [if_neg hamp, if_neg hlt, if_neg hgt, if_neg hquot, if_neg hapos, singleton_append,
    htmlUnescape]
  all_goals
    intros
    exact hamp ‹_›

@[simp] theorem htmlUnescape_htmlEscape (s : Str) : htmlUnescape (htmlEscape s) = s := by
  induction s with
  | nil => rfl
  | cons c s ih =>
    show htmlUnescape (escapeHtmlChar c ++ htmlEscape s) = c :: s
    rw [htmlUnescape_escapeHtmlChar, ih]

/-- A site as the page lists it. -/
structure PickerSite where
  name : Str
  primary : Str
  secure : Bool
  kind : Str
  deriving DecidableEq

/-- The link of a site, as it stands in the page. -/
def pickerHref (primary dest : Str) : Str :=
  "/~" ++ htmlEscape primary ++ htmlEscape dest

def pickerRow (dest : Str) (s : PickerSite) : Str :=
  let badge : Str :=
    if s.secure then
      "<span class=\"badge\" title=\"configured for HTTPS — served over plain http here\">" ++
        "secure</span>"
    else ""
  "<a class=\"site\" href=\"" ++ pickerHref s.primary dest ++
    "\"><span class=\"site-name\">" ++ htmlEscape s.primary ++
    "</span><span class=\"site-meta\">" ++ htmlEscape s.kind ++ badge ++ "</span></a>"

def pickerBody (sites : List PickerSite) (dest : Str) : Str :=
  if sites.isEmpty then
    "<p class=\"empty\">No sites yet — park or link a directory first.</p>"
  else "<div class=\"list\">" ++ sites.flatMap (pickerRow dest) ++ "</div>"

/-- The page; `css` and `logo` are its style sheet and its picture. -/
def renderPicker (css logo : Str) (sites : List PickerSite) (dest : Str) : Str :=
  ("<!doctype html><html lang=\"en\"><head><meta charset=\"utf-8\">" ++
    "<meta name=\"viewport\" content=\"width=device-width, initial-scale=1\">" ++
    "<meta name=\"color-scheme\" content=\"light dark\">" ++
    "<title>Orcker — choose a site</title><style>").toList ++ css ++
    "</style></head><body><main class=\"wrap\"><div class=\"brand\">" ++ logo ++
    "<h1>Orcker</h1></div><p class=\"sub\">Choose a site to open.</p>" ++
    pickerBody sites dest ++
    "<p class=\"opening\">Opening <code>" ++ htmlEscape dest ++
    ("</code></p><p class=\"note\">Served over plain <code>http://localhost</code>. Sites that " ++
      "force HTTPS may not load.</p></main></body></html>").toList

/-- The texts have the same marks of tags and attribute values, in the same order. -/
def SameMarkup (s t : Str) : Prop :=
  s.filter (· ∈ ['<', '>', '"', '\'']) = t.filter (· ∈ ['<', '>', '"', '\''])

theorem SameMarkup.refl (s : Str) : SameMarkup s s := rfl

theorem SameMarkup.append {s t s' t' : Str} (h : SameMarkup s t) (h' : SameMarkup s' t') :
    SameMarkup (s ++ s') (t ++ t') := by
  rw [SameMarkup, filter_append, filter_append, h, h']

theorem sameMarkup_htmlEscape (s : Str) : SameMarkup (htmlEscape s) (htmlEscape []) := by
  rw [SameMarkup, htmlEscape, filter_flatMap, flatMap_eq_nil_iff.2]
  · rfl
  · intro c _
    unfold escapeHtmlChar
    split_ifs <;> first | rfl | simp_all

theorem sameMarkup_pickerRow (dest : Str) (s : PickerSite) :
    SameMarkup (pickerRow dest s) (pickerRow [] ⟨[], [], s.secure, []⟩) := by
  unfold pickerRow pickerHref
  repeat' with_reducible apply SameMarkup.append
  all_goals first | exact sameMarkup_htmlEscape _ | exact .refl _

/-- Whatever a site is called and whatever a request asks for, neither adds a tag to the page or
breaks out of one: its markup is that of the page with these texts left out. -/
theorem renderPicker_markup (css logo : Str) (sites : List PickerSite) (dest : Str) :
    SameMarkup (renderPicker css logo sites dest)
      (renderPicker css logo (sites.map fun s => ⟨[], [], s.secure, []⟩) []) := by
  have hrows : SameMarkup (sites.flatMap (pickerRow dest))
      ((sites.map fun s => ⟨[], [], s.secure, []⟩).flatMap (pickerRow [])) := by
    induction sites with
    | nil => exact .refl _
    | cons s sites ih => exact (sameMarkup_pickerRow dest s).append ih
  have hbody : SameMarkup (pickerBody sites dest)
      (pickerBody (sites.map fun s => ⟨[], [], s.secure, []⟩) []) := by
    rw [pickerBody, pickerBody, isEmpty_map]
    split_ifs
    · exact .refl _
    · exact ((SameMarkup.refl _).append hrows).append (.refl _)
  unfold renderPicker
  repeat' with_reducible apply SameMarkup.append
  all_goals
    with_reducible first | exact .refl _ | exact hbody | exact sameMarkup_htmlEscape _

def kindLabel : SiteKind → Str
  | .parked => "parked"
  | .linked => "linked"

/-- The sites of a router as the picker lists them. -/
def pickerSites (router : SiteRouter) : List PickerSite :=
  router.sites.values.map fun s =>
    ⟨s.name.text, router.primaryFqdn s.name.text, s.secure, kindLabel s.kind⟩

/-- A request names its site by a header, by a switch URL, or by the cookie that a switch sets; a
browser that does none of these gets a page with a switch link for each site. -/
inductive UnboundDecision where
  | serve (site : Site)
  | switch (name location : Str)
  | picker (dest : Str) (clear : Bool)
  | notFound (clear : Bool)
  | clearPin
  deriving DecidableEq

def decidePicker (isHtmlGet : Bool) (dest : Str) (clear : Bool) : UnboundDecision :=
  if isHtmlGet then .picker dest clear else .notFound clear

/-- The PHP site a host resolves to, or the site of that name. -/
def resolveOrGet (router : SiteRouter) (value : Str) : Option Site :=
  (match router.resolveRoute value with
    | some (.php site) => some site
    | _ => none).or router.sites[value]?

/-- What a loopback request that no host resolved is about. -/
def classifyUnbound (router : SiteRouter) (method : Method) (path : Str) (query : Option Str)
    (siteHeader cookie accept : Option Str) : UnboundDecision :=
  let isHtmlGet := decide (method = .get) && accept.any fun a => "text/html" <:+: a
  match (siteHeader.map trim).filter (!·.isEmpty) with
  | some value =>
    match resolveOrGet router value with
    | some site => .serve site
    | none => .notFound false
  | none =>
    if isClearSwitch path then .clearPin
    else
      match parseSwitch path with
      | some sw =>
        match resolveOrGet router sw.domain with
        | some site => .switch site.name.text (joinPathQuery sw.remainder query)
        | none => decidePicker isHtmlGet (joinPathQuery sw.remainder query) false
      | none =>
        match cookie.bind parseCookieSite with
        | some name =>
          match router.sites[name]? with
          | some site => .serve site
          | none => decidePicker isHtmlGet (joinPathQuery path query) true
        | none => decidePicker isHtmlGet (joinPathQuery path query) false

/-- The path and query of a request, as the HTTP library hands them on. -/
structure RequestTarget where
  path : Str
  query : Option Str
  path_ok : '?' ∉ path ∧ '#' ∉ path
  query_ok : ∀ q ∈ query, '#' ∉ q

/-- The part of a link that is sent: the fragment is dropped. -/
def sentPart (link : Str) : Str := link.takeWhile (· ≠ '#')

theorem hash_notMem_sentPart (link : Str) : '#' ∉ sentPart link := by
  intro h
  simpa using mem_takeWhile_imp h

/-- How a link is requested: the query starts at the first `?`. -/
def RequestTarget.ofLink (link : Str) : RequestTarget :=
  match h : splitOnce '?' (sentPart link) with
  | some (path, query) =>
    { path
      query := some query
      path_ok := by
        obtain ⟨hsent, hpath⟩ := splitOnce_eq_some_iff.1 h
        refine ⟨hpath, fun hhash => hash_notMem_sentPart link ?_⟩
        rw [hsent]
        exact List.mem_append_left _ hhash
      query_ok := by
        intro q hq hhash
        obtain rfl := Option.some.inj hq
        refine hash_notMem_sentPart link ?_
        rw [(splitOnce_eq_some_iff.1 h).1]
        exact List.mem_append_right _ (List.mem_cons_of_mem _ hhash) }
  | none =>
    { path := sentPart link
      query := none
      path_ok := ⟨splitOnce_eq_none_iff.1 h, hash_notMem_sentPart link⟩
      query_ok := nofun }

theorem RequestTarget.ofLink_path {path : Str} (hpath : '?' ∉ path ∧ '#' ∉ path) :
    (ofLink path).path = path ∧ (ofLink path).query = none := by
  have hsent : sentPart path = path := takeWhile_eq_self_iff.2 fun c hc => by
    simpa using fun h : c = '#' => hpath.2 (h ▸ hc)
  have hsplit : splitOnce '?' (sentPart path) = none := by
    rw [hsent]
    exact splitOnce_eq_none_iff.2 hpath.1
  unfold ofLink
  split
  · rename_i h
    rw [hsplit] at h
    cases h
  · exact ⟨hsent, rfl⟩

theorem RequestTarget.ofLink_query {path query : Str} (hpath : '?' ∉ path ∧ '#' ∉ path)
    (hquery : '#' ∉ query) :
    (ofLink (path ++ '?' :: query)).path = path ∧
      (ofLink (path ++ '?' :: query)).query = some query := by
  have hsent : sentPart (path ++ '?' :: query) = path ++ '?' :: query := by
    refine takeWhile_eq_self_iff.2 fun c hc => ?_
    rw [mem_append, mem_cons] at hc
    rcases hc with hc | rfl | hc
    · simpa using fun h : c = '#' => hpath.2 (h ▸ hc)
    · decide
    · simpa using fun h : c = '#' => hquery (h ▸ hc)
  have hsplit : splitOnce '?' (sentPart (path ++ '?' :: query)) = some (path, query) := by
    rw [hsent]
    exact splitOnce_append hpath.1
  unfold ofLink
  split
  · rename_i h
    rw [hsplit] at h
    cases h
    exact ⟨rfl, rfl⟩
  · rename_i h
    rw [hsplit] at h
    cases h

end Orcker.Proxy
