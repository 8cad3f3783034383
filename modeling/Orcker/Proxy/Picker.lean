import Orcker.Daemon.Primary
import Orcker.Proxy.Unbound

/-!
# Selecting a site in the picker

The picker links to the primary host of each site, and the switch resolves that host again, so a
link selects its site exactly if the primary leads there.
-/

namespace Orcker.Proxy

open Base Orcker.Core Orcker.Daemon Orcker.Schema RequestTarget

variable {router : SiteRouter}

theorem picker_dest {method : Method} {t : RequestTarget} {siteHeader cookie accept : Option Str}
    {dest : Str} {clear : Bool}
    (h : classifyUnbound router method t.path t.query siteHeader cookie accept =
      .picker dest clear) :
    ∃ path, ('?' ∉ path ∧ '#' ∉ path) ∧ dest = joinPathQuery path t.query := by
  have hdecide {isHtmlGet clear' : Bool} {dest' : Str}
      (h : decidePicker isHtmlGet dest' clear' = .picker dest clear) : dest = dest' := by
    cases isHtmlGet with
    | false => cases h
    | true => exact (UnboundDecision.picker.inj h).1.symm
  unfold classifyUnbound at h
  simp only at h
  split at h
  · split at h <;> cases h
  · split at h
    · cases h
    · split at h
      · rename_i sw hsw
        split at h
        · cases h
        · refine ⟨sw.remainder, ?_, hdecide h⟩
          have hsub := remainder_subset hsw
          exact ⟨fun hc => t.path_ok.1 (hsub _ (by decide) hc),
            fun hc => t.path_ok.2 (hsub _ (by decide) hc)⟩
      · split at h
        · split at h
          · cases h
          · exact ⟨t.path, t.path_ok, hdecide h⟩
        · exact ⟨t.path, t.path_ok, hdecide h⟩

def shownQuery (query : Option Str) : Option Str := query.filter (!·.isEmpty)

theorem joinPathQuery_eq (path : Str) (query : Option Str) :
    joinPathQuery path query =
      sanitizeDest path ++ (shownQuery query).elim [] fun q => '?' :: q := by
  unfold joinPathQuery shownQuery
  cases query with
  | none => simp
  | some q => by_cases hq : q = [] <;> simp [hq, Option.filter]

@[simp] theorem shownQuery_shownQuery (query : Option Str) :
    shownQuery (shownQuery query) = shownQuery query := by
  unfold shownQuery
  simp

theorem mem_sanitizeDest {path : Str} {c : Char} (hc : c ≠ '/') (h : c ∈ sanitizeDest path) :
    c ∈ path := by
  rw [sanitizeDest_eq] at h
  rcases List.mem_cons.1 h with rfl | h
  · exact absurd rfl hc
  · exact (List.dropWhile_suffix _).subset h

/-- A host name has none of the marks a URL is divided by. -/
structure PlainHost (host : Str) : Prop where
  ne_nil : host ≠ []
  slash : '/' ∉ host
  query : '?' ∉ host
  hash : '#' ∉ host

theorem plainHost_toFqdn (d : Domain) (t : Tld) : PlainHost (d.toFqdn t.text) := by
  have hfree {c : Char} (hdot : c ≠ '.') (hstar : c ≠ '*') (hlabel : isLabelChar c = false) :
      c ∉ d.toFqdn t.text := by
    intro hc
    rcases List.mem_append.1 hc with hc | hc
    · exact Domain.notMem_sub hdot hstar hlabel hc
    · rcases List.mem_cons.1 hc with hc | hc
      · exact hdot hc
      · rcases t.text_chars c hc with h | h
        · exact hdot h
        · rw [hlabel] at h
          cases h
  refine ⟨?_, ?_, ?_, ?_⟩
  · simp [Domain.toFqdn]
  · exact hfree (by decide) (by decide) (by decide)
  · exact hfree (by decide) (by decide) (by decide)
  · exact hfree (by decide) (by decide) (by decide)

variable {query : Option Str}

theorem ofLink_pickerLink {host path : Str} (hhost : PlainHost host)
    (hpath : '?' ∉ path ∧ '#' ∉ path) (hquery : ∀ q ∈ query, '#' ∉ q) :
    let link := RequestTarget.ofLink ('/' :: '~' :: (host ++ joinPathQuery path query))
    link.path = '/' :: '~' :: (host ++ sanitizeDest path) ∧ link.query = shownQuery query := by
  have hfree {c : Char} (hslash : c ≠ '/') (htilde : c ≠ '~') (hh : c ∉ host) (hp : c ∉ path) :
      c ∉ '/' :: '~' :: (host ++ sanitizeDest path) := by
    simp only [List.mem_cons, List.mem_append, not_or]
    exact ⟨hslash, htilde, hh, fun hc => hp (mem_sanitizeDest hslash hc)⟩
  have hok : '?' ∉ '/' :: '~' :: (host ++ sanitizeDest path) ∧
      '#' ∉ '/' :: '~' :: (host ++ sanitizeDest path) :=
    ⟨hfree (by decide) (by decide) hhost.query hpath.1,
      hfree (by decide) (by decide) hhost.hash hpath.2⟩
  have hlink : ('/' :: '~' :: (host ++ joinPathQuery path query) : Str) =
      '/' :: '~' :: (host ++ sanitizeDest path) ++
        (shownQuery query).elim [] fun q => '?' :: q := by
    rw [joinPathQuery_eq]
    simp
  intro link
  show (ofLink _).path = _ ∧ (ofLink _).query = _
  rw [hlink]
  cases hshown : shownQuery query with
  | none =>
    rw [Option.elim_none, List.append_nil]
    exact ofLink_path hok
  | some q =>
    have hq : q ∈ query := (Option.filter_eq_some_iff.1 hshown).1
    exact ofLink_query hok (hquery q hq)

/-- A link leads to the site its host resolves to, with the destination as it was. -/
theorem classify_link (router : SiteRouter) {host path : Str} (hhost : PlainHost host)
    (hpath : '?' ∉ path ∧ '#' ∉ path) (hquery : ∀ q ∈ query, '#' ∉ q) (method : Method)
    (cookie accept : Option Str) : let dest := joinPathQuery path query
    let link := RequestTarget.ofLink (htmlUnescape (pickerHref host dest))
    ∃ isHtmlGet, classifyUnbound router method link.path link.query none cookie accept =
      match resolveOrGet router host with
      | some site => .switch site.name.text dest
      | none => decidePicker isHtmlGet dest false := by
  intro dest link
  have hunescape : htmlUnescape (pickerHref host dest) = '/' :: '~' :: (host ++ dest) := by
    have hhref : pickerHref host dest = htmlEscape ('/' :: '~' :: (host ++ dest)) := by
      simp [pickerHref, htmlEscape, escapeHtmlChar]
    rw [hhref, htmlUnescape_htmlEscape]
  have hlink : link.path = '/' :: '~' :: (host ++ sanitizeDest path) ∧
      link.query = shownQuery query := by
    show (ofLink _).path = _ ∧ (ofLink _).query = _
    rw [hunescape]
    exact ofLink_pickerLink hhost hpath hquery
  have hclear : isClearSwitch link.path = false := by
    obtain ⟨c, rest, hcons⟩ := List.exists_cons_of_ne_nil hhost.ne_nil
    have hc : c ≠ '/' := fun h => hhost.slash (by simp [hcons, h])
    rw [hlink.1, hcons]
    simp [isClearSwitch, hc]
  have hswitch : parseSwitch link.path = some ⟨host, sanitizeDest path⟩ := by
    rw [hlink.1, sanitizeDest_eq]
    exact parseSwitch_append hhost.ne_nil hhost.slash
  have hdest : joinPathQuery (sanitizeDest path) link.query = dest := by
    rw [hlink.2, joinPathQuery_eq, sanitizeDest_sanitizeDest, shownQuery_shownQuery,
      ← joinPathQuery_eq]
  refine ⟨decide (method = .get) && accept.any fun a => "text/html" <:+: a, ?_⟩
  unfold classifyUnbound
  cases hsite : resolveOrGet router host <;>
    simp only [Option.map_none, Option.filter_none, hclear, hswitch, hdest, hsite,
      Bool.false_eq_true, if_false]

variable {cfg : Config} {sites : List Site} {s : Site}

theorem dot_notMem_siteName (n : SiteName) : '.' ∉ n.text :=
  fun h => absurd (n.isLabel.chars _ h) (by decide)

theorem mem_pickerSites (h : RouterInv router) {p : PickerSite} (hp : p ∈ pickerSites router) :
    ∃ s : Site, router.routeFor s.name.text = some (.php s) ∧ p.name = s.name.text ∧
      p.primary = router.primaryFqdn s.name.text := by
  obtain ⟨s, hs, rfl⟩ := List.mem_map.1 hp
  obtain ⟨n, hn⟩ := OrdMap.mem_values.1 hs
  refine ⟨s, ?_, rfl, rfl⟩
  rw [h.site_names n s hn]
  exact sites_eq_some_iff_routeFor.1 hn

/-- A full host name is looked up as a host only: no site has a name with a dot. -/
theorem resolveOrGet_toFqdn (h : RouterInv router) (d : Domain) (tld : Str) {s : Site} :
    resolveOrGet router (d.toFqdn tld) = some s ↔
      router.resolveRoute (d.toFqdn tld) = some (.php s) := by
  have hnone : router.sites[d.toFqdn tld]? = none := by
    refine Option.eq_none_iff_forall_ne_some.2 fun s hs => dot_notMem_siteName s.name ?_
    rw [h.site_names _ s hs]
    simp [Domain.toFqdn]
  rw [resolveOrGet, hnone, Option.or_none]
  cases router.resolveRoute (d.toFqdn tld) with
  | none => simp
  | some c => cases c <;> simp

theorem resolveOrGet_primary_iff
    (hs : (build cfg sites).router.routeFor s.name.text = some (.php s)) :
    (∃ s' : Site, resolveOrGet (build cfg sites).router
      ((build cfg sites).router.primaryFqdn s.name.text) = some s' ∧
        s'.name.text = s.name.text) ↔
      ∃ d : Domain, d.isWildcard = false ∧
        (build cfg sites).router.domainOwner d = some s.name.text := by
  have hinv := build_inv cfg sites
  have hname : (Route.php s).name = s.name.text := rfl
  have hresolve := resolves_primary_iff (c := .php s) hs
  have hwon (d : Domain) : d ∈ wonOf cfg sites (.php s) ↔
      (build cfg sites).router.domainOwner d = some s.name.text :=
    (mem_wonOf hs).trans (hinv.lookup_iff d _).symm
  have hcovers : ¬CoversName cfg sites (.php s) := by
    rintro ⟨-, label, rest, hsplit, -⟩
    refine dot_notMem_siteName s.name ?_
    rw [← hname, hsplit]
    simp
  rw [or_iff_left hcovers, hname] at hresolve
  simp only [hwon] at hresolve
  have hsame : (∃ s' : Site, resolveOrGet (build cfg sites).router
      ((build cfg sites).router.primaryFqdn s.name.text) = some s' ∧
        s'.name.text = s.name.text) ↔
      (build cfg sites).router.resolveRoute
        ((build cfg sites).router.primaryFqdn s.name.text) = some (.php s) := by
    rw [← hname, SiteRouter.primaryFqdn, primary_eq hs]
    simp only [resolveOrGet_toFqdn hinv]
    constructor
    · rintro ⟨s', hs', heq⟩
      obtain ⟨-, -, -, -, hroute, -⟩ := hinv.resolveRoute_eq_some_iff.1 hs'
      have hroute' : (build cfg sites).router.routeFor s'.name.text = some (.php s') := hroute
      rw [heq, hname, hs] at hroute'
      rw [hs', hroute']
    · exact fun h => ⟨s, h, rfl⟩
  rw [hsame, hresolve]
  simp only [and_comm]

/-- For every router that is built, every request that is answered with the picker, every site
in it and every way its link is requested: the site is selected, with the destination it was
opened for, exactly if it won an exact domain. -/
theorem picker_link_selects_iff (cfg : Config) (sites : List Site) (t : RequestTarget)
    (method : Method) (siteHeader cookie accept : Option Str) (dest : Str) (clear : Bool)
    (h : classifyUnbound (build cfg sites).router method t.path t.query siteHeader cookie accept =
      .picker dest clear)
    (p : PickerSite) (hp : p ∈ pickerSites (build cfg sites).router)
    (method' : Method) (cookie' accept' : Option Str) :
    let link := RequestTarget.ofLink (htmlUnescape (pickerHref p.primary dest))
    classifyUnbound (build cfg sites).router method' link.path link.query none cookie' accept' =
        .switch p.name dest ↔
      ∃ d : Domain, d.isWildcard = false ∧
        (build cfg sites).router.domainOwner d = some p.name := by
  intro link
  obtain ⟨s, hs, hname, hprimary⟩ := mem_pickerSites (build_inv cfg sites) hp
  obtain ⟨path, hpath, hdest⟩ := picker_dest h
  have hhost : PlainHost p.primary := by
    rw [hprimary, show s.name.text = (Route.php s).name from rfl, SiteRouter.primaryFqdn,
      primary_eq hs]
    exact plainHost_toFqdn _ _
  obtain ⟨isHtmlGet, hlink⟩ := classify_link (build cfg sites).router hhost hpath t.query_ok
    method' cookie' accept'
  rw [← hdest] at hlink
  rw [hlink, hname, ← resolveOrGet_primary_iff hs, ← hprimary]
  cases resolveOrGet (build cfg sites).router p.primary with
  | none => cases isHtmlGet <;> simp [decidePicker]
  | some s' => simp

def takenSite : Site := .ofName .linked ⟨"a", by decide⟩ (.ofStr "/srv/a") ⟨8, 4⟩

def takingSite : Site := .ofName .linked ⟨"b", by decide⟩ (.ofStr "/srv/b") ⟨8, 4⟩

/-- The first adds a wildcard, the second the name of the first. -/
def takenConfig : Config :=
  { Config.default with
    domains := ⟨((∅ : StrMap DomainDelta).insert "a" ⟨[wildDomain], [], none⟩).insert "b"
      ⟨[⟨"a", by decide⟩], [], none⟩, ∅, ∅⟩ }

def takenRouter : SiteRouter := (build takenConfig [takenSite, takingSite]).router

/-- A browser asks for a page on an unbound host. -/
def pageTarget : RequestTarget where
  path := "/x"
  query := some "q=1"
  path_ok := by decide
  query_ok := by decide

theorem picker_link_selects_taking :
    let link := RequestTarget.ofLink (htmlUnescape (pickerHref "b.test" "/x?q=1"))
    classifyUnbound takenRouter .get link.path link.query none none (some "text/html") =
      .switch "b" "/x?q=1" := by
  intro link
  exact (picker_link_selects_iff takenConfig [takenSite, takingSite] pageTarget .get none none
    (some "text/html") "/x?q=1" false (by decide +kernel) ⟨"b", "b.test", false, "linked"⟩
    (by decide +kernel) .get none (some "text/html")).2 ⟨⟨"b", by decide⟩, by decide +kernel⟩

/-- The link of the first selects the second. -/
theorem picker_link_selects_other :
    validate takenConfig = .ok () ∧
    classifyUnbound takenRouter .get pageTarget.path pageTarget.query none none
      (some "text/html") = .picker "/x?q=1" false ∧
    (⟨"a", "a.test", false, "linked"⟩ : PickerSite) ∈ pickerSites takenRouter ∧
    let link := RequestTarget.ofLink (htmlUnescape (pickerHref "a.test" "/x?q=1"))
    classifyUnbound takenRouter .get link.path link.query none none (some "text/html") =
      .switch "b" "/x?q=1" := by
  decide +kernel

end Orcker.Proxy
