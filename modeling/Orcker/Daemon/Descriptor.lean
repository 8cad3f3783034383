import Orcker.Base.Lines
import Orcker.Core.Php
import Orcker.Daemon.LinkPlan

/-!
# Reading a project's descriptor
-/

namespace Orcker.Daemon.OrckerYml

open Base Orcker.Core Orcker.Schema List

/-! ## The reader -/

def knownKeys : List Str := ["schema_version", "site", "php", "db", "preset"]

/-- Without blanks around it, and without quotes. -/
def unquote (value : Str) : Str :=
  let value := trim value
  let within (quote : Char) : Option Str :=
    (value.dropPrefix? [quote]).bind fun v => v.dropSuffix? [quote]
  ((within '"').or (within '\'')).getD value

/-- What the reader makes of a line. -/
inductive Line where
  | skipped
  | malformed
  | entry (key value : Str)
  deriving DecidableEq

/-- Blank lines, comments, list items and indented lines are passed over. -/
def readLine (raw : Str) : Line :=
  let trimmed := trim raw
  if trimmed = [] ∨ trimmed.head? = some '#' ∨ trimmed.head? = some '-' then .skipped
  else if raw.head? = some ' ' ∨ raw.head? = some '\t' then .skipped
  else
    match splitOnce ':' trimmed with
    | none => .malformed
    | some (key, value) =>
      if trim key ∈ knownKeys then .entry (trim key) (unquote value) else .skipped

/-- The values of the known keys. `line` is the number of the first line. -/
def scan (line : Nat) (found : StrMap Str) : List Str → Except ConfigError (StrMap Str)
  | [] => .ok found
  | raw :: rest =>
    match readLine raw with
    | .skipped => scan (line + 1) found rest
    | .malformed => .error (.orckerYml (.malformed line))
    | .entry key value =>
      if found[key]?.isSome then .error (.orckerYml (.duplicateKey key))
      else scan (line + 1) (found.insert key value) rest

def required (found : StrMap Str) (key : Str) : Except ConfigError Str :=
  match found[key]? with
  | some value => .ok value
  | none => .error (.orckerYml (.missingKey key))

/-- Only the current version is read. -/
def readVersion (raw : Str) : Except ConfigError Nat :=
  match parseUInt (2 ^ 32 - 1) raw with
  | none => .error (.orckerYml (.invalidValue "schema_version" raw))
  | some version =>
    if version ≠ currentSchemaVersion then
      .error (.orckerYml (.unsupportedSchemaVersion version))
    else .ok version

def readPhp (raw : Str) : Except ConfigError PhpVersion :=
  (PhpVersion.fromStr raw).mapError fun _ => .orckerYml (.invalidValue "php" raw)

/-- The five keys are checked in this order, so the first that fails is the one reported. -/
def parse (input : Str) : Except ConfigError OrckerYml := do
  let found ← scan 1 ∅ (lines input)
  let schemaVersion ← required found "schema_version" >>= readVersion
  let phpRaw ← required found "php"
  let site ← required found "site" >>= validatedSite
  let php ← readPhp phpRaw
  let db ← required found "db" >>= fun db => oneOf "db" db knownDbEngines
  let preset ← required found "preset" >>= fun preset => oneOf "preset" preset knownPresets
  return { schemaVersion, site, php, db, preset }

/-- The text that is written. -/
def render (yml : OrckerYml) : Str :=
  ("schema_version: " : Str) ++ decimal yml.schemaVersion ++ '\n' ::
    (("site: " : Str) ++ yml.site ++ '\n' ::
    (("php: \"" : Str) ++ yml.php.display ++ '"' :: '\n' ::
    (("db: " : Str) ++ yml.db ++ '\n' ::
    (("preset: " : Str) ++ yml.preset ++ ['\n']))))

/-! ## The scan -/

/-- The lines that say something. -/
def statements (ls : List Str) : List Line := (ls.map readLine).filter (· ≠ .skipped)

/-- The line that gives `e.1` the value `e.2`. -/
def Line.ofEntry (e : Str × Str) : Line := .entry e.1 e.2

section Scan

variable {line : Nat} {found m : StrMap Str} {ls : List Str} {es : List (Str × Str)}

theorem statements_cons (raw : Str) (ls : List Str) : statements (raw :: ls) =
    if readLine raw = .skipped then statements ls else readLine raw :: statements ls := by
  rw [statements, map_cons, filter_cons]
  by_cases h : readLine raw = .skipped <;> simp [h, statements]

theorem statements_append (ls ms : List Str) :
    statements (ls ++ ms) = statements ls ++ statements ms := by
  rw [statements, map_append, filter_append, statements, statements]

theorem scan_eq_ok (h : scan line found ls = .ok m) :
    ∃ es : List (Str × Str), statements ls = es.map .ofEntry ∧ (es.map Prod.fst).Nodup ∧
      (∀ e ∈ es, found[e.1]? = none) ∧
      ∀ k v : Str, m[k]? = some v ↔ found[k]? = some v ∨ (k, v) ∈ es := by
  induction ls generalizing line found with
  | nil =>
    obtain rfl : found = m := Except.ok.inj h
    exact ⟨[], rfl, nodup_nil, by simp, by simp⟩
  | cons raw ls ih =>
    rw [scan] at h
    rw [statements_cons]
    cases hraw : readLine raw with
    | skipped =>
      rw [hraw] at h
      exact ih h
    | malformed => simp [hraw] at h
    | entry key value =>
      simp only [hraw] at h
      split at h
      · cases h
      · next hnew =>
        rw [Option.not_isSome_iff_eq_none] at hnew
        obtain ⟨es, hes, hnodup, hfresh, hget⟩ := ih h
        have hkey : ∀ e ∈ es, e.1 ≠ key ∧ found[e.1]? = none := by
          intro e he
          have := hfresh e he
          rw [OrdMap.getElem?_insert] at this
          split at this
          · cases this
          · next hne => exact ⟨hne, this⟩
        refine ⟨(key, value) :: es, by simp [hes, Line.ofEntry], ?_, ?_, ?_⟩
        · rw [map_cons, nodup_cons, mem_map]
          exact ⟨fun ⟨e, he, heq⟩ => (hkey e he).1 heq, hnodup⟩
        · exact forall_mem_cons.2 ⟨hnew, fun e he => (hkey e he).2⟩
        · intro k v
          rw [hget, OrdMap.getElem?_insert, mem_cons, Prod.mk.injEq]
          by_cases hk : k = key
          · subst hk
            simp [hnew, eq_comm]
          · simp [hk]

theorem exists_scan_eq_ok (hes : statements ls = es.map .ofEntry) (hnodup : (es.map Prod.fst).Nodup)
    (hfresh : ∀ e ∈ es, found[e.1]? = none) : ∃ m, scan line found ls = .ok m := by
  induction ls generalizing line found es with
  | nil => exact ⟨found, rfl⟩
  | cons raw ls ih =>
    rw [statements_cons] at hes
    rw [scan]
    cases hraw : readLine raw with
    | skipped =>
      rw [hraw] at hes
      exact ih hes hnodup hfresh
    | malformed =>
      rw [hraw] at hes
      cases es <;> simp [Line.ofEntry] at hes
    | entry key value =>
      rw [hraw, if_neg (by simp)] at hes
      cases es with
      | nil => simp at hes
      | cons e es =>
        obtain ⟨hhead, htail⟩ := cons.inj hes
        obtain ⟨rfl, rfl⟩ : key = e.1 ∧ value = e.2 := by simpa [Line.ofEntry] using hhead
        obtain ⟨hnew, hrest⟩ := forall_mem_cons.1 hfresh
        rw [map_cons, nodup_cons] at hnodup
        simp only [hnew, Option.isSome_none, Bool.false_eq_true, if_false]
        refine ih htail hnodup.2 fun f hf => ?_
        have hne : f.1 ≠ e.1 := fun heq => hnodup.1 (mem_map.2 ⟨f, hf, heq⟩)
        rw [OrdMap.getElem?_insert, if_neg hne]
        exact hrest f hf

end Scan

/-! ## Single lines -/

theorem readLine_stripCr (line : Str) : readLine (stripCr line) = readLine line := by
  unfold readLine
  rw [trim_stripCr]
  by_cases hblank : trim line = []
  · simp [hblank]
  · -- Only a lone carriage return loses its first character, and that line is blank.
    have hhead : (stripCr line).head? = line.head? := by
      unfold stripCr
      cases hs : line.dropSuffix? ['\r'] with
      | none => rfl
      | some p =>
        rw [dropSuffix?_eq_some] at hs
        subst hs
        cases p with
        | nil => exact absurd (by decide) hblank
        | cons c p => rfl
    rw [hhead]

inductive Quote where
  | bare
  | double
  | single

def Quote.wrap (value : Str) : Quote → Str
  | .bare => value
  | .double => '"' :: (value ++ ['"'])
  | .single => '\'' :: (value ++ ['\''])

/-- The line gives the entry, with any number of spaces behind the colon. -/
def Gives (e : Str × Str) (line : Str) : Prop :=
  ∃ (spaces : Nat) (quote : Quote),
    line = e.1 ++ ':' :: (List.replicate spaces ' ' ++ quote.wrap e.2)

/-- Blank, a comment, a list item, indented, or with a key that is not known. A key is what stands
before the first colon, without white space around it. -/
def Ignorable (line : Str) : Prop :=
  trim line = [] ∨ (∃ c ∈ ['#', '-', ' ', '\t'], line.head? = some c) ∨
    ∃ key value : Str, line = key ++ ':' :: value ∧ ':' ∉ key ∧ trim key ∉ knownKeys

/-- The line gives a value to `key` at top level. -/
def Assigns (key line : Str) : Prop :=
  line.head? ≠ some ' ' ∧ line.head? ≠ some '\t' ∧
    ∃ before value : Str, line = before ++ ':' :: value ∧ ':' ∉ before ∧ trim before = key

/-- A value that quotes and spaces can be put around: something is there, and nothing in it is
white space or a quote. -/
structure Plain (value : Str) : Prop where
  ne_nil : value ≠ []
  chars : ∀ c ∈ value, isWhitespace c = false ∧ c ≠ '"' ∧ c ≠ '\''

variable {value : Str}

theorem splitOnce_trim {before : Str} (h : ':' ∉ before) :
    splitOnce ':' (trim (before ++ ':' :: value)) =
      some (before.dropWhile isWhitespace, (value.reverse.dropWhile isWhitespace).reverse) := by
  rw [trim_append_cons (by decide)]
  exact splitOnce_append fun hmem => h ((dropWhile_suffix _).subset hmem)

variable {line : Str} {e : Str × Str} {yml : OrckerYml}

theorem readLine_of_ignorable (h : Ignorable line) : readLine line = .skipped := by
  rcases h with hblank | ⟨c, hc, hhead⟩ | ⟨key, value, rfl, hcolon, hkey⟩
  · simp [readLine, hblank]
  · obtain ⟨rest, rfl⟩ : ∃ rest, line = c :: rest := head?_eq_some_iff.1 hhead
    by_cases hspace : c = ' ' ∨ c = '\t'
    · rw [readLine]
      simp [hspace]
    · have hmark : c = '#' ∨ c = '-' := by simpa [hspace, or_assoc] using hc
      have hws : isWhitespace c = false := by rcases hmark with rfl | rfl <;> decide
      simp only [readLine, head?_trim hws, Option.some.injEq]
      rw [if_pos (Or.inr hmark)]
  · rw [readLine]
    simp only [splitOnce_trim hcolon, trim_dropWhile, if_neg hkey]
    simp

theorem ne_nil_of_mem_knownKeys : ∀ {key : Str}, key ∈ knownKeys →
    key ≠ [] ∧ key.head? ≠ some '#' ∧ key.head? ≠ some '-' ∧ key.head? ≠ some ' ' ∧
      key.head? ≠ some '\t' ∧ ':' ∉ key ∧ trim key = key := by
  decide

theorem readLine_assign {before : Str} (hkey : trim before ∈ knownKeys) (hcolon : ':' ∉ before)
    (hspace : (before ++ ':' :: value).head? ≠ some ' ')
    (htab : (before ++ ':' :: value).head? ≠ some '\t') :
    readLine (before ++ ':' :: value) =
      .entry (trim before) (unquote (value.reverse.dropWhile isWhitespace).reverse) := by
  obtain ⟨hne, hhash, hdash, -⟩ := ne_nil_of_mem_knownKeys hkey
  have hstart : (trim (before ++ ':' :: value)).head? = (trim before).head? := by
    rw [trim_append_cons (by decide), ← head?_dropWhile_of_trim hne]
    cases hb : before.dropWhile isWhitespace with
    | nil => exact absurd (by rw [← trim_dropWhile, hb]; rfl) hne
    | cons c rest => rfl
  have hfull : trim (before ++ ':' :: value) ≠ [] := by
    rw [trim_append_cons (by decide)]
    simp
  rw [readLine]
  simp only [hstart, splitOnce_trim hcolon, trim_dropWhile]
  rw [if_neg, if_neg, if_pos hkey]
  · exact not_or.2 ⟨hspace, htab⟩
  · exact not_or.2 ⟨hfull, not_or.2 ⟨hhash, hdash⟩⟩

theorem exists_readLine_of_assigns {key : Str} (hkey : key ∈ knownKeys) (h : Assigns key line) :
    ∃ value, readLine line = .entry key value := by
  obtain ⟨hspace, htab, before, value, rfl, hcolon, rfl⟩ := h
  exact ⟨_, readLine_assign hkey hcolon hspace htab⟩

theorem Plain.head?_wrap (h : Plain value) (quote : Quote) :
    ∀ c ∈ (quote.wrap value).head?, isWhitespace c = false := by
  cases quote with
  | bare => exact fun c hc => (h.chars c (mem_of_head? hc)).1
  | double | single => simp [Quote.wrap]; decide

theorem Plain.getLast?_wrap (h : Plain value) (quote : Quote) :
    ∀ c ∈ (quote.wrap value).getLast?, isWhitespace c = false := by
  cases quote with
  | bare => exact fun c hc => (h.chars c (mem_of_getLast? hc)).1
  | double | single =>
    rw [Quote.wrap, ← cons_append, getLast?_concat]
    simp; decide

theorem Plain.wrap_ne_nil (h : Plain value) (quote : Quote) : quote.wrap value ≠ [] := by
  cases quote with
  | bare => exact h.ne_nil
  | double | single => simp [Quote.wrap]

variable {c : Char}

theorem dropPrefix?_eq_none_of_head? {s : Str} (h : s.head? ≠ some c) :
    s.dropPrefix? [c] = none := by
  cases hs : s.dropPrefix? [c] with
  | none => rfl
  | some rest =>
    rw [dropPrefix?_eq_some] at hs
    exact absurd (by rw [hs]; rfl) h

theorem Plain.unquote_wrap (h : Plain value) (spaces : Nat) (quote : Quote) :
    unquote (List.replicate spaces ' ' ++ quote.wrap value) = value := by
  have htrim : trim (replicate spaces ' ' ++ quote.wrap value) = quote.wrap value := by
    rw [trim_append_of_isWhitespace, trim_eq_self (h.head?_wrap quote) (h.getLast?_wrap quote)]
    intro c hc
    rw [eq_of_mem_replicate hc]
    decide
  have hhead : ∀ c, value.head? = some c → c ≠ '"' ∧ c ≠ '\'' := fun c hc =>
    (h.chars c (mem_of_head? hc)).2
  simp only [unquote, htrim]
  cases quote with
  | bare =>
    rw [Quote.wrap, dropPrefix?_eq_none_of_head? fun hc => (hhead _ hc).1 rfl,
      dropPrefix?_eq_none_of_head? fun hc => (hhead _ hc).2 rfl]
    rfl
  | double =>
    have hfirst : (Quote.double.wrap value).dropPrefix? ['"'] = some (value ++ ['"']) :=
      dropPrefix?_eq_some.2 rfl
    rw [hfirst, Option.bind_some, dropSuffix?_eq_some.2 rfl]
    rfl
  | single =>
    have hfirst : (Quote.single.wrap value).dropPrefix? ['\''] = some (value ++ ['\'']) :=
      dropPrefix?_eq_some.2 rfl
    rw [dropPrefix?_eq_none_of_head? (by simp [Quote.wrap]), hfirst, Option.bind_none,
      Option.bind_some, dropSuffix?_eq_some.2 rfl]
    rfl

theorem readLine_of_gives (hkey : e.1 ∈ knownKeys) (hvalue : Plain e.2) (h : Gives e line) :
    readLine line = .ofEntry e := by
  obtain ⟨spaces, quote, rfl⟩ := h
  obtain ⟨hne, -, -, hspace, htab, hcolon, htrim⟩ := ne_nil_of_mem_knownKeys hkey
  have hhead : ∀ rest, (e.1 ++ rest).head? = e.1.head? := fun rest => by
    rw [head?_append_of_ne_nil _ hne]
  have hend : ((replicate spaces ' ' ++ quote.wrap e.2).reverse.dropWhile
      isWhitespace).reverse = replicate spaces ' ' ++ quote.wrap e.2 := by
    rw [dropWhile_eq_self, reverse_reverse]
    rw [head?_reverse, getLast?_append_of_ne_nil _ (hvalue.wrap_ne_nil quote)]
    exact hvalue.getLast?_wrap quote
  rw [readLine_assign (by rwa [htrim]) hcolon (by rwa [hhead]) (by rwa [hhead]), hend,
    hvalue.unquote_wrap, htrim]
  rfl

/-! ## Texts that say the same -/

/-- The keys and values of a descriptor. -/
def fields (yml : OrckerYml) : List (Str × Str) :=
  [("schema_version", decimal yml.schemaVersion), ("site", yml.site), ("php", yml.php.display),
    ("db", yml.db), ("preset", yml.preset)]

/-- The text says what `yml` says: its lines, each ended in either way, are the descriptor's entries
and any lines that are passed over, in any order. -/
def Says (yml : OrckerYml) (text : Str) : Prop :=
  ∃ (ended : List (Str × Bool)) (last : Str) (given others : List Str),
    text = endedLines ended last ∧ (∀ l ∈ ended, '\n' ∉ l.1) ∧ '\n' ∉ last ∧
    (ended.map Prod.fst ++ [last]).Perm (given ++ others) ∧
    List.Forall₂ Gives yml.fields given ∧ ∀ l ∈ others, Ignorable l

theorem statements_endedLines {ended : List (Str × Bool)} {last : Str}
    (h : ∀ l ∈ ended, '\n' ∉ l.1) (hlast : '\n' ∉ last) :
    statements (lines (endedLines ended last)) = statements (ended.map Prod.fst ++ [last]) := by
  rw [lines_endedLines h hlast, statements_append, statements_append]
  congr 1
  · rw [statements, statements, map_map, map_map]
    congr 1
    refine map_congr_left fun l _ => ?_
    obtain ⟨line, cr⟩ := l
    cases cr
    · exact readLine_stripCr line
    · rfl
  · by_cases hne : last = []
    · subst hne
      decide
    · simp [hne]

/-! ## Descriptors that were built -/

/-- What building a descriptor checks. The PHP version is taken as it is. -/
structure Valid (yml : OrckerYml) : Prop where
  version : yml.schemaVersion = currentSchemaVersion
  site : yml.site ≠ [] ∧ IsLabel yml.site
  db : yml.db ∈ knownDbEngines
  preset : yml.preset ∈ knownPresets

theorem oneOf_eq_ok_iff {key v : Str} {allowed : List Str} :
    oneOf key value allowed = .ok v ↔ value ∈ allowed ∧ value = v := by
  unfold oneOf
  split <;> simp_all

theorem valid_of_new {site db preset : Str} {php : PhpVersion}
    (h : new site php db preset = .ok yml) : yml.Valid ∧ yml.php = php := by
  simp only [new, bind_eq_ok_iff, oneOf_eq_ok_iff, pure_eq_ok] at h
  obtain ⟨name, hname, db, ⟨hdb, rfl⟩, preset, ⟨hpreset, rfl⟩, h⟩ := h
  obtain rfl := Except.ok.inj h
  refine ⟨⟨rfl, ?_, hdb, hpreset⟩, rfl⟩
  unfold validatedSite at hname
  split at hname
  · next hsome =>
    obtain rfl := Except.ok.inj hname
    exact isLabel_of_normalize hsome
  · cases hname

def isValueChar (c : Char) : Bool := c.isAlphanum || c == '-' || c == '.'

theorem plain_of_isValueChar (hne : value ≠ []) (h : ∀ c ∈ value, isValueChar c) : Plain value := by
  refine ⟨hne, fun c hc => ?_⟩
  have hvalue := h c hc
  simp only [isValueChar, Bool.or_eq_true, isAlphanum_iff_toNat, beq_iff_eq,
    char_eq_iff_toNat] at hvalue
  have hdash : '-'.toNat = 45 := rfl
  have hdot : '.'.toNat = 46 := rfl
  refine ⟨isWhitespace_of_graphic (by omega) (by omega), ?_, ?_⟩
  · rw [ne_eq, char_eq_iff_toNat, show '"'.toNat = 34 from rfl]
    omega
  · rw [ne_eq, char_eq_iff_toNat, show '\''.toNat = 39 from rfl]
    omega

theorem isValueChar_of_mem_decimal {n : Nat} (h : c ∈ decimal n) : isValueChar c := by
  simp [isValueChar, Char.isAlphanum, isDigit_of_mem_decimal h]

theorem isValueChar_of_isLabelChar (h : isLabelChar c) : isValueChar c := by
  simp only [isLabelChar, Bool.or_eq_true] at h
  simp only [isValueChar, Char.isAlphanum, Char.isAlpha, Bool.or_eq_true]
  tauto

theorem Valid.plain (h : yml.Valid) : ∀ e ∈ yml.fields, Plain e.2 := by
  have hdb : ∀ db ∈ knownDbEngines, db ≠ [] ∧ db.all isValueChar := by decide
  have hpreset : ∀ preset ∈ knownPresets, preset ≠ [] ∧ preset.all isValueChar := by decide
  have hphp : ∀ c ∈ yml.php.display, isValueChar c := by
    intro c hc
    rcases mem_append.1 hc with hc | hc
    · exact isValueChar_of_mem_decimal hc
    · rcases mem_cons.1 hc with rfl | hc
      · decide
      · exact isValueChar_of_mem_decimal hc
  simp only [fields, forall_mem_cons]
  refine ⟨?_, ?_, ?_, ?_, ?_, by simp⟩
  · exact plain_of_isValueChar (decimal_ne_nil _) fun c => isValueChar_of_mem_decimal
  · exact plain_of_isValueChar h.site.1 fun c hc =>
      isValueChar_of_isLabelChar (h.site.2.chars c hc)
  · exact plain_of_isValueChar (by simp [PhpVersion.display]) hphp
  · exact plain_of_isValueChar (hdb _ h.db).1 (all_eq_true.1 (hdb _ h.db).2)
  · exact plain_of_isValueChar (hpreset _ h.preset).1
      (all_eq_true.1 (hpreset _ h.preset).2)

theorem Plain.newline_notMem (h : Plain value) : '\n' ∉ value := fun hmem =>
  absurd (h.chars _ hmem).1 (by decide)

def renderedLines (yml : OrckerYml) : List Str :=
  [("schema_version: " : Str) ++ decimal yml.schemaVersion, ("site: " : Str) ++ yml.site,
    ("php: \"" : Str) ++ yml.php.display ++ ['"'], ("db: " : Str) ++ yml.db,
    ("preset: " : Str) ++ yml.preset]

theorem render_eq (yml : OrckerYml) :
    yml.render = endedLines (yml.renderedLines.map (·, false)) [] := by
  unfold render renderedLines endedLines
  simp only [map_cons, map_nil, flatMap_cons, flatMap_nil,
    Bool.false_eq_true, if_false, append_assoc, cons_append, nil_append,
    append_nil]

theorem gives_renderedLines (yml : OrckerYml) :
    List.Forall₂ Gives yml.fields yml.renderedLines := by
  have hversion : ("schema_version: " : Str) = ("schema_version" : Str) ++ [':', ' '] := rfl
  have hsite : ("site: " : Str) = ("site" : Str) ++ [':', ' '] := rfl
  have hphp : ("php: \"" : Str) = ("php" : Str) ++ [':', ' ', '"'] := rfl
  have hdb : ("db: " : Str) = ("db" : Str) ++ [':', ' '] := rfl
  have hpreset : ("preset: " : Str) = ("preset" : Str) ++ [':', ' '] := rfl
  rw [renderedLines, hversion, hsite, hphp, hdb, hpreset, fields]
  refine .cons ⟨1, .bare, ?_⟩ (.cons ⟨1, .bare, ?_⟩ (.cons ⟨1, .double, ?_⟩
    (.cons ⟨1, .bare, ?_⟩ (.cons ⟨1, .bare, ?_⟩ .nil))))
  all_goals
    simp only [Quote.wrap, replicate_one, append_assoc, cons_append,
      nil_append]

theorem newline_notMem_of_gives (hkey : e.1 ∈ knownKeys) (hvalue : Plain e.2) (h : Gives e line) :
    '\n' ∉ line := by
  have hkeys : ∀ key ∈ knownKeys, '\n' ∉ key := by decide
  obtain ⟨spaces, quote, rfl⟩ := h
  have hwrap : '\n' ∉ quote.wrap e.2 := by
    cases quote <;> simp [Quote.wrap, hvalue.newline_notMem]
  simp [hkeys _ hkey, hwrap, mem_replicate]

section Given

variable {es : List (Str × Str)} {given : List Str}

theorem newline_notMem_given (h : List.Forall₂ Gives es given)
    (hes : ∀ e ∈ es, e.1 ∈ knownKeys ∧ Plain e.2) : ∀ l ∈ given, '\n' ∉ l := by
  induction h with
  | nil => simp
  | cons hline _ ih =>
    obtain ⟨he, hes⟩ := forall_mem_cons.1 hes
    exact forall_mem_cons.2 ⟨newline_notMem_of_gives he.1 he.2 hline, ih hes⟩

theorem statements_given (h : List.Forall₂ Gives es given)
    (hes : ∀ e ∈ es, e.1 ∈ knownKeys ∧ Plain e.2) : statements given = es.map .ofEntry := by
  induction h with
  | nil => rfl
  | cons hline _ ih =>
    obtain ⟨he, hes⟩ := forall_mem_cons.1 hes
    rw [statements_cons, readLine_of_gives he.1 he.2 hline, if_neg (by simp [Line.ofEntry]),
      ih hes, map_cons]

end Given

section Read

variable {yml : OrckerYml} {text : Str}

theorem Valid.fields_ok (h : yml.Valid) : ∀ e ∈ yml.fields, e.1 ∈ knownKeys ∧ Plain e.2 :=
  fun e he => ⟨mem_map.2 ⟨e, he, rfl⟩, h.plain e he⟩

theorem Valid.says_render (h : yml.Valid) : yml.Says yml.render := by
  refine ⟨yml.renderedLines.map (·, false), [], yml.renderedLines, [[]], render_eq yml, ?_,
    not_mem_nil, ?_, gives_renderedLines yml, ?_⟩
  · intro l hl
    obtain ⟨line, hline, rfl⟩ := mem_map.1 hl
    exact newline_notMem_given (gives_renderedLines yml) h.fields_ok line hline
  · rw [map_map, Function.comp_def, map_id']
  · exact fun l hl => Or.inl (by rw [mem_singleton.1 hl]; rfl)

theorem Valid.exists_entries (h : yml.Valid) (hsaid : yml.Says text) :
    ∃ es : List (Str × Str), statements (lines text) = es.map .ofEntry ∧ es.Perm yml.fields := by
  obtain ⟨ended, last, given, others, rfl, hended, hlast, hperm, hgiven, hothers⟩ := hsaid
  have hskip : statements others = [] := by
    rw [statements, filter_eq_nil_iff]
    intro l hl
    obtain ⟨line, hline, rfl⟩ := mem_map.1 hl
    simp [readLine_of_ignorable (hothers line hline)]
  have hall : (statements _).Perm (statements _) := (hperm.map _).filter _
  rw [← statements_endedLines hended hlast, statements_append, hskip,
    statements_given hgiven h.fields_ok, append_nil] at hall
  have hcomp := congrFun (congrFun (eq_map_comp_perm Line.ofEntry)
    (statements (lines (endedLines ended last)))) yml.fields
  exact hcomp.mpr hall

theorem Line.ofEntry_injective : Function.Injective Line.ofEntry := by
  intro a b h
  exact Prod.ext (Line.entry.inj h).1 (Line.entry.inj h).2

theorem Valid.exists_scan (h : yml.Valid) (hsaid : yml.Says text) :
    ∃ found : StrMap Str, scan 1 ∅ (lines text) = .ok found ∧
      ∀ e ∈ yml.fields, required found e.1 = .ok e.2 := by
  obtain ⟨es, hes, hperm⟩ := h.exists_entries hsaid
  have hnodup : (es.map Prod.fst).Nodup := by
    rw [(hperm.map Prod.fst).nodup_iff]
    show knownKeys.Nodup
    decide
  obtain ⟨found, hfound⟩ : ∃ found, scan 1 ∅ (lines text) = .ok found :=
    exists_scan_eq_ok hes hnodup fun e _ => by simp
  refine ⟨found, hfound, fun e he => ?_⟩
  obtain ⟨es', hes', -, -, hget⟩ := scan_eq_ok hfound
  obtain rfl : es' = es := Line.ofEntry_injective.list_map (hes'.symm.trans hes)
  rw [required, (hget e.1 e.2).2 (Or.inr (hperm.mem_iff.2 he))]

/-- All that is left to chance is whether the version's text can be read. -/
theorem Valid.parse_of_says (h : yml.Valid) (hsaid : yml.Says text) :
    parse text = (readPhp yml.php.display).map fun php => { yml with php } := by
  obtain ⟨found, hscan, hfound⟩ := h.exists_scan hsaid
  simp only [fields, forall_mem_cons] at hfound
  obtain ⟨hversion, hsite, hphp, hdb, hpreset, -⟩ := hfound
  have hreadVersion : readVersion (decimal yml.schemaVersion) = .ok yml.schemaVersion := by
    rw [readVersion, h.version, parseUInt_decimal (by decide)]
    rfl
  have hreadSite : validatedSite yml.site = .ok yml.site := by
    rw [validatedSite, normalizeSiteName_of_isLabel h.site]
  have hreadDb : oneOf "db" yml.db knownDbEngines = .ok yml.db := oneOf_eq_ok_iff.2 ⟨h.db, rfl⟩
  have hreadPreset : oneOf "preset" yml.preset knownPresets = .ok yml.preset :=
    oneOf_eq_ok_iff.2 ⟨h.preset, rfl⟩
  rw [parse, hscan]
  simp only [ok_bind, hversion, hreadVersion, hphp, hsite, hreadSite, hdb, hreadDb, hpreset,
    hreadPreset]
  cases readPhp yml.php.display <;> rfl

theorem Valid.parse_eq_ok_iff (h : yml.Valid) (hsaid : yml.Says text) :
    parse text = .ok yml ↔ yml.php.InRange := by
  rw [h.parse_of_says hsaid]
  constructor
  · intro hok
    obtain ⟨php, hphp, heq⟩ := map_eq_ok_iff.1 hok
    obtain rfl : php = yml.php := congrArg OrckerYml.php heq
    exact PhpVersion.inRange_of_fromStr (mapError_eq_ok_iff.1 hphp)
  · intro hrange
    rw [readPhp, PhpVersion.fromStr_display hrange]
    rfl

theorem parse_of_assigned_twice {key l l' : Str} (hkey : key ∈ knownKeys)
    (hlines : [l, l'].Sublist (lines text)) (hl : Assigns key l) (hl' : Assigns key l') :
    ∃ e, parse text = .error e := by
  obtain ⟨value, hvalue⟩ := exists_readLine_of_assigns hkey hl
  obtain ⟨value', hvalue'⟩ := exists_readLine_of_assigns hkey hl'
  cases hscan : scan 1 ∅ (lines text) with
  | error e => exact ⟨e, by rw [parse, hscan]; rfl⟩
  | ok found =>
    obtain ⟨es, hes, hnodup, -⟩ := scan_eq_ok hscan
    have htwice : [(Line.entry key value), .entry key value'].Sublist (es.map .ofEntry) := by
      rw [← hes]
      have := (hlines.map readLine).filter (· ≠ .skipped)
      simpa [hvalue, hvalue', statements] using this
    obtain ⟨pair, hsub, hpair⟩ := sublist_map_iff.1 htwice
    obtain rfl : pair = [(key, value), (key, value')] :=
      Line.ofEntry_injective.list_map hpair.symm
    exact absurd (hnodup.sublist (hsub.map Prod.fst)) (by simp)

end Read

/-- A descriptor that was built is read back from its rendering, and from every text that says the
same, exactly when its PHP version is one that can be read; and no text in which a known key comes
twice at top level is read. -/
theorem descriptor_reads_back {site db preset : Str} {php : PhpVersion} {yml : OrckerYml}
    (h : new site php db preset = .ok yml) :
    (parse yml.render = .ok yml ↔ php.InRange) ∧
      (∀ text, yml.Says text → (parse text = .ok yml ↔ php.InRange)) ∧
      ∀ text key l l', key ∈ knownKeys → [l, l'].Sublist (lines text) → Assigns key l →
        Assigns key l' → ∃ e, parse text = .error e := by
  obtain ⟨hvalid, rfl⟩ := valid_of_new h
  refine ⟨hvalid.parse_eq_ok_iff hvalid.says_render, fun text => hvalid.parse_eq_ok_iff, ?_⟩
  intro text key l l' hkey hlines hl hl'
  exact parse_of_assigned_twice hkey hlines hl hl'

theorem descriptor_reads_back_spike :
    new "spike" ⟨8, 4⟩ "postgres" "reference" =
        .ok ⟨1, "spike", ⟨8, 4⟩, "postgres", "reference"⟩ ∧
      parse (render ⟨1, "spike", ⟨8, 4⟩, "postgres", "reference"⟩) =
        .ok ⟨1, "spike", ⟨8, 4⟩, "postgres", "reference"⟩ := by
  have hnew : new "spike" ⟨8, 4⟩ "postgres" "reference" =
      .ok ⟨1, "spike", ⟨8, 4⟩, "postgres", "reference"⟩ := by decide +kernel
  exact ⟨hnew, (descriptor_reads_back hnew).1.2 ⟨by decide, by decide, by decide⟩⟩

/-- A version that was put together without a check is rendered, and refused when it is read. -/
theorem unchecked_version_not_read :
    new "spike" ⟨10, 0⟩ "postgres" "reference" =
        .ok ⟨1, "spike", ⟨10, 0⟩, "postgres", "reference"⟩ ∧
      parse (render ⟨1, "spike", ⟨10, 0⟩, "postgres", "reference"⟩) =
        .error (.orckerYml (.invalidValue "php" "10.0")) := by
  decide +kernel

end Orcker.Daemon.OrckerYml
