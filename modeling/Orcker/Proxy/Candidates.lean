import Orcker.Proxy.TryFiles

/-!
# Candidates descend

A segment of a request path becomes at most one component of a relative path.
-/

namespace Orcker.Proxy

open Base List

/-- The bytes an escaped text stands for. -/
inductive PercentDecodes : Bytes → Bytes → Prop where
  | nil : PercentDecodes [] []
  | literal {b : UInt8} {rest out : Bytes} (hb : b ≠ 37) (hrest : PercentDecodes rest out) :
      PercentDecodes (b :: rest) (b :: out)
  | escape {c d hi lo : UInt8} {rest out : Bytes} (hhi : hexVal c = some hi)
      (hlo : hexVal d = some lo) (hrest : PercentDecodes rest out) :
      PercentDecodes (37 :: c :: d :: rest) ((hi * 16 + lo) :: out)

theorem percentBytes_eq_some_iff {raw out : Bytes} :
    percentBytes raw = some out ↔ PercentDecodes raw out := by
  constructor
  · intro h
    fun_induction percentBytes raw generalizing out with
    | case1 =>
      cases h
      exact .nil
    | case2 c d rest lo hi hlo hhi ih =>
      obtain ⟨out', hout', rfl⟩ := Option.map_eq_some_iff.1 h
      exact .escape hhi hlo (ih hout')
    | case3 => cases h
    | case4 => cases h
    | case5 b rest hb ih =>
      obtain ⟨out', hout', rfl⟩ := Option.map_eq_some_iff.1 h
      exact .literal hb (ih hout')
  · intro h
    induction h with
    | nil => rfl
    | literal hb hrest ih => rw [percentBytes.eq_def]; simp [hb, ih]
    | escape hhi hlo hrest ih => rw [percentBytes]; simp [hhi, hlo, ih]

/-- The text may be the name of a file. -/
structure PlainName (name : Str) : Prop where
  ne_nil : name ≠ []
  ne_dot : name ≠ ['.']
  ne_dotdot : name ≠ ['.', '.']
  slash : '/' ∉ name
  backslash : '\\' ∉ name
  nul : '\x00' ∉ name

theorem mem_utf8_of_ascii {c : Char} {b : UInt8} (hb : encodeChar c = [b]) (hlt : b.toNat < 0x80)
    {s : Str} : b ∈ utf8 s ↔ c ∈ s := by
  have hc : c.toNat = b.toNat := mem_encodeChar_of_ascii hlt (by simp [hb])
  rw [utf8, mem_flatMap]
  constructor
  · rintro ⟨d, hd, hmem⟩
    have hdc : d = c := char_eq_iff_toNat.2 ((mem_encodeChar_of_ascii hlt hmem).trans hc.symm)
    exact hdc ▸ hd
  · intro h
    exact ⟨c, h, by simp [hb]⟩

theorem isPlainSegment_iff {seg : Str} : isPlainSegment seg = true ↔ PlainName seg := by
  have hbytes : ((utf8 seg).any fun b => b == 47 || b == 92 || b == 0) = false ↔
      '/' ∉ seg ∧ '\\' ∉ seg ∧ '\x00' ∉ seg := by
    rw [← mem_utf8_of_ascii (c := '/') (b := 47) (by decide) (by decide),
      ← mem_utf8_of_ascii (c := '\\') (b := 92) (by decide) (by decide),
      ← mem_utf8_of_ascii (c := '\x00') (b := 0) (by decide) (by decide), any_eq_false]
    constructor
    · intro h
      exact ⟨fun hm => h _ hm (by decide), fun hm => h _ hm (by decide),
        fun hm => h _ hm (by decide)⟩
    · rintro ⟨hslash, hback, hnul⟩ b hb hforbidden
      simp only [Bool.or_eq_true, beq_iff_eq] at hforbidden
      rcases hforbidden with (rfl | rfl) | rfl
      · exact hslash hb
      · exact hback hb
      · exact hnul hb
  unfold isPlainSegment
  simp only [Bool.and_eq_true, Bool.not_eq_true', hbytes, Bool.or_eq_false_iff, beq_eq_false_iff_ne,
    isEmpty_eq_false_iff]
  constructor
  · rintro ⟨⟨⟨hne, hdot⟩, hdotdot⟩, hslash, hback, hnul⟩
    exact ⟨hne, hdot, hdotdot, hslash, hback, hnul⟩
  · rintro ⟨hne, hdot, hdotdot, hslash, hback, hnul⟩
    exact ⟨⟨⟨hne, hdot⟩, hdotdot⟩, hslash, hback, hnul⟩

theorem PlainName.bodyComponent {name : Str} (h : PlainName name) :
    Path.bodyComponent (utf8 name) = some (.normal (utf8 name)) := by
  have hdot : utf8 name ≠ [dot] := fun heq => h.ne_dot (utf8_injective heq)
  have hdotdot : utf8 name ≠ [dot, dot] := fun heq => h.ne_dotdot (utf8_injective heq)
  unfold Path.bodyComponent
  rw [if_neg (by simp [hdot, h.ne_nil]), if_neg hdotdot]

def segments (path : Str) : List Str := (path.splitOn '/').filter (!·.isEmpty)

variable {rel : Path}

/-- The path that segments make. -/
theorem pushSegments_eq_some_iff {segs : List Str} {out : Path} :
    pushSegments rel segs = some out ↔
      ∃ names : List Str, (segs.filter (!·.isEmpty)).map percentDecode = names.map some ∧
        (∀ name ∈ names, PlainName name) ∧ out = rel.joinNames (names.map utf8) := by
  induction segs generalizing rel with
  | nil =>
    constructor
    · intro h
      cases h
      exact ⟨[], rfl, by simp, rfl⟩
    · rintro ⟨names, hnames, -, rfl⟩
      obtain rfl : names = [] := by simpa using hnames.symm
      rfl
  | cons raw rest ih =>
    rw [pushSegments]
    by_cases hraw : raw = []
    · rw [if_pos (by simp [hraw]), filter_cons_of_neg (by simp [hraw])]
      exact ih
    · rw [if_neg (by simp [hraw]), filter_cons_of_pos (by simp [hraw]), map_cons]
      -- The first name is the decoded segment, the others are those of the rest.
      cases hdecode : percentDecode raw with
      | none =>
        refine iff_of_false (by simp) ?_
        rintro ⟨names, hnames, -⟩
        cases names <;> cases hnames
      | some seg =>
        simp only
        by_cases hplain : isPlainSegment seg = true
        · rw [if_pos hplain, ih]
          constructor
          · rintro ⟨names, hnames, hall, rfl⟩
            refine ⟨seg :: names, by rw [hnames, map_cons], ?_, rfl⟩
            exact forall_mem_cons.2 ⟨isPlainSegment_iff.1 hplain, hall⟩
          · rintro ⟨names, hnames, hall, rfl⟩
            cases names with
            | nil => cases hnames
            | cons name names =>
              obtain ⟨hname, hrest⟩ := cons.inj hnames
              obtain rfl := Option.some.inj hname
              exact ⟨names, hrest, (forall_mem_cons.1 hall).2, rfl⟩
        · rw [if_neg hplain]
          refine iff_of_false (by simp) ?_
          rintro ⟨names, hnames, hall, -⟩
          cases names with
          | nil => cases hnames
          | cons name names =>
            obtain rfl := Option.some.inj (cons.inj hnames).1
            exact hplain (isPlainSegment_iff.2 (hall _ mem_cons_self))

theorem resolveSegments_eq_some_iff {path : Str} :
    resolveSegments path = some rel ↔
      ∃ names : List Str, (segments path).map percentDecode = names.map some ∧
        (∀ name ∈ names, PlainName name) ∧ rel = Path.joinNames ⟨[]⟩ (names.map utf8) :=
  pushSegments_eq_some_iff

theorem resolveSegments_append_slash (path : Str) :
    resolveSegments (path ++ ['/']) = resolveSegments path := by
  have hsegments : segments (path ++ ['/']) = segments path := by
    unfold segments
    rw [splitOn_append_cons_self, splitOn_nil, filter_append]
    simp
  ext rel
  rw [resolveSegments_eq_some_iff, resolveSegments_eq_some_iff, hsegments]

variable {urlPath : Str}

theorem resolves_of_staticCandidate (h : staticCandidate urlPath = some rel) :
    endsWithSlash (beforeQuery urlPath) = false ∧
      resolveSegments (beforeQuery urlPath) = some rel := by
  unfold staticCandidate at h
  simp only [Option.ite_none_left_eq_some, Bool.not_eq_true, Bool.or_eq_false_iff] at h
  obtain ⟨⟨-, hslash⟩, h⟩ := h
  refine ⟨hslash, ?_⟩
  split at h
  · cases h
  · next rel' hres => rw [hres, (Option.ite_none_left_eq_some.1 h).2]

theorem directoryCandidate_eq_some_iff :
    directoryCandidate urlPath = some rel ↔
      (beforeQuery urlPath).head? = some '/' ∧ endsWithSlash (beforeQuery urlPath) = true ∧
        resolveSegments (beforeQuery urlPath) = some rel := by
  unfold directoryCandidate
  simp only
  by_cases hhead : (beforeQuery urlPath).head? = some '/'
  · cases hslash : endsWithSlash (beforeQuery urlPath) with
    | true => simp [hhead]
    | false =>
      have hroot : beforeQuery urlPath ≠ ['/'] := by
        intro h
        rw [h] at hslash
        cases hslash
      simp [hroot]
  · simp [hhead]

/-- Both kinds of candidates are that path. -/
theorem candidate_names
    (h : staticCandidate urlPath = some rel ∨ directoryCandidate urlPath = some rel) :
    ∃ names : List Str, (segments (beforeQuery urlPath)).map percentDecode = names.map some ∧
      (∀ name ∈ names, PlainName name) ∧ rel = Path.joinNames ⟨[]⟩ (names.map utf8) := by
  refine resolveSegments_eq_some_iff.1 ?_
  rcases h with h | h
  · exact (resolves_of_staticCandidate h).2
  · exact (directoryCandidate_eq_some_iff.1 h).2.2

theorem joinNames_plain {names : List Str} (h : ∀ name ∈ names, PlainName name) :
    (Path.joinNames ⟨[]⟩ (names.map utf8)).isAbsolute = false ∧
      (Path.joinNames ⟨[]⟩ (names.map utf8)).components =
        names.map fun name => .normal (utf8 name) := by
  have hplain : ∀ b ∈ names.map utf8,
      slash ∉ b ∧ Path.bodyComponent b = some (.normal b) := by
    intro b hb
    obtain ⟨name, hname, rfl⟩ := mem_map.1 hb
    exact ⟨mt Path.slash_mem_utf8.1 (h name hname).slash, (h name hname).bodyComponent⟩
  refine ⟨Path.isAbsolute_joinNames rfl fun b hb => (hplain b hb).1, ?_⟩
  rw [Path.components_joinNames _ hplain, map_map]
  rfl

/-- The segment is malformed, or does not name a file. -/
def Refused (raw : Str) : Prop :=
  (∀ bytes, ¬PercentDecodes (utf8 raw) bytes) ∨
    (∃ bytes, PercentDecodes (utf8 raw) bytes ∧ ∀ s, bytes ≠ utf8 s) ∨
    ∃ name, PercentDecodes (utf8 raw) (utf8 name) ∧ ¬PlainName name

theorem percentDecode_eq_some_iff {raw name : Str} :
    percentDecode raw = some name ↔ PercentDecodes (utf8 raw) (utf8 name) := by
  rw [percentDecode, Option.bind_eq_some_iff]
  simp only [fromUtf8_eq_some_iff, percentBytes_eq_some_iff, exists_eq_right]

theorem Refused.notMem {raws names : List Str} (hnames : raws.map percentDecode = names.map some)
    (hall : ∀ name ∈ names, PlainName name) {raw : Str} (hraw : Refused raw) : raw ∉ raws := by
  intro hmem
  have hdecode : percentDecode raw ∈ names.map some := hnames ▸ mem_map_of_mem hmem
  obtain ⟨name, hname, heq⟩ := mem_map.1 hdecode
  have hdecodes := percentDecode_eq_some_iff.1 heq.symm
  have hunique {bytes : Bytes} (h : PercentDecodes (utf8 raw) bytes) : bytes = utf8 name := by
    rw [← percentBytes_eq_some_iff] at h hdecodes
    exact Option.some.inj (h.symm.trans hdecodes)
  rcases hraw with hraw | ⟨bytes, hbytes, hraw⟩ | ⟨other, hother, hraw⟩
  · exact hraw _ hdecodes
  · exact hraw name (hunique hbytes)
  · exact hraw (utf8_injective (hunique hother) ▸ hall name hname)

/-- For every request path: the components of a candidate are the decoded segments in order, each
the plain name of a file, and joining it to any root adds exactly these; and there is no candidate
if some segment is malformed, not UTF-8 or no plain name. -/
theorem candidates_stay_below (urlPath : Str) :
    (∀ rel, staticCandidate urlPath = some rel ∨ directoryCandidate urlPath = some rel →
      ∃ names : List Str,
        List.Forall₂ (fun raw name => PercentDecodes (utf8 raw) (utf8 name))
          (segments (beforeQuery urlPath)) names ∧
        (∀ name ∈ names, PlainName name) ∧
        rel.components = names.map (fun name => .normal (utf8 name)) ∧
        ∀ root : Path, (root.join rel).components =
          root.components ++ names.map fun name => .normal (utf8 name)) ∧
    ((∃ raw ∈ segments (beforeQuery urlPath), Refused raw) →
      staticCandidate urlPath = none ∧ directoryCandidate urlPath = none) := by
  refine ⟨fun rel h => ?_, fun ⟨raw, hmem, hraw⟩ => ?_⟩
  · obtain ⟨names, hnames, hall, rfl⟩ := candidate_names h
    obtain ⟨hrel, hcomp⟩ := joinNames_plain hall
    have hdot : .curDir ∉ (Path.joinNames ⟨[]⟩ (names.map utf8)).components := by
      simp [hcomp]
    refine ⟨names, ?_, hall, hcomp, fun root => by rw [Path.components_join hrel hdot, hcomp]⟩
    rw [← forall₂_eq_eq_eq, forall₂_map_left_iff, forall₂_map_right_iff] at hnames
    exact hnames.imp fun raw name heq => percentDecode_eq_some_iff.1 heq
  · refine ⟨Option.eq_none_iff_forall_ne_some.2 fun rel hrel => ?_,
      Option.eq_none_iff_forall_ne_some.2 fun rel hrel => ?_⟩
    · obtain ⟨names, hnames, hall, -⟩ := candidate_names (.inl hrel)
      exact hraw.notMem hnames hall hmem
    · obtain ⟨names, hnames, hall, -⟩ := candidate_names (.inr hrel)
      exact hraw.notMem hnames hall hmem

end Orcker.Proxy
