import Orcker.Core.Resolve

/-!
# The DNS responder

The responder works on the bytes of the query name. The router parses the same names as characters,
and `Within` is what the two have in common.
-/

namespace Orcker.Dns

open Base Orcker.Core List

inductive Answer where
  | loopback4
  | loopback6
  | noData
  | nxDomain
  | refused
  deriving DecidableEq

inductive QClass where
  | a
  | aaaa
  | other
  deriving DecidableEq

structure Responder where
  tld : Tld

def dot : UInt8 := 46

/-- Two dots in a row. -/
def hasEmptyLabel (bytes : Bytes) : Bool := (bytes.zip bytes.tail).any (· = (dot, dot))

namespace Responder

def new (tld : Tld) : Responder := ⟨tld⟩

/-- Loopback below the TLD, of the family that is asked for; nothing at the TLD itself. -/
def answer (r : Responder) (name : Str) (qtype : QClass) : Answer :=
  let bytes := utf8 name
  let bytes := if bytes.getLast? = some dot then bytes.dropLast else bytes
  let tld := utf8 r.tld.text
  let isApex := bytes.length == tld.length && eqIgnoreAsciiCase bytes tld
  let endsInDotTld := decide (tld.length < bytes.length) &&
    bytes[bytes.length - tld.length - 1]? == some dot &&
    eqIgnoreAsciiCase (bytes.drop (bytes.length - tld.length)) tld
  if !isApex && !endsInDotTld then .refused
  else if isApex then .noData
  else if bytes.head? = some dot then .nxDomain
  else if hasEmptyLabel bytes then .nxDomain
  else
    match qtype with
    | .a => .loopback4
    | .aaaa => .loopback6
    | .other => .noData

end Responder

theorem utf8_dot : utf8 ['.'] = [dot] := by decide

theorem utf8_stripDot (name : Str) :
    (if (utf8 name).getLast? = some dot then (utf8 name).dropLast else utf8 name)
      = utf8 (stripDot name) := by
  by_cases h : (utf8 name).getLast? = some dot
  · rw [if_pos h]
    obtain ⟨a, ha⟩ := getLast?_eq_some_iff.1 h
    obtain ⟨l, c, r, rfl, hc, hl, hr⟩ := utf8_eq_append_cons (by decide) ha
    obtain rfl : c = '.' := char_eq_iff_toNat.2 hc
    obtain rfl := utf8_eq_nil.1 hr
    rw [stripDot_append_dot, utf8_append, utf8_dot, dropLast_concat]
  · rw [if_neg h, stripDot_eq_self]
    intro hlast
    obtain ⟨l, rfl⟩ := getLast?_eq_some_iff.1 hlast
    rw [utf8_append, utf8_dot, getLast?_concat] at h
    exact h rfl

theorem eqIgnoreAsciiCase_utf8 {s t : Str} (ht : lower t = t) :
    eqIgnoreAsciiCase (utf8 s) (utf8 t) = true ↔ lower s = t := by
  unfold eqIgnoreAsciiCase
  rw [decide_eq_true_iff, utf8_lower, utf8_lower, ht]
  exact ⟨utf8_injective, fun h => h ▸ rfl⟩

theorem eq_append_cons_of_getElem? {α : Type} {l : List α} {n : Nat} {x : α} (hn : n < l.length)
    (hx : l[l.length - n - 1]? = some x) :
    l = l.take (l.length - n - 1) ++ x :: l.drop (l.length - n) := by
  obtain ⟨hlt, rfl⟩ := List.getElem?_eq_some_iff.1 hx
  have hsucc : l.length - n = l.length - n - 1 + 1 := by omega
  conv_lhs => rw [← take_append_drop (l.length - n - 1) l, drop_eq_getElem_cons hlt]
  rw [← hsucc]

/-- In lower case, the text is something, a dot and `t`. -/
def Under (t s : Str) : Prop := ∃ l, lower s = l ++ '.' :: t

theorem under_iff {t s : Str} (ht : lower t = t) :
    Under t s ↔ (utf8 t).length < (utf8 s).length ∧
      (utf8 s)[(utf8 s).length - (utf8 t).length - 1]? = some dot ∧
      eqIgnoreAsciiCase ((utf8 s).drop ((utf8 s).length - (utf8 t).length)) (utf8 t) = true := by
  constructor
  · rintro ⟨l, hl⟩
    obtain ⟨p, q, rfl, rfl, hq⟩ := map_eq_append_iff.1 hl
    obtain ⟨c, r, rfl, hc, hr⟩ := map_eq_cons_iff.1 hq
    obtain rfl := (toLower_eq_iff (by decide)).1 hc
    have hlen : (utf8 r).length = (utf8 t).length := by
      rw [← hr, ← length_map (f := asciiLower)]
      exact congrArg _ (utf8_lower r)
    have hbytes : utf8 (p ++ '.' :: r) = utf8 p ++ dot :: utf8 r := by
      rw [utf8_append]
      rfl
    have hdrop : (utf8 p ++ dot :: utf8 r).length - (utf8 t).length = (utf8 p).length + 1 := by
      simp only [length_append, length_cons]
      omega
    rw [hbytes, hdrop]
    refine ⟨?_, ?_, ?_⟩
    · simp only [length_append, length_cons]
      omega
    · simp
    · rw [show (utf8 p).length + 1 = (utf8 p ++ [dot]).length by simp,
        show utf8 p ++ dot :: utf8 r = (utf8 p ++ [dot]) ++ utf8 r by simp, drop_left]
      exact (eqIgnoreAsciiCase_utf8 ht).2 hr
  · rintro ⟨hlt, hdot, htail⟩
    have hsplit := eq_append_cons_of_getElem? hlt hdot
    obtain ⟨l, c, r, rfl, hc, -, hr⟩ := utf8_eq_append_cons (by decide) hsplit
    obtain rfl : c = '.' := char_eq_iff_toNat.2 hc
    rw [← hr, eqIgnoreAsciiCase_utf8 ht] at htail
    refine ⟨lower l, ?_⟩
    rw [← htail]
    simp [lower]

theorem exists_of_mem_zip_tail {α : Type} {l : List α} {x y : α} (h : (x, y) ∈ l.zip l.tail) :
    ∃ a b, l = a ++ x :: y :: b := by
  induction l with
  | nil => simp at h
  | cons z l ih =>
    cases l with
    | nil => simp at h
    | cons w l =>
      rcases mem_cons.1 h with heq | h
      · obtain ⟨rfl, rfl⟩ := Prod.mk.inj heq
        exact ⟨[], l, rfl⟩
      · obtain ⟨a, b, hab⟩ := ih h
        exact ⟨z :: a, b, by rw [hab]; rfl⟩

theorem not_hasEmptyLabel {s : Str} (h : ∀ label ∈ (lower s).splitOn '.', label ≠ []) :
    hasEmptyLabel (utf8 s) = false := by
  rw [← Bool.not_eq_true]
  intro hany
  obtain ⟨⟨x, y⟩, hmem, heq⟩ := any_eq_true.1 hany
  obtain ⟨rfl, rfl⟩ := Prod.mk.inj (of_decide_eq_true heq)
  obtain ⟨a, b, hab⟩ := exists_of_mem_zip_tail hmem
  obtain ⟨l, c, r, rfl, hc, -, hr⟩ := utf8_eq_append_cons (by decide) hab
  obtain ⟨l', c', r', rfl, hc', hl', -⟩ := utf8_eq_append_cons (a := []) (by decide) hr
  obtain rfl : c = '.' := char_eq_iff_toNat.2 hc
  obtain rfl : c' = '.' := char_eq_iff_toNat.2 hc'
  obtain rfl := utf8_eq_nil.1 hl'
  refine h [] ?_ rfl
  have hlower : lower (l ++ '.' :: ([] ++ '.' :: r')) = lower l ++ '.' :: '.' :: lower r' := by
    simp [lower]
  rw [hlower, splitOn_append_cons_self, splitOn_cons_eq_if_modifyHead]
  simp

theorem head?_utf8_ne_dot {s : Str} (h : ∀ label ∈ (lower s).splitOn '.', label ≠ []) :
    (utf8 s).head? ≠ some dot := by
  intro hhead
  obtain ⟨b, hb⟩ := head?_eq_some_iff.1 hhead
  obtain ⟨l, c, r, rfl, hc, hl, -⟩ := utf8_eq_append_cons (a := []) (by decide) hb
  obtain rfl : c = '.' := char_eq_iff_toNat.2 hc
  obtain rfl := utf8_eq_nil.1 hl
  exact head?_ne_of_splitOn h rfl

theorem answer_eq (r : Responder) (name : Str) (qtype : QClass) :
    ∃ isApex endsInDotTld : Bool,
      (isApex = true ↔ lower (stripDot name) = r.tld.text) ∧
      (endsInDotTld = true ↔ Under r.tld.text (stripDot name)) ∧
      r.answer name qtype =
        if !isApex && !endsInDotTld then .refused
        else if isApex then .noData
        else if (utf8 (stripDot name)).head? = some dot then .nxDomain
        else if hasEmptyLabel (utf8 (stripDot name)) then .nxDomain
        else
          match qtype with
          | .a => .loopback4
          | .aaaa => .loopback6
          | .other => .noData := by
  have ht := r.tld.lower_text
  let bytes := utf8 (stripDot name)
  let tld := utf8 r.tld.text
  refine ⟨bytes.length == tld.length && eqIgnoreAsciiCase bytes tld,
    decide (tld.length < bytes.length) && bytes[bytes.length - tld.length - 1]? == some dot &&
      eqIgnoreAsciiCase (bytes.drop (bytes.length - tld.length)) tld, ?_, ?_, ?_⟩
  · rw [Bool.and_eq_true, eqIgnoreAsciiCase_utf8 ht, beq_iff_eq, and_iff_right_iff_imp]
    intro heq
    rw [← length_map (f := asciiLower), utf8_lower, heq]
  · rw [under_iff ht, Bool.and_eq_true, Bool.and_eq_true, decide_eq_true_iff, beq_iff_eq, and_assoc]
  · simp only [Responder.answer, utf8_stripDot]
    rfl

theorem answer_eq_refused_iff (r : Responder) (name : Str) (qtype : QClass) :
    r.answer name qtype = .refused ↔
      ¬(lower (stripDot name) = r.tld.text) ∧ ¬Under r.tld.text (stripDot name) := by
  obtain ⟨isApex, endsInDotTld, hapex, hends, hanswer⟩ := answer_eq r name qtype
  rw [hanswer, ← hapex, ← hends]
  cases isApex with
  | true => simp
  | false =>
    cases endsInDotTld with
    | false => simp
    | true =>
      simp only [Bool.not_false, Bool.not_true, Bool.and_false, Bool.false_eq_true, if_false,
        not_true_eq_false, and_false, iff_false]
      cases qtype <;> split_ifs <;> nofun

theorem answer_of_under {r : Responder} {name sub : Str}
    (hname : lower (stripDot name) = sub ++ '.' :: r.tld.text)
    (hlabels : ∀ label ∈ (lower (stripDot name)).splitOn '.', label ≠ []) :
    r.answer name .a = .loopback4 ∧ r.answer name .aaaa = .loopback6 := by
  have hlength : lower (stripDot name) ≠ r.tld.text := by
    intro heq
    have := congrArg length (hname.symm.trans heq)
    simp at this
    omega
  have hunder : Under r.tld.text (stripDot name) := ⟨sub, hname⟩
  have hanswer : ∀ qtype, r.answer name qtype =
      match qtype with
      | .a => .loopback4
      | .aaaa => .loopback6
      | .other => .noData := by
    intro qtype
    obtain ⟨isApex, endsInDotTld, hapex, hends, heq⟩ := answer_eq r name qtype
    obtain rfl : isApex = false := Bool.eq_false_iff.2 fun h => hlength (hapex.1 h)
    rw [heq, hends.2 hunder, if_neg (head?_utf8_ne_dot hlabels), not_hasEmptyLabel hlabels]
    rfl
  exact ⟨hanswer .a, hanswer .aaaa⟩

theorem labels_of_answers {r : SiteRouter} {name sub : Str} (h : r.Answers name sub) :
    ∀ label ∈ sub.splitOn '.', label ≠ [] := by
  rcases h with ⟨d, rfl, -, -⟩ | ⟨-, first, rest, rfl, hne, hdot, d, hd, -⟩
  · exact fun label hlabel => (d.labels_ok label hlabel).1
  · intro label hlabel
    rw [splitOn_append_cons_self, splitOn_eq_singleton hdot, singleton_append,
      mem_cons] at hlabel
    rcases hlabel with rfl | hlabel
    · exact hne
    · -- the other labels are those of the wildcard domain, behind its star
      refine (d.labels_ok label ?_).1
      rw [hd, show '*' :: '.' :: rest = ['*'] ++ '.' :: rest from rfl, splitOn_append_cons_self]
      exact mem_append_right _ hlabel

/-- Every name a router resolves without a port is a name the responder of its TLD answers with the
loopback addresses; and the responder refuses exactly the names that, without a trailing dot and in
lower case, neither are its TLD nor end in a dot and its TLD. -/
theorem answer_of_resolveRoute (config : RouterConfig) (ops : List RouterOp) :
    let r := (SiteRouter.new config).run ops
    (∀ h : Str, ':' ∉ h → r.resolveRoute h ≠ none →
      (Responder.new r.config.tld).answer h .a = .loopback4 ∧
      (Responder.new r.config.tld).answer h .aaaa = .loopback6) ∧
    ∀ (t : Tld) (name : Str) (qtype : QClass), (Responder.new t).answer name qtype = .refused ↔
      ¬(lower (stripDot name) = t.text ∨ '.' :: t.text <:+ lower (stripDot name)) := by
  intro r
  have hinv : RouterInv r := (RouterInv.new config).run ops
  refine ⟨fun h hcolon hroute => ?_, fun t name qtype => ?_⟩
  · obtain ⟨c, hc⟩ := Option.ne_none_iff_exists'.1 hroute
    obtain ⟨-, sub, hsub, -, -, hanswers⟩ := hinv.resolveRoute_eq_some_iff.1 hc
    have hport : withoutPort h = h := by
      simp [withoutPort, stripPort, rsplitOnce_eq_none_iff.2 hcolon]
    rw [canonicalHost, hport] at hsub
    refine answer_of_under hsub fun label hlabel => ?_
    rw [hsub, splitOn_append_cons_self, mem_append] at hlabel
    rcases hlabel with hlabel | hlabel
    · exact labels_of_answers hanswers label hlabel
    · exact (r.config.tld.labels_ok label hlabel).1
  · rw [answer_eq_refused_iff, not_or]
    refine and_congr_right fun _ => not_congr ⟨?_, ?_⟩
    · rintro ⟨l, hl⟩
      exact ⟨l, hl.symm⟩
    · rintro ⟨l, hl⟩
      exact ⟨l, hl.symm⟩

end Orcker.Dns
