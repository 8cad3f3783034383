import Orcker.Base.Numeral

/-!
# IP address literals

The reader for textual IPv4 and IPv6 addresses that standard libraries ship: it backtracks over the
remaining input and takes decimal octets without leading zeros, hexadecimal groups of up to four
digits, one `::`, and an embedded trailing IPv4 address.
-/

namespace Base

open List Option

/-- The parts of an address, from the left. -/
inductive IpAddr where
  | v4 (octets : List Nat)
  | v6 (segments : List Nat)
  deriving DecidableEq, Repr

/-- A reader returns its result and the input left over; on `none` the input
is untouched. -/
abbrev Reader (α : Type) := Str → Option (α × Str)

/-- The value of a digit in a radix up to 36. -/
def digitVal (radix : Nat) (c : Char) : Option Nat :=
  let n := c.toNat
  let value :=
    if 48 ≤ n ∧ n ≤ 57 then some (n - 48)
    else if 97 ≤ n ∧ n ≤ 122 then some (n - 87)
    else if 65 ≤ n ∧ n ≤ 90 then some (n - 55)
    else none
  value.filter fun v => decide (v < radix)

/-- The digits in front, and what follows them. -/
def spanDigits (radix : Nat) : Str → List Nat × Str
  | [] => ([], [])
  | c :: s =>
    match digitVal radix c with
    | none => ([], c :: s)
    | some v =>
      let (ds, rest) := spanDigits radix s
      (v :: ds, rest)

/-- A run of one to `maxDigits` digits whose value is at most `max`. -/
def readNumber (radix maxDigits : Nat) (allowZeroPrefix : Bool) (max : Nat) : Reader Nat :=
  fun s =>
    let (ds, rest) := spanDigits radix s
    let value := ds.foldl (fun acc d => acc * radix + d) 0
    if maxDigits < ds.length ∨ ds = [] then none
    else if !allowZeroPrefix ∧ ds.head? = some 0 ∧ 1 < ds.length then none
    else if value ≤ max then some (value, rest)
    else none

/-- Past index `0` the separator comes first. -/
def readSeparator {α : Type} (sep : Char) (index : Nat) (inner : Reader α) : Reader α :=
  fun s =>
    if index = 0 then inner s
    else
      match s with
      | [] => none
      | c :: s => if c = sep then inner s else none

def readOctet : Reader Nat := readNumber 10 3 false 255

def readOctets : Nat → Nat → Reader (List Nat)
  | 0, _, s => some ([], s)
  | remaining + 1, i, s =>
    match readSeparator '.' i readOctet s with
    | none => none
    | some (octet, s) =>
      match readOctets remaining (i + 1) s with
      | none => none
      | some (octets, s) => some (octet :: octets, s)

def readIpv4Addr : Reader (List Nat) := readOctets 4 0

/-- The two groups an embedded IPv4 address fills. -/
def octetsToGroups : List Nat → List Nat
  | [a, b, c, d] => [a * 256 + b, c * 256 + d]
  | _ => []

/-- Up to `remaining` groups, and whether the last two came from an IPv4
address, which needs room for two. -/
def readGroups : Nat → Nat → Str → List Nat × Bool × Str
  | 0, _, s => ([], false, s)
  | remaining + 1, i, s =>
    match if 1 ≤ remaining then readSeparator ':' i readIpv4Addr s else none with
    | some (octets, s) => (octetsToGroups octets, true, s)
    | none =>
      match readSeparator ':' i (readNumber 16 4 true 65535) s with
      | none => ([], false, s)
      | some (group, s) =>
        let (groups, ipv4, s) := readGroups remaining (i + 1) s
        (group :: groups, ipv4, s)

def readIpv6Addr : Reader (List Nat) := fun s =>
  let (head, headIpv4, s) := readGroups 8 0 s
  if head.length = 8 then some (head, s)
  else if headIpv4 then none
  else
    match s.dropPrefix? [':', ':'] with
    | none => none
    | some s =>
      let (tail, _, s) := readGroups (8 - (head.length + 1)) 0 s
      some (head ++ List.replicate (8 - head.length - tail.length) 0 ++ tail, s)

def readIpAddr : Reader IpAddr := fun s =>
  match readIpv4Addr s with
  | some (octets, s) => some (.v4 octets, s)
  | none =>
    match readIpv6Addr s with
    | some (segments, s) => some (.v6 segments, s)
    | none => none

/-- The whole text is one address. -/
def parseIp (s : Str) : Option IpAddr :=
  match readIpAddr s with
  | some (ip, []) => some ip
  | _ => none

/-! ## Kinds of addresses -/

namespace IpAddr

/-- `127.0.0.0/8` and `::1`. -/
def isLoopback : IpAddr → Bool
  | .v4 octets => octets.head? == some 127
  | .v6 segments => segments == [0, 0, 0, 0, 0, 0, 0, 1]

def isUnspecified : IpAddr → Bool
  | .v4 octets => octets == [0, 0, 0, 0]
  | .v6 segments => segments == [0, 0, 0, 0, 0, 0, 0, 0]

/-- The address behind `::ffff:a.b.c.d`. -/
def toIpv4Mapped : IpAddr → Option IpAddr
  | .v6 [0, 0, 0, 0, 0, 0xffff, a, b] => some (.v4 [a / 256, a % 256, b / 256, b % 256])
  | _ => none

/-- Four octets, or eight groups of sixteen bits. -/
def WellFormed : IpAddr → Prop
  | .v4 octets => octets.length = 4 ∧ ∀ o ∈ octets, o ≤ 255
  | .v6 segments => segments.length = 8 ∧ ∀ g ∈ segments, g ≤ 65535

end IpAddr

/-! ## What a literal is read as -/

/-- The alphabet of address literals. -/
def isIpChar (c : Char) : Bool := (digitVal 16 c).isSome || c == '.' || c == ':'

/-- `rest` is what is left of `s` after a run of address characters. -/
def Consumed (s rest : Str) : Prop := ∃ front, s = front ++ rest ∧ ∀ c ∈ front, isIpChar c

theorem Consumed.refl (s : Str) : Consumed s s := ⟨[], rfl, by simp⟩

theorem Consumed.trans {s t u : Str} (h : Consumed s t) (h' : Consumed t u) : Consumed s u := by
  obtain ⟨front, rfl, hfront⟩ := h
  obtain ⟨front', rfl, hfront'⟩ := h'
  exact ⟨front ++ front', by simp, forall_mem_append.2 ⟨hfront, hfront'⟩⟩

theorem Consumed.cons {c : Char} {s t : Str} (hc : isIpChar c) (h : Consumed s t) :
    Consumed (c :: s) t := by
  obtain ⟨front, rfl, hfront⟩ := h
  exact ⟨c :: front, rfl, forall_mem_cons.2 ⟨hc, hfront⟩⟩

def ConsumesIpChars {α : Type} (read : Reader α) : Prop :=
  ∀ ⦃s a rest⦄, read s = some (a, rest) → Consumed s rest

variable {radix : Nat} {s rest : Str} {octets : List Nat}

theorem digitVal_mono {v : Nat} {c : Char} (hr : radix ≤ 16) (h : digitVal radix c = some v) :
    isIpChar c := by
  simp only [digitVal, filter_eq_some_iff, decide_eq_true_eq] at h
  simp only [isIpChar, digitVal, h.1, filter_some, Bool.or_eq_true]
  rw [if_pos (by simpa using h.2.trans_le hr)]
  simp

theorem spanDigits_consumed (hr : radix ≤ 16) (s : Str) : Consumed s (spanDigits radix s).2 := by
  induction s with
  | nil => exact Consumed.refl _
  | cons c s ih =>
    unfold spanDigits
    split
    · exact Consumed.refl _
    · rename_i v hv
      exact ih.cons (digitVal_mono hr hv)

theorem readNumber_eq_some {maxDigits max n : Nat} {zero : Bool}
    (h : readNumber radix maxDigits zero max s = some (n, rest)) :
    n ≤ max ∧ rest = (spanDigits radix s).2 := by
  unfold readNumber at h
  simp only at h
  split at h
  · cases h
  split at h
  · cases h
  split at h
  · rename_i hle
    obtain ⟨rfl, rfl⟩ := Prod.mk.inj (some.inj h)
    exact ⟨hle, rfl⟩
  · cases h

theorem readNumber_consumes {maxDigits max : Nat} {zero : Bool} (hr : radix ≤ 16) :
    ConsumesIpChars (readNumber radix maxDigits zero max) := by
  intro s n rest h
  rw [(readNumber_eq_some h).2]
  exact spanDigits_consumed hr s

theorem readSeparator_inner {α : Type} {sep : Char} {index : Nat} {inner : Reader α} {a : α}
    (hsep : isIpChar sep) (h : readSeparator sep index inner s = some (a, rest)) :
    ∃ s', Consumed s s' ∧ inner s' = some (a, rest) := by
  unfold readSeparator at h
  split at h
  · exact ⟨s, .refl s, h⟩
  · cases s with
    | nil => cases h
    | cons c s =>
      simp only at h
      split at h
      · rename_i hc
        exact ⟨s, (Consumed.refl s).cons (hc ▸ hsep), h⟩
      · cases h

theorem readOctets_spec {remaining i : Nat} (h : readOctets remaining i s = some (octets, rest)) :
    Consumed s rest ∧ octets.length = remaining ∧ ∀ o ∈ octets, o ≤ 255 := by
  induction remaining generalizing i s rest octets with
  | zero =>
    obtain ⟨rfl, rfl⟩ := Prod.mk.inj (some.inj h)
    exact ⟨.refl _, rfl, by simp⟩
  | succ remaining ih =>
    unfold readOctets at h
    split at h
    · cases h
    rename_i octet s' hoctet
    split at h
    · cases h
    rename_i octets' s'' hoctets
    obtain ⟨rfl, rfl⟩ := Prod.mk.inj (some.inj h)
    obtain ⟨inner, hsep, hread⟩ := readSeparator_inner (by decide) hoctet
    have hnumber := readNumber_consumes (by decide) hread
    obtain ⟨hrest, hlen, hall⟩ := ih hoctets
    exact ⟨(hsep.trans hnumber).trans hrest, by rw [length_cons, hlen],
      forall_mem_cons.2 ⟨(readNumber_eq_some hread).1, hall⟩⟩

theorem octetsToGroups_shape (hlen : octets.length = 4) (hall : ∀ o ∈ octets, o ≤ 255) :
    (octetsToGroups octets).length = 2 ∧ ∀ g ∈ octetsToGroups octets, g ≤ 65535 := by
  obtain ⟨a, b, c, d, rfl⟩ : ∃ a b c d, octets = [a, b, c, d] := by
    match octets, hlen with
    | [a, b, c, d], _ => exact ⟨a, b, c, d, rfl⟩
  simp only [forall_mem_cons, not_mem_nil, false_implies, implies_true, and_true] at hall
  simp only [octetsToGroups, length_cons, length_nil, forall_mem_cons,
    not_mem_nil, false_implies, implies_true, and_true, true_and]
  omega

theorem readGroups_spec (remaining i : Nat) (s : Str) :
    Consumed s (readGroups remaining i s).2.2 ∧
      (readGroups remaining i s).1.length ≤ remaining ∧
      ∀ g ∈ (readGroups remaining i s).1, g ≤ 65535 := by
  induction remaining generalizing i s with
  | zero => exact ⟨.refl _, by simp [readGroups]⟩
  | succ remaining ih =>
    unfold readGroups
    split
    · rename_i octets s' h
      rw [ite_none_right_eq_some] at h
      obtain ⟨inner, hsep, hread⟩ := readSeparator_inner (by decide) h.2
      obtain ⟨hrest, hlen, hall⟩ := readOctets_spec hread
      obtain ⟨hlen', hall'⟩ := octetsToGroups_shape hlen hall
      exact ⟨hsep.trans hrest, by rw [hlen']; omega, hall'⟩
    · split
      · exact ⟨.refl _, by simp⟩
      · rename_i group s' hgroup
        obtain ⟨inner, hsep, hread⟩ := readSeparator_inner (by decide) hgroup
        have hnumber := readNumber_consumes (by decide) hread
        obtain ⟨hrest, hlen, hall⟩ := ih (i + 1) s'
        exact ⟨(hsep.trans hnumber).trans hrest, Nat.succ_le_succ hlen,
          forall_mem_cons.2 ⟨(readNumber_eq_some hread).1, hall⟩⟩

theorem readIpv6Addr_spec {segments : List Nat} (h : readIpv6Addr s = some (segments, rest)) :
    Consumed s rest ∧ segments.length = 8 ∧ ∀ g ∈ segments, g ≤ 65535 := by
  unfold readIpv6Addr at h
  obtain ⟨hfront, hhead, hheadLe⟩ := readGroups_spec 8 0 s
  generalize readGroups 8 0 s = head at *
  obtain ⟨head, headIpv4, s'⟩ := head
  simp only at h hfront hhead hheadLe
  split at h
  · rename_i hlen
    obtain ⟨rfl, rfl⟩ := Prod.mk.inj (some.inj h)
    exact ⟨hfront, hlen, hheadLe⟩
  rename_i hne
  split at h
  · cases h
  split at h
  · cases h
  rename_i s'' hcolons
  rw [dropPrefix?_eq_some] at hcolons
  obtain ⟨hback, htail, htailLe⟩ := readGroups_spec (8 - (head.length + 1)) 0 s''
  obtain ⟨rfl, rfl⟩ := Prod.mk.inj (some.inj h)
  subst hcolons
  refine ⟨hfront.trans ((hback.cons (by decide)).cons (by decide)), ?_, fun g hg => ?_⟩
  · -- The gap is filled up, and there is room for it.
    rw [length_append, length_append, length_replicate]
    omega
  · rcases mem_append.1 hg with hg | hg
    · rcases mem_append.1 hg with hg | hg
      · exact hheadLe g hg
      · rw [eq_of_mem_replicate hg]
        omega
    · exact htailLe g hg

/-- An address consists of hexadecimal digits, dots and colons, and has the right number of parts,
each in range. -/
theorem parseIp_spec {ip : IpAddr} (h : parseIp s = some ip) : Consumed s [] ∧ ip.WellFormed := by
  unfold parseIp at h
  split at h
  · rename_i ip' hread
    obtain rfl := some.inj h
    unfold readIpAddr at hread
    split at hread
    · rename_i octets rest hv4
      obtain ⟨rfl, rfl⟩ := Prod.mk.inj (some.inj hread)
      exact readOctets_spec hv4
    · split at hread
      · rename_i segments rest hv6
        obtain ⟨rfl, rfl⟩ := Prod.mk.inj (some.inj hread)
        exact readIpv6Addr_spec hv6
      · cases hread
  · cases h

theorem parseIp_chars {ip : IpAddr} (h : parseIp s = some ip) : ∀ c ∈ s, isIpChar c := by
  obtain ⟨⟨front, rfl, hfront⟩, -⟩ := parseIp_spec h
  simpa using hfront

/-! ## Case -/

/-- Lowercasing the input lowercases what is left and changes nothing else. -/
def CaseBlind {α : Type} (read : Reader α) : Prop :=
  ∀ s, read (lower s) = (read s).map fun p => (p.1, lower p.2)

theorem digitVal_toLower (radix : Nat) (c : Char) :
    digitVal radix c.toLower = digitVal radix c := by
  unfold digitVal
  simp only [toNat_toLower]
  congr 1
  split_ifs <;> first | omega | simp

theorem spanDigits_lower (radix : Nat) (s : Str) :
    spanDigits radix (lower s) = ((spanDigits radix s).1, lower (spanDigits radix s).2) := by
  induction s with
  | nil => rfl
  | cons c s ih =>
    rw [lower_cons, spanDigits, spanDigits, digitVal_toLower, ih]
    cases digitVal radix c <;> rfl

theorem readNumber_caseBlind (radix maxDigits max : Nat) (zero : Bool) :
    CaseBlind (readNumber radix maxDigits zero max) := by
  intro s
  unfold readNumber
  simp only [spanDigits_lower]
  split
  · rfl
  split
  · rfl
  split <;> rfl

theorem readSeparator_caseBlind {α : Type} (sep : Char) (index : Nat) {inner : Reader α}
    (hsep : sep.isAlpha = false) (hinner : CaseBlind inner) :
    CaseBlind (readSeparator sep index inner) := by
  intro s
  unfold readSeparator
  split
  · exact hinner s
  · cases s with
    | nil => rfl
    | cons c s =>
      simp only [lower_cons, toLower_eq_iff hsep]
      split
      · exact hinner s
      · rfl

theorem readOctets_caseBlind (remaining i : Nat) : CaseBlind (readOctets remaining i) := by
  induction remaining generalizing i with
  | zero => exact fun s => rfl
  | succ remaining ih =>
    intro s
    have hsep := readSeparator_caseBlind '.' i (by decide)
      (readNumber_caseBlind 10 3 255 false) s
    rw [readOctets, readOctets, readOctet, hsep]
    cases readSeparator '.' i (readNumber 10 3 false 255) s with
    | none => rfl
    | some p =>
      simp only [map_some, ih (i + 1) p.2]
      cases readOctets remaining (i + 1) p.2 <;> rfl

theorem readGroups_lower (remaining i : Nat) (s : Str) :
    readGroups remaining i (lower s) =
      ((readGroups remaining i s).1, (readGroups remaining i s).2.1,
        lower (readGroups remaining i s).2.2) := by
  induction remaining generalizing i s with
  | zero => rfl
  | succ remaining ih =>
    have hv4 := readSeparator_caseBlind ':' i (by decide) (readOctets_caseBlind 4 0) s
    have hgroup := readSeparator_caseBlind ':' i (by decide)
      (readNumber_caseBlind 16 4 65535 true) s
    rw [readGroups, readGroups, readIpv4Addr, hv4, hgroup]
    by_cases hroom : 1 ≤ remaining
    · simp only [if_pos hroom]
      cases readSeparator ':' i (readOctets 4 0) s with
      | some p => rfl
      | none =>
        cases readSeparator ':' i (readNumber 16 4 true 65535) s with
        | none => rfl
        | some p => simp only [map_none, map_some, ih]
    · simp only [if_neg hroom]
      cases readSeparator ':' i (readNumber 16 4 true 65535) s with
      | none => rfl
      | some p => simp only [map_some, ih]

theorem dropPrefix?_colons_lower (s : Str) :
    (lower s).dropPrefix? [':', ':'] = (s.dropPrefix? [':', ':']).map lower := by
  have hcolon : ∀ c : Char, (c.toLower == ':') = (c == ':') := fun c => by
    rw [Bool.eq_iff_iff, beq_iff_eq, beq_iff_eq, toLower_eq_iff (by decide)]
  match s with
  | [] => rfl
  | [c] =>
    simp only [lower_cons, lower_nil, dropPrefix?, hcolon]
    split <;> rfl
  | c :: d :: s =>
    simp only [lower_cons, dropPrefix?, hcolon]
    split
    · split <;> rfl
    · rfl

theorem readIpv6Addr_caseBlind : CaseBlind readIpv6Addr := by
  intro s
  unfold readIpv6Addr
  simp only [readGroups_lower 8 0 s, dropPrefix?_colons_lower]
  split
  · rfl
  split
  · rfl
  cases dropPrefix? (readGroups 8 0 s).2.2 [':', ':'] with
  | none => rfl
  | some s' => simp only [map_some, readGroups_lower]

/-- Reading does not depend on ASCII case. -/
theorem parseIp_lower (s : Str) : parseIp (lower s) = parseIp s := by
  have hread : CaseBlind readIpAddr := by
    intro s
    unfold readIpAddr
    rw [readIpv4Addr, readOctets_caseBlind 4 0 s, readIpv6Addr_caseBlind s]
    cases readOctets 4 0 s with
    | some p => rfl
    | none => cases readIpv6Addr s <;> rfl
  unfold parseIp
  rw [hread s]
  cases readIpAddr s with
  | none => rfl
  | some p =>
    obtain ⟨ip, rest⟩ := p
    cases rest <;> rfl

/-! ## Printed addresses

Dotted octets for IPv4; for IPv6 hexadecimal groups where `::` stands for the longest run of two or
more zero groups, and an IPv4-mapped address ends in its octets. -/

def hexNumeral (n : Nat) : Str := Nat.toDigits 16 n

def ipv4Text (octets : List Nat) : Str := List.intercalate ['.'] (octets.map decimal)

def hexGroups (segments : List Nat) : Str := List.intercalate [':'] (segments.map hexNumeral)

/-- Start and length of the first longest run of zero groups, past index `i`. -/
def zeroSpan : List Nat → Nat → Nat × Nat → Nat × Nat → Nat × Nat
  | [], _, _, longest => longest
  | segment :: rest, i, current, longest =>
    if segment = 0 then
      let current := (if current.2 = 0 then i else current.1, current.2 + 1)
      zeroSpan rest (i + 1) current (if longest.2 < current.2 then current else longest)
    else zeroSpan rest (i + 1) (0, 0) longest

def ipv6Text (segments : List Nat) : Str :=
  let (start, len) := zeroSpan segments 0 (0, 0) (0, 0)
  if 1 < len then
    hexGroups (segments.take start) ++ "::" ++ hexGroups (segments.drop (start + len))
  else hexGroups segments

/-- The text a standard library prints, with the longest run of zero groups left out. -/
def IpAddr.toText (ip : IpAddr) : Str :=
  match ip.toIpv4Mapped, ip with
  | some (.v4 octets), _ => "::ffff:" ++ ipv4Text octets
  | _, .v4 octets => ipv4Text octets
  | _, .v6 segments => ipv6Text segments

theorem isIpChar_of_mem_hexNumeral (n : Nat) : ∀ c ∈ hexNumeral n, isIpChar c = true := by
  have hdigit : ∀ m : Fin 16, isIpChar (Nat.digitChar m) = true := by decide
  induction n using Nat.strong_induction_on with
  | _ n ih =>
    intro c hc
    unfold hexNumeral at hc
    rw [Nat.toDigits_eq_if (by decide)] at hc
    split_ifs at hc with hlt
    · rw [mem_singleton.1 hc]
      exact hdigit ⟨n, hlt⟩
    · rcases mem_append.1 hc with hc | hc
      · exact ih (n / 16) (by omega) c hc
      · rw [mem_singleton.1 hc]
        exact hdigit ⟨n % 16, Nat.mod_lt _ (by decide)⟩

theorem isIpChar_of_isDigit {c : Char} (h : c.isDigit = true) : isIpChar c = true := by
  have hrange := isDigit_iff_toNat.1 h
  simp only [isIpChar, digitVal, Bool.or_eq_true]
  rw [if_pos hrange, filter_some, if_pos (by simp; omega)]
  simp

theorem isIpChar_of_mem_intercalate {sep : Char} (hsep : isIpChar sep = true) {parts : List Str}
    (h : ∀ part ∈ parts, ∀ c ∈ part, isIpChar c = true) :
    ∀ c ∈ List.intercalate [sep] parts, isIpChar c = true := by
  induction parts with
  | nil => simp [intercalate]
  | cons part parts ih =>
    rw [forall_mem_cons] at h
    cases parts with
    | nil =>
      intro c hc
      exact h.1 c (by simpa [intercalate] using hc)
    | cons next parts =>
      intro c hc
      rw [intercalate_cons_cons, mem_append, mem_append] at hc
      rcases hc with (hc | hc) | hc
      · exact h.1 c hc
      · rw [mem_singleton.1 hc]
        exact hsep
      · exact ih h.2 c hc

theorem ipv4Text_chars (octets : List Nat) : ∀ c ∈ ipv4Text octets, isIpChar c = true := by
  refine isIpChar_of_mem_intercalate (by decide) fun part hpart c hc => ?_
  obtain ⟨octet, -, rfl⟩ := mem_map.1 hpart
  exact isIpChar_of_isDigit (isDigit_of_mem_decimal hc)

theorem hexGroups_chars (segments : List Nat) : ∀ c ∈ hexGroups segments, isIpChar c = true := by
  refine isIpChar_of_mem_intercalate (by decide) fun part hpart c hc => ?_
  obtain ⟨segment, -, rfl⟩ := mem_map.1 hpart
  exact isIpChar_of_mem_hexNumeral segment c hc

theorem IpAddr.toText_chars (ip : IpAddr) : ∀ c ∈ ip.toText, isIpChar c = true := by
  have hmapped : ∀ c ∈ "::ffff:".toList, isIpChar c = true := all_eq_true.1 (by decide)
  have hgap : ∀ c ∈ "::".toList, isIpChar c = true := all_eq_true.1 (by decide)
  unfold toText
  split
  · exact forall_mem_append.2 ⟨hmapped, ipv4Text_chars _⟩
  · exact ipv4Text_chars _
  · unfold ipv6Text
    dsimp only
    split
    · exact forall_mem_append.2
        ⟨forall_mem_append.2 ⟨hexGroups_chars _, hgap⟩, hexGroups_chars _⟩
    · exact hexGroups_chars _

/-! ## Blocks of addresses

An address as a number, and a block `network/length` as the addresses that agree with the network in
their first `length` bits. -/

section

def packed (base : Nat) (digits : List Nat) : Nat := digits.foldl (fun acc d => acc * base + d) 0

namespace IpAddr

def width : IpAddr → Nat
  | .v4 _ => 32
  | .v6 _ => 128

/-- The address as a number. -/
def value : IpAddr → Nat
  | .v4 octets => packed 256 octets
  | .v6 segments => packed 65536 segments

/-- The address agrees with the network's in its first `length` bits. -/
def InBlock (ip network : IpAddr) (length : Nat) : Prop :=
  ip.width = network.width ∧
    ip.value / 2 ^ (ip.width - length) = network.value / 2 ^ (ip.width - length)

end IpAddr

/-- Masking with a run of ones keeps just those bits. -/
theorem land_mask (n bits shift : Nat) :
    n &&& ((2 ^ bits - 1) <<< shift) = (n / 2 ^ shift % 2 ^ bits) <<< shift := by
  rw [← Nat.and_two_pow_sub_one_eq_mod, ← Nat.shiftRight_eq_div_pow]
  refine Nat.eq_of_testBit_eq fun i => ?_
  simp only [Nat.testBit_and, Nat.testBit_shiftLeft, Nat.testBit_shiftRight]
  by_cases hi : shift ≤ i
  · simp [hi, Nat.add_sub_cancel' hi]
  · simp [hi]

end

end Base
