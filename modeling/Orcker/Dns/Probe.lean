import Orcker.Base.Lines
import Orcker.Base.Longest
import Orcker.Base.Wire
import Orcker.Dns.Responder

/-!
# The resolver probe

One A query, for `orcker-resolver-probe` under the TLD, finds out whether the system asks the
responder.
-/

namespace Orcker.Dns

open Base Orcker.Core List

def probeLabel : Str := "orcker-resolver-probe"

def txnId : Bytes := [0x59, 0x44]

/-- A length byte and the text; nothing when the length does not fit a byte. -/
def encodeLabel (label : Str) : Option Bytes :=
  if byteLen label < 256 then some (UInt8.ofNat (byteLen label) :: utf8 label) else none

/-- The packet of the query. -/
def composeQuery (tld : Str) : Option Bytes := do
  let labels ← [probeLabel, tld].mapM encodeLabel
  some (txnId ++ [0x01, 0x00, 0x00, 0x01, 0, 0, 0, 0, 0, 0] ++ labels.flatten ++ [0, 0, 1, 0, 1])

/-- The labels of a name up to the root label, and the bytes after it. A length byte above 63 is
no label, and the first name of a packet has none before it to point to. -/
def decodeName : Nat → Bytes → Option (List Bytes × Bytes)
  | fuel + 1, n :: rest =>
    if n.toNat = 0 then some ([], rest)
    else if maxLabelBytes < n.toNat then none
    else do
      let (label, rest) ← takeExact n.toNat rest
      let (labels, rest) ← decodeName fuel rest
      some (label :: labels, rest)
  | _, _ => none

structure Question where
  name : List Bytes
  qtype : Nat
  qclass : Nat
  deriving DecidableEq

/-- The question of a packet that holds one question and nothing else. -/
def decodeQuery (packet : Bytes) : Option Question := do
  let (header, rest) ← takeExact 12 packet
  let (name, rest) ← decodeName rest.length rest
  if header.drop 4 = [0, 1, 0, 0, 0, 0, 0, 0] ∧ rest.length = 4 then
    some ⟨name, ofBe (rest.take 2), ofBe (rest.drop 2)⟩
  else none

theorem length_encodeChar (c : Char) : (encodeChar c).length = c.utf8Size := by
  have hv : c.val.toNat = c.toNat := rfl
  simp only [encodeChar, Char.utf8Size, UInt32.le_iff_toNat_le, hv, UInt32.toNat_ofNatLT]
  split_ifs <;> first | rfl | omega

theorem length_utf8 (s : Str) : (utf8 s).length = byteLen s := by
  simp [utf8, byteLen, length_flatMap, length_encodeChar]

theorem decodeName_cons {label : Str} (hne : label ≠ []) (hlen : byteLen label < 256)
    (fuel : Nat) (rest : Bytes) :
    decodeName (fuel + 1) (UInt8.ofNat (byteLen label) :: (utf8 label ++ rest)) =
      if maxLabelBytes < byteLen label then none
      else (decodeName fuel rest).map fun p => (utf8 label :: p.1, p.2) := by
  rw [decodeName, toNat_ofNat_of_lt hlen, if_neg (mt byteLen_eq_zero_iff.1 hne),
    takeExact_append (length_utf8 label)]
  simp only [Option.bind_eq_bind, Option.bind_some]
  cases decodeName fuel rest with
  | none => rfl
  | some p => rfl

/-- The encoder writes the whole TLD as one label, dots and all. -/
theorem decodeQuery_composeQuery {s : Str} (hne : s ≠ []) (hlen : byteLen s < 256) :
    ∃ packet, composeQuery s = some packet ∧ decodeQuery packet =
      if maxLabelBytes < byteLen s then none else some ⟨[utf8 probeLabel, utf8 s], 1, 1⟩ := by
  have hprobe : byteLen probeLabel < 256 := by decide
  have hcompose : composeQuery s = some
      ((txnId ++ [0x01, 0x00, 0x00, 0x01, 0, 0, 0, 0, 0, 0]) ++ UInt8.ofNat (byteLen probeLabel) ::
        (utf8 probeLabel ++ UInt8.ofNat (byteLen s) :: (utf8 s ++ [0, 0, 1, 0, 1]))) := by
    simp [composeQuery, encodeLabel, hprobe, hlen]
  refine ⟨_, hcompose, ?_⟩
  rw [decodeQuery, takeExact_append (n := 12) rfl]
  simp only [Option.bind_eq_bind, Option.bind_some, length_cons, length_append]
  rw [decodeName_cons (by decide) hprobe, if_neg (by decide), ← Nat.add_assoc,
    decodeName_cons hne hlen]
  split
  · rfl
  · rfl

/-- Every label of the probe's name has between 1 and 63 bytes, the responder of the TLD answers the
name with the loopback address, and a packet is composed; it asks for that name exactly when the
TLD is a single label. -/
theorem composeQuery_asks_iff (t : Tld) :
    let labels := probeLabel :: t.text.splitOn '.'
    (∀ label ∈ labels, 1 ≤ (utf8 label).length ∧ (utf8 label).length ≤ 63) ∧
    (Responder.new t).answer (['.'].intercalate labels) .a = .loopback4 ∧
    ∃ packet, composeQuery t.text = some packet ∧
      (decodeQuery packet = some ⟨labels.map utf8, 1, 1⟩ ↔ '.' ∉ t.text) := by
  intro labels
  have hprobe : IsLabel probeLabel := ⟨by decide, all_eq_true.1 (by decide), by decide, by decide⟩
  have hlabels : ∀ label ∈ labels, label ≠ [] ∧ IsLabel label :=
    forall_mem_cons.2 ⟨⟨by decide, hprobe⟩, t.labels_ok⟩
  refine ⟨fun label hmem => ?_, ?_, ?_⟩
  · obtain ⟨hne, hlabel⟩ := hlabels label hmem
    rw [length_utf8, Nat.one_le_iff_ne_zero, ne_eq, byteLen_eq_zero_iff]
    exact ⟨hne, hlabel.short⟩
  · have hname : ['.'].intercalate labels = probeLabel ++ '.' :: t.text := by
      obtain ⟨l, ls, hl⟩ := exists_cons_of_ne_nil (splitOn_ne_nil '.' t.text)
      rw [← @intercalate_splitOn _ t.text _ _ '.']
      simp [labels, hl, intercalate_cons_cons]
    have hlower : lower (stripDot (['.'].intercalate labels)) = probeLabel ++ '.' :: t.text := by
      rw [hname, stripDot_eq_self]
      · show lower probeLabel ++ '.' :: lower t.text = _
        rw [t.lower_text]
        rfl
      · rw [← singleton_append, ← append_assoc, getLast?_append_of_ne_nil _ t.text_ne_nil]
        exact t.text_getLast?_ne_dot
    refine (answer_of_under hlower ?_).1
    rw [hlower, splitOn_append_cons_self, splitOn_eq_singleton (by decide)]
    exact fun label hmem => (hlabels label hmem).1
  · have hlen : byteLen t.text < 256 :=
      Nat.lt_of_le_of_lt (Tld.validateSteps_eq_ok t.valid).2.2.2.2.1 (by decide)
    obtain ⟨packet, hpacket, hdecode⟩ := decodeQuery_composeQuery t.text_ne_nil hlen
    refine ⟨packet, hpacket, ?_⟩
    rw [hdecode]
    constructor
    · intro hsome
      split at hsome
      · cases hsome
      · -- one label was decoded behind the probe's, so the TLD splits into itself
        have hmap : [utf8 t.text] = (t.text.splitOn '.').map utf8 := by
          simpa [labels] using hsome
        obtain ⟨label, hlabel, hutf⟩ := mem_map.1 (hmap ▸ mem_singleton_self (utf8 t.text))
        obtain rfl := utf8_injective hutf
        exact notMem_of_mem_splitOn hlabel
    · intro hdot
      have hsplit : t.text.splitOn '.' = [t.text] := splitOn_eq_singleton hdot
      have hshort := (t.labels_ok t.text (by simp [hsplit])).2.short
      rw [if_neg (Nat.not_lt.2 hshort)]
      simp [labels, hsplit]

/-- Under a TLD of two labels the query's last label has a dot in it. -/
theorem composeQuery_dotted : (Tld.new "dev.local").map Tld.text = .ok "dev.local".toList ∧
    (composeQuery "dev.local").bind decodeQuery =
      some ⟨[utf8 probeLabel, utf8 "dev.local"], 1, 1⟩ ∧
    [utf8 probeLabel, utf8 "dev.local"] ≠
      (probeLabel :: ("dev.local" : Str).splitOn '.').map utf8 :=
  ⟨by decide +kernel, by decide +kernel, by decide +kernel⟩

end Orcker.Dns
