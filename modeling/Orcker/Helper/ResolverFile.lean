import Orcker.Base.Lines
import Orcker.Base.Numeral
import Orcker.Core.Name

/-!
# Resolver files of macOS, and the names of their backups
-/

namespace Orcker.Helper

open Base Orcker.Core List

/-- The text of IP addresses is the standard library's. -/
structure IpText (Ip : Type) where
  display : Ip → Str
  parse : Str → Option Ip

/-- A written address is read back, and has no blanks in it. -/
structure IpText.Faithful {Ip : Type} (std : IpText Ip) : Prop where
  parse_display : ∀ ip, std.parse (std.display ip) = some ip
  graphic : ∀ ip, ∀ c ∈ std.display ip, 33 ≤ c.toNat ∧ c.toNat ≤ 126
  ne_nil : ∀ ip, std.display ip ≠ []

structure SocketAddr (Ip : Type) where
  ip : Ip
  port : UInt16
  deriving DecidableEq

/-- Which server answers for a TLD. -/
structure ResolverFile (Ip : Type) where
  nameserver : Ip
  port : Nat
  deriving DecidableEq

variable {Ip : Type}

def ResolverFile.fromAddr (addr : SocketAddr Ip) : ResolverFile Ip := ⟨addr.ip, addr.port.toNat⟩

/-- The text of the file. -/
def compose (std : IpText Ip) (addr : SocketAddr Ip) : Str :=
  "nameserver " ++ std.display addr.ip ++ "\nport " ++ decimal addr.port.toNat ++ "\n"

def readDirective (std : IpText Ip) (found : Option Ip × Option Nat) (raw : Str) :
    Option Ip × Option Nat :=
  let line := trim raw
  if line.isEmpty || line.head? == some '#' then found
  else
    let tokens := splitWhitespace line
    let directive := tokens.headD []
    let value := (tokens.drop 1).headD []
    if directive = "nameserver" then (std.parse value <|> found.1, found.2)
    else if directive = "port" then (found.1, parseUInt 65535 value <|> found.2)
    else found

/-- Later lines win; without a port it is 53. -/
def parse (std : IpText Ip) (text : Str) : Option (ResolverFile Ip) :=
  let found := (lines text).foldl (readDirective std) (none, none)
  found.1.map fun ip => ⟨ip, found.2.getD 53⟩

/-- The file names this server. -/
def pointsAt [DecidableEq Ip] (std : IpText Ip) (text : Str) (expected : SocketAddr Ip) : Bool :=
  parse std text = some (.fromAddr expected)

/-- The copy can be read. -/
def restorable (std : IpText Ip) (text : Str) : Bool := (parse std text).isSome

variable {std : IpText Ip}

theorem readDirective_pair {found : Option Ip × Option Nat} {a b : Str}
    (ha : ∀ c ∈ a, isWhitespace c = false) (hb : ∀ c ∈ b, isWhitespace c = false) (hane : a ≠ [])
    (hbne : b ≠ []) (hhash : a.head? ≠ some '#') :
    readDirective std found (a ++ ' ' :: b) =
      if a = "nameserver" then (std.parse b <|> found.1, found.2)
      else if a = "port" then (found.1, parseUInt 65535 b <|> found.2)
      else found := by
  have htrim : trim (a ++ ' ' :: b) = a ++ ' ' :: b := by
    refine trim_eq_self (fun c hc => ?_) fun c hc => ?_
    · rw [head?_append_of_ne_nil _ hane] at hc
      exact ha c (mem_of_mem_head? hc)
    · rw [show a ++ ' ' :: b = (a ++ [' ']) ++ b by simp, getLast?_append_of_ne_nil _ hbne] at hc
      exact hb c (mem_of_getLast? hc)
  have hline : ((a ++ ' ' :: b).isEmpty || (a ++ ' ' :: b).head? == some '#') = false := by
    rw [head?_append_of_ne_nil _ hane]
    simp [hane, hhash]
  simp only [readDirective, htrim, hline, Bool.false_eq_true, if_false,
    splitWhitespace_pair ha hb hane hbne, headD_cons, drop_succ_cons, drop_zero]

theorem isWhitespace_of_isDigit {c : Char} (h : c.isDigit) : isWhitespace c = false := by
  obtain ⟨hlow, hhigh⟩ := isDigit_iff_toNat.1 h
  exact isWhitespace_of_graphic (by omega) (by omega)

theorem lines_pair {a b s : Str} (ha : ∀ c ∈ a, isWhitespace c = false)
    (hb : ∀ c ∈ b, isWhitespace c = false) (hbne : b ≠ []) :
    lines (a ++ ' ' :: b ++ '\n' :: s) = (a ++ ' ' :: b) :: lines s := by
  have hfeed : '\n' ∉ a ++ ' ' :: b := by
    intro h
    rcases mem_append.1 h with h | h
    · exact absurd (ha _ h) (by decide)
    · rcases mem_cons.1 h with h | h
      · exact absurd h (by decide)
      · exact absurd (hb _ h) (by decide)
  rw [lines_cons hfeed, stripCr_eq_self]
  intro hlast
  rw [show a ++ ' ' :: b = (a ++ [' ']) ++ b by simp, getLast?_append_of_ne_nil _ hbne] at hlast
  exact absurd (hb _ (mem_of_getLast? hlast)) (by decide)

theorem parse_compose (hstd : std.Faithful) (addr : SocketAddr Ip) :
    parse std (compose std addr) = some (.fromAddr addr) := by
  have hip : ∀ c ∈ std.display addr.ip, isWhitespace c = false := fun c hc =>
    isWhitespace_of_graphic (hstd.graphic addr.ip c hc).1 (hstd.graphic addr.ip c hc).2
  have hport : ∀ c ∈ decimal addr.port.toNat, isWhitespace c = false := fun c hc =>
    isWhitespace_of_isDigit (isDigit_of_mem_decimal hc)
  have hportne := decimal_ne_nil addr.port.toNat
  have hns : ∀ c ∈ "nameserver".toList, isWhitespace c = false := by
    simp [isWhitespace]
  have hpt : ∀ c ∈ "port".toList, isWhitespace c = false := by simp [isWhitespace]
  have hshape : compose std addr = "nameserver" ++ ' ' :: std.display addr.ip ++ '\n' ::
      ("port" ++ ' ' :: decimal addr.port.toNat ++ '\n' :: []) := by
    unfold compose
    simp
  have hlines : lines (compose std addr) = ["nameserver" ++ ' ' :: std.display addr.ip,
      "port" ++ ' ' :: decimal addr.port.toNat] := by
    rw [hshape, lines_pair hns hip (hstd.ne_nil addr.ip), lines_pair hpt hport hportne, lines_nil]
  have hread : parseUInt 65535 (decimal addr.port.toNat) = some addr.port.toNat :=
    parseUInt_decimal (by have := addr.port.toNat_lt; omega)
  simp only [parse, hlines, foldl_cons, foldl_nil]
  rw [readDirective_pair hns hip (by decide) (hstd.ne_nil addr.ip) (by decide),
    readDirective_pair hpt hport (by decide) hportne (by decide), if_pos rfl,
    if_neg (by decide), if_pos rfl, hread, hstd.parse_display]
  rfl

theorem restorable_compose (hstd : std.Faithful) (addr : SocketAddr Ip) :
    restorable std (compose std addr) = true := by
  rw [restorable, parse_compose hstd]
  rfl

theorem pointsAt_compose [DecidableEq Ip] (hstd : std.Faithful) (a b : SocketAddr Ip) :
    pointsAt std (compose std a) b = decide (a = b) := by
  rw [pointsAt, parse_compose hstd]
  refine decide_eq_decide.2 ⟨fun h => ?_, fun h => h ▸ rfl⟩
  obtain ⟨hip, hport⟩ := ResolverFile.mk.inj (Option.some.inj h)
  cases a
  cases b
  exact SocketAddr.mk.injEq .. ▸ ⟨hip, UInt16.toNat_inj.1 hport⟩

def backupDir : Str := "/Library/Application Support/io.orcker.Orcker/resolver-backups"

/-- Says when the copy was taken. -/
def backupFilename (tld : Str) (secs : Nat) : Str := tld ++ "-" ++ decimal secs ++ ".conf"

def u64Max : Nat := 2 ^ 64 - 1

/-- When a copy of the TLD was taken. -/
def parseBackupSecs (name tld : Str) : Option Nat := do
  let rest ← name.dropPrefix? (tld ++ "-")
  let digits ← List.dropSuffix? rest ".conf"
  parseUInt u64Max digits

/-- The backup with the largest stamp; of two with one stamp, the later. -/
def latestBackup (filenames : List Str) (tld : Str) : Option Str :=
  let stamped := filenames.filterMap fun name => (parseBackupSecs name tld).map (·, name)
  (stamped.reverse.argmax Prod.fst).map Prod.snd

theorem parseBackupSecs_backupFilename (tld : Str) {secs : Nat} (h : secs ≤ u64Max) :
    parseBackupSecs (backupFilename tld secs) tld = some secs := by
  have hname : (backupFilename tld secs).dropPrefix? (tld ++ "-")
      = some (decimal secs ++ ".conf") :=
    dropPrefix?_eq_some.2 (by simp only [backupFilename, append_assoc])
  have hrest : dropSuffix? (decimal secs ++ ".conf".toList) ".conf".toList
      = some (decimal secs) := dropSuffix?_eq_some.2 rfl
  simp only [parseBackupSecs, hname, hrest, Option.bind_eq_bind, Option.bind_some]
  exact parseUInt_decimal h

variable {filenames : List Str}

theorem latestBackup_eq_none_iff {tld : Str} :
    latestBackup filenames tld = none ↔ ∀ name ∈ filenames, parseBackupSecs name tld = none := by
  simp [latestBackup, argmax_eq_none, filterMap_eq_nil_iff]

theorem latestBackup_eq_some {tld name : Str} (h : latestBackup filenames tld = some name) :
    name ∈ filenames ∧ ∃ secs, parseBackupSecs name tld = some secs ∧
      ∀ other ∈ filenames, ∀ n, parseBackupSecs other tld = some n → n ≤ secs := by
  obtain ⟨⟨secs, file⟩, hmax, rfl⟩ := Option.map_eq_some_iff.1 h
  have hmem := argmax_mem hmax
  simp only [mem_reverse, mem_filterMap, Option.map_eq_some_iff, Prod.mk.injEq] at hmem
  obtain ⟨_, hfile, stamp, hsecs, rfl, rfl⟩ := hmem
  refine ⟨hfile, stamp, hsecs, fun other hother n hn => ?_⟩
  refine le_of_mem_argmax (a := (n, other)) ?_ hmax
  simp only [mem_reverse, mem_filterMap, Option.map_eq_some_iff, Prod.mk.injEq]
  exact ⟨other, hother, n, hn, rfl, rfl⟩

end Orcker.Helper
