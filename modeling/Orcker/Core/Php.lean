import Orcker.Base.Fallible
import Orcker.Core.Site

/-!
# PHP versions, settings, directives and extensions

The managed settings are a fixed table, each with the shape its value must have and a default that
has it. Directives are free-form names and values that must not break out of the line they are
rendered on; extensions are absolute `.so` paths under a plain name.
-/

namespace Orcker.Core

open Base

namespace PhpVersion

/-- Written `major.minor`. -/
def display (v : PhpVersion) : Str := decimal v.major.toNat ++ '.' :: decimal v.minor.toNat

/-- What follows an optional `php`, against which `input` errors are reported. -/
def fromNumbers (input rest : Str) : Except CoreError PhpVersion :=
  match splitOnce '.' rest with
  | none => .error (.invalidPhpVersion input .missingMinor)
  | some (major, minor) =>
    if major.isEmpty || minor.isEmpty || !major.all Char.isDigit || !minor.all Char.isDigit then
      .error (.invalidPhpVersion input .nonNumeric)
    else
      match parseUInt 65535 major, parseUInt 65535 minor with
      | some major, some minor =>
        if ¬(5 ≤ major ∧ major ≤ 9) then .error (.invalidPhpVersion input .majorOutOfRange)
        else if 99 < minor then .error (.invalidPhpVersion input .minorOutOfRange)
        else .ok ⟨UInt8.ofNat major, UInt8.ofNat minor⟩
      | _, _ => .error (.invalidPhpVersion input .nonNumeric)

/-- Also takes a `php` prefix, and bounds both numbers. -/
def fromStr (input : Str) : Except CoreError PhpVersion :=
  match input with
  | [] => .error (.invalidPhpVersion input .empty)
  | c :: _ =>
    if !isAscii c then .error (.invalidPhpVersion input .unsupportedPrefix)
    else if c.isAlpha then
      if lower (input.take 3) = "php" then
        let after := input.drop 3
        if after.head?.any Char.isAlpha then .error (.invalidPhpVersion input .unsupportedPrefix)
        else fromNumbers input after
      else .error (.invalidPhpVersion input .unsupportedPrefix)
    else fromNumbers input input

structure InRange (v : PhpVersion) : Prop where
  major_ge : 5 ≤ v.major.toNat
  major_le : v.major.toNat ≤ 9
  minor_le : v.minor.toNat ≤ 99

variable {v : PhpVersion}

theorem inRange_of_fromNumbers {input rest : Str} (h : fromNumbers input rest = .ok v) :
    v.InRange := by
  unfold fromNumbers at h
  split at h
  · cases h
  split at h
  · cases h
  split at h
  · split at h
    · cases h
    rename_i hmajor
    split at h
    · cases h
    rename_i hminor
    cases h
    have hmajor := not_not.1 hmajor
    refine ⟨?_, ?_, ?_⟩
    all_goals
      simp only [UInt8.toNat_ofNat']
      omega
  · cases h

theorem inRange_of_fromStr {input : Str} (h : fromStr input = .ok v) : v.InRange := by
  unfold fromStr at h
  split at h
  · cases h
  split at h
  · cases h
  split at h
  · split at h
    · simp only at h
      split at h
      · cases h
      · exact inRange_of_fromNumbers h
    · cases h
  · exact inRange_of_fromNumbers h

/-- What is written is read back. -/
theorem fromStr_display (h : v.InRange) : fromStr v.display = .ok v := by
  have hdot : '.' ∉ decimal v.major.toNat := notMem_decimal (by decide)
  have hdigits : ∀ n, (decimal n).all Char.isDigit = true := fun n =>
    List.all_eq_true.2 fun c hc => isDigit_of_mem_decimal hc
  have hne : ∀ n, (decimal n).isEmpty = false := fun n => by simp [decimal_ne_nil]
  have hmajor : parseUInt 65535 (decimal v.major.toNat) = some v.major.toNat :=
    parseUInt_decimal (by have := h.major_le; omega)
  have hminor : parseUInt 65535 (decimal v.minor.toNat) = some v.minor.toNat :=
    parseUInt_decimal (by have := h.minor_le; omega)
  have hnumbers : fromNumbers v.display v.display = .ok v := by
    conv_lhs => rw [display]
    unfold fromNumbers
    rw [splitOnce_append hdot]
    simp only [hne, hdigits, hmajor, hminor, Bool.or_self, Bool.not_true, Bool.false_eq_true,
      if_false]
    rw [if_neg (not_not_intro ⟨h.major_ge, h.major_le⟩), if_neg (Nat.not_lt.2 h.minor_le)]
    simp
  -- The text starts with a digit, so neither prefix check applies.
  obtain ⟨c, s, hcs⟩ := List.exists_cons_of_ne_nil (decimal_ne_nil v.major.toNat)
  have hdisplay : v.display = c :: (s ++ '.' :: decimal v.minor.toNat) := by
    rw [display, hcs, List.cons_append]
  have hc : c.isDigit := isDigit_of_mem_decimal (n := v.major.toNat) (by rw [hcs]; simp)
  have hrange := isDigit_iff_toNat.1 hc
  have hascii : isAscii c = true := by
    simp only [isAscii, decide_eq_true_eq]
    omega
  have halpha : c.isAlpha = false := by
    rw [Bool.eq_false_iff, ne_eq, Char.isAlpha, Bool.or_eq_true, isUpper_iff_toNat,
      isLower_iff_toNat]
    omega
  rw [← hnumbers]
  conv_lhs => rw [hdisplay]
  rw [fromStr]
  simp only [hascii, halpha, Bool.not_true, Bool.false_eq_true, if_false, ← hdisplay]

theorem display_inj {w : PhpVersion} (hv : v.InRange) (hw : w.InRange) (h : v.display = w.display) :
    v = w :=
  Except.ok.inj ((fromStr_display hv).symm.trans (h ▸ fromStr_display hw))

end PhpVersion

def maxValueLen : Nat := 256

def maxNameLen : Nat := 128

/-- The checks every rendered value passes first: something is there, it is not
too long, and no character ends the line or starts a new construct. -/
def checkValue {ε : Type} (empty tooLong illegal : ε) (maxLen : Nat) (isIllegal : Char → Bool)
    (value : Str) : Except ε Unit :=
  if value.isEmpty || value.all isWhitespace then .error empty
  else if maxLen < byteLen value then .error tooLong
  else if value.any isIllegal then .error illegal
  else .ok ()

/-- The checks on a free-form name. -/
def checkName {ε : Type} (empty tooLong illegalStart illegal : ε) (name : Str) : Except ε Unit :=
  match name with
  | [] => .error empty
  | first :: _ =>
    if maxNameLen < byteLen name then .error tooLong
    else if !(first.isAlpha || first == '_') then .error illegalStart
    else if !name.all (fun c => c.isAlphanum || c == '.' || c == '_' || c == '-') then
      .error illegal
    else .ok ()

/-- Control characters and what an ini line gives a meaning to. -/
def isIniIllegal (c : Char) : Bool :=
  isControl c || c == '[' || c == ']' || c == '=' || c == ';' || c == '#'

inductive ValueErrorReason where
  | empty
  | tooLong
  | illegalCharacter
  | notAByteSize
  | notAnInteger
  | notABoolean
  | notErrorReporting
  deriving DecidableEq, Repr

inductive PhpSettingError where
  | unsupported (name : Str)
  | invalidValue (name : Str) (reason : ValueErrorReason)
  deriving DecidableEq, Repr

namespace PhpSettings

/-- The shapes of a setting's value. -/
inductive Kind where
  | bytes (allowUnlimited : Bool)
  | int
  | flag
  | errorReporting
  deriving DecidableEq, Repr

/-- One managed setting. -/
structure Spec where
  name : Str
  kind : Kind
  default : Str
  cli : Bool

/-- The table of managed settings. -/
def settings : List Spec := [
  ⟨"memory_limit", .bytes true, "512M", true⟩,
  ⟨"max_execution_time", .int, "60", true⟩,
  ⟨"max_input_time", .int, "60", false⟩,
  ⟨"max_file_uploads", .int, "20", false⟩,
  ⟨"upload_max_filesize", .bytes false, "100M", false⟩,
  ⟨"post_max_size", .bytes false, "100M", false⟩,
  ⟨"display_errors", .flag, "On", true⟩,
  ⟨"error_reporting", .errorReporting, "E_ALL", true⟩]

def spec (name : Str) : Option Spec := settings.find? (·.name = name)

def isSupported (name : Str) : Bool := (spec name).isSome

def defaultSettings : List (Str × Str) := settings.map fun s => (s.name, s.default)

def isUint (s : Str) : Bool := !s.isEmpty && s.all Char.isDigit

/-- Digits and at most one unit letter, or `-1` where a limit may be lifted. -/
def isByteSize (s : Str) (allowUnlimited : Bool) : Bool :=
  if allowUnlimited && s == "-1" then true
  else
    let digits :=
      match s.getLast? with
      | some c => if c ∈ ['K', 'M', 'G', 'k', 'm', 'g'] then s.dropLast else s
      | none => s
    isUint digits

/-- The spellings of a switch. -/
def parseFlag (s : Str) : Option Bool :=
  let lowered := lower s
  if lowered ∈ ["on".toList, "1".toList, "true".toList] then some true
  else if lowered ∈ ["off".toList, "0".toList, "false".toList] then some false
  else none

def isErrorReporting (s : Str) : Bool :=
  s.any (fun c => !isWhitespace c) &&
    s.all fun c => c.isAlphanum ||
      c ∈ ['_', ' ', '&', '|', '~', '^', '(', ')', '-']

/-- Does the text have the shape? -/
def Kind.accepts (kind : Kind) (t : Str) : Bool :=
  match kind with
  | .bytes allowUnlimited => isByteSize t allowUnlimited
  | .int => isUint t
  | .flag => (parseFlag t).isSome
  | .errorReporting => isErrorReporting t

/-- How a value of the wrong shape is reported. -/
def Kind.reason : Kind → ValueErrorReason
  | .bytes _ => .notAByteSize
  | .int => .notAnInteger
  | .flag => .notABoolean
  | .errorReporting => .notErrorReporting

/-- A value for a managed setting. -/
def validateValue (name value : Str) : Except PhpSettingError Unit :=
  match spec name with
  | none => .error (.unsupported name)
  | some spec =>
    match checkValue ValueErrorReason.empty .tooLong .illegalCharacter maxValueLen isIniIllegal
        value with
    | .error reason => .error (.invalidValue name reason)
    | .ok () =>
      if spec.kind.accepts (trim value) then .ok ()
      else .error (.invalidValue name spec.kind.reason)

/-- Every shipped default passes the check of its own setting. -/
theorem validateValue_default :
    ∀ p ∈ defaultSettings, validateValue p.1 p.2 = .ok () := by decide +kernel

end PhpSettings

inductive DirectiveNameErrorReason where
  | empty
  | tooLong
  | illegalStart
  | illegalCharacter
  deriving DecidableEq, Repr

inductive DirectiveError where
  | name (reason : DirectiveNameErrorReason)
  | value (reason : ValueErrorReason)
  deriving DecidableEq, Repr

namespace PhpDirectives

def extensionHint : Str :=
  "extensions are managed with `orcker php ext` (or the GUI extensions panel)"

/-- Directives that Orcker sets itself, and where to set them instead. -/
def reservedNames : List (Str × Str) := [
  ("extension", extensionHint),
  ("zend_extension", extensionHint),
  ("openssl.cafile", "Orcker manages the CA bundle for this"),
  ("curl.cainfo", "Orcker manages the CA bundle for this")]

/-- Why a directive may not be set by hand. -/
def reserved (name : Str) : Option Str :=
  if PhpSettings.isSupported name then
    some ("this setting is managed with `orcker set php` " ++
      "(add --only <version> for a per-version value)" : String)
  else if "pm.".toList.isPrefixOf name then
    some ("pm.* settings are FPM pool-block directives, not php.ini directives, " ++
      "and cannot be set this way" : String)
  else reservedNames.lookup name

/-- A name that can stand on a line of its own. -/
def validateName (name : Str) : Except DirectiveError Unit :=
  (checkName DirectiveNameErrorReason.empty .tooLong .illegalStart .illegalCharacter name).mapError
    .name

def validateValue (value : Str) : Except DirectiveError Unit :=
  (checkValue ValueErrorReason.empty .tooLong .illegalCharacter maxValueLen isIniIllegal
    value).mapError .value

end PhpDirectives

inductive NameErrorReason where
  | empty
  | tooLong
  | illegalCharacter
  deriving DecidableEq, Repr

inductive PathErrorReason where
  | empty
  | tooLong
  | notAbsolute
  | notSharedObject
  | illegalCharacter
  deriving DecidableEq, Repr

inductive ExtError where
  | name (reason : NameErrorReason)
  | path (reason : PathErrorReason)
  deriving DecidableEq, Repr

namespace PhpExtensions

/-- The name under which an extension is kept. -/
def validateExtName (name : Str) : Except ExtError Unit :=
  if name.isEmpty then .error (.name .empty)
  else if 64 < byteLen name then .error (.name .tooLong)
  else if !name.all (fun c => c.isAlphanum || c == '_' || c == '-') then
    .error (.name .illegalCharacter)
  else .ok ()

/-- Where an extension is loaded from. -/
def validateExtPath (path : Str) : Except ExtError Unit :=
  if path.isEmpty then .error (.path .empty)
  else if 4096 < byteLen path then .error (.path .tooLong)
  else if path.head? ≠ some '/' then .error (.path .notAbsolute)
  else if ((Path.ofStr path).extension.bind fromUtf8) ≠ some "so" then
    .error (.path .notSharedObject)
  else if path.any (fun c => isControl c || c == '"' || c == '$') then
    .error (.path .illegalCharacter)
  else .ok ()

/-- The path is checked first, so that a name derived from it does not hide the
clearer error. -/
def validateEntry (name path : Str) (_zend : Bool) : Except ExtError Unit :=
  validateExtPath path >>= fun _ => validateExtName name

/-- The file's name without `.so`. -/
def defaultNameFromPath (path : Str) : Option Str :=
  ((Path.ofStr path).fileName.bind fromUtf8).bind fun name =>
    let stem := (name.dropSuffix? ".so").getD name
    if stem.isEmpty then none else some stem

end PhpExtensions

/-! ## Service configuration overrides

Free-form lines rendered into an engine's own option file, so the shape rules and the denylist
depend on the file's dialect. -/

/-- The configuration languages of the services. -/
inductive OverrideDialect where
  | myCnf
  | postgresConf
  | redisConf
  deriving DecidableEq, Repr

inductive OverrideNameErrorReason where
  | empty
  | tooLong
  | illegalStart
  | illegalCharacter
  deriving DecidableEq, Repr

inductive OverrideValueErrorReason where
  | empty
  | tooLong
  | illegalCharacter
  | quote
  deriving DecidableEq, Repr

inductive OverrideError where
  | name (reason : OverrideNameErrorReason)
  | value (reason : OverrideValueErrorReason)
  deriving DecidableEq, Repr

namespace ServiceDirectives

def maxValueLen : Nat := 512

/-- The language of a service, if it has one. -/
def dialectFor (typeId : Str) : Option OverrideDialect :=
  if typeId = "mysql" ∨ typeId = "mariadb" then some .myCnf
  else if typeId = "postgres" then some .postgresConf
  else if typeId = "redis" then some .redisConf
  else none

def portHint : Str := "the port is managed with `orcker service set-port <service>`"

def logHint : Str := "Orcker owns the log path: read it with `orcker service logs <service>`"

def loopbackHint : Str := "Orcker pins this service to loopback"

def includeHint : Str :=
  "overrides may not load other config files; put hand edits in the 50-local file instead"

def authHint : Str := "Orcker pins authentication to the data directory it initialised"

/-- What a service's overrides may not set, and why. -/
def reservedTable : OverrideDialect → List (Str × Str)
  | .myCnf => [
      ("port", portHint),
      ("datadir", "Orcker owns this service's data directory"),
      ("socket", "Orcker owns this service's socket path"),
      ("pid-file", "Orcker owns this service's pid file"),
      ("log-error", logHint),
      ("init-file",
        "Orcker runs its own bootstrap SQL from this file (passwordless root over loopback)"),
      ("bind-address", loopbackHint),
      ("skip-name-resolve", loopbackHint)]
  | .postgresConf => [
      ("port", portHint),
      ("listen_addresses", loopbackHint),
      ("unix_socket_directories", "Orcker owns this service's socket configuration"),
      ("logging_collector", logHint),
      ("hba_file", authHint),
      ("ident_file", authHint),
      ("shared_preload_libraries", "Orcker resolves preloaded libraries from the install tree"),
      ("data_directory", "Orcker owns this service's data directory"),
      ("config_file", "Orcker owns this service's config file"),
      ("include", includeHint),
      ("include_dir", includeHint),
      ("include_if_exists", includeHint)]
  | .redisConf => [
      ("port", portHint),
      ("bind", loopbackHint),
      ("protected-mode", loopbackHint),
      ("dir", "Orcker owns this service's data directory"),
      ("logfile", logHint),
      ("daemonize", "Orcker supervises this service in the foreground"),
      ("include", includeHint),
      ("unixsocket", "Orcker owns this service's socket path")]

/-- How a dialect spells one name: option files take `-` for `_`. -/
def spelling (dialect : OverrideDialect) (name : Str) : Str :=
  match dialect with
  | .myCnf => name.map fun c => if c = '-' then '_' else c
  | .postgresConf | .redisConf => name

/-- Names are compared by their spelling, in any case. -/
def reserved (dialect : OverrideDialect) (name : Str) : Option Str :=
  ((reservedTable dialect).find? fun e =>
    lower (spelling dialect e.1) = lower (spelling dialect name)).map Prod.snd

def validateName (name : Str) : Except OverrideError Unit :=
  (checkName OverrideNameErrorReason.empty .tooLong .illegalStart .illegalCharacter name).mapError
    .name

/-- Quotes are refused where values are rendered bare. -/
def validateValue (dialect : OverrideDialect) (value : Str) : Except OverrideError Unit :=
  match checkValue OverrideValueErrorReason.empty .tooLong .illegalCharacter maxValueLen
      (fun c => isControl c || c == ';' || c == '#') value with
  | .error reason => .error (.value reason)
  | .ok () =>
    let quoted :=
      match dialect with
      | .myCnf | .redisConf => value.any fun c => c == '\'' || c == '"'
      | .postgresConf => false
    if quoted then .error (.value .quote) else .ok ()

end ServiceDirectives

end Orcker.Core
