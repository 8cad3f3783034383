import Orcker.Base.Contested
import Orcker.Base.Numeral
import Orcker.Base.Lines
import Orcker.Helper.Ops

/-!
# Trusting the certificate authority

`install-ca` is told where the certificate is and which fingerprint it must have. The file is the
user's, so another process may write it while root works.
-/

namespace Orcker.Helper

open Base Program Orcker.Core List

structure CaFingerprint where
  bytes : Bytes
  length_eq : bytes.length = 32
  deriving DecidableEq

structure Pem where
  tag : Str
  contents : Bytes
  deriving DecidableEq

/-- The libraries for certificates: the blocks of a text, the text of a block, digests and
subjects. -/
structure CertCrates where
  parseMany : Bytes → Option (List Pem)
  encode : Pem → Str
  sha256 : Bytes → CaFingerprint
  subjectCommonName : Bytes → Option Str

def certificateTag : Str := "CERTIFICATE"

/-- The certificates among the blocks. -/
def certsOf (blocks : List Pem) : List Bytes :=
  (blocks.filter fun b => b.tag = certificateTag).map Pem.contents

/-- A one-block text of a certificate. -/
def CertCrates.derToPem (crates : CertCrates) (der : Bytes) : Str :=
  crates.encode ⟨certificateTag, der⟩

/-- The text of the certificate is read as that certificate. -/
def CertCrates.ReadsBack (crates : CertCrates) (der : Bytes) : Prop :=
  crates.parseMany (utf8 (crates.derToPem der)) = some [⟨certificateTag, der⟩]

/-- Debian's, Fedora's and Arch's, in this order. -/
def anchorDirs : List Str :=
  ["/usr/local/share/ca-certificates", "/etc/pki/ca-trust/source/anchors",
    "/etc/ca-certificates/trust-source/anchors"].map String.toList

/-- What makes the anchors of a directory take effect. -/
def linuxPostInstallCmd (anchorDir : Str) : Option (Str × List Str) :=
  if anchorDir = "/usr/local/share/ca-certificates" then
    some ("update-ca-certificates", [])
  else if anchorDir = "/etc/pki/ca-trust/source/anchors" then
    some ("update-ca-trust", ["extract"])
  else if anchorDir = "/etc/ca-certificates/trust-source/anchors" then
    some ("trust", ["extract-compat"])
  else none

/-- The first directory there is. -/
def pickAnchorDir : List Str → Program (Except HelperError Str)
  | [] => return .error (.validation .noAnchorDir)
  | dir :: dirs => do
    if ← passes dir then return .ok dir else pickAnchorDir dirs

/-- Told apart by the fingerprint. -/
def anchorFilename (fp : CaFingerprint) : Str :=
  "orcker-" ++ (hexEncode fp.bytes).take 16 ++ ".crt"

/-- Tell the system that the anchors have changed. -/
def refreshAnchors (anchorDir : Str) : Program (Except HelperError Unit) :=
  match linuxPostInstallCmd anchorDir with
  | none => return .error (.validation .noAnchorDir)
  | some (tool, args) => runCommand tool tool args

/-- An absolute path of a file. -/
def requireExistingFile (path : Str) : Program (Except HelperError Unit) := do
  if path.head? ≠ some '/' then return .error (.validation (.pathNotAbsolute path))
  else
    match ← prepareAt path with
    | .error _ => return .error (.validation (.pathMissing path))
    | .ok () =>
      if ← passes path then return .ok () else return .error (.validation (.pathNotFile path))

/-- The one certificate of the text, if it has the fingerprint. -/
def matchFingerprint (crates : CertCrates) (expected : CaFingerprint) (bytes : Bytes) :
    Except HelperError Bytes :=
  match crates.parseMany bytes with
  | none => .error (.validation .pemParseFailed)
  | some blocks =>
    match certsOf blocks with
    | [der] =>
      let actual := crates.sha256 der
      if actual = expected then .ok der
      else .error (.fingerprintMismatch (hexEncode expected.bytes) (hexEncode actual.bytes))
    | certs => .error (.validation (.expectedSingleCertPem certs.length))

/-- The certificate that was read and checked. -/
def requirePemMatchesFingerprint (crates : CertCrates) (pemPath : Str) (expected : CaFingerprint) :
    Program (Except HelperError Bytes) := do
  match ← readFile pemPath with
  | .error e => return .error (.io pemPath e)
  | .ok bytes => return matchFingerprint crates expected bytes

/-- The certificate that was read and checked is what is written. -/
def installCaLinux (crates : CertCrates) (pemPath : Str) (fp : CaFingerprint) :
    Program (Except HelperError Unit) := do
  match ← requireExistingFile pemPath with
  | .error e => return .error e
  | .ok () =>
    match ← requirePemMatchesFingerprint crates pemPath fp with
    | .error e => return .error e
    | .ok der =>
      match ← pickAnchorDir anchorDirs with
      | .error e => return .error e
      | .ok anchorDir =>
        let dest := anchorDir ++ '/' :: anchorFilename fp
        match ← atomicWrite dest (utf8 (crates.derToPem der)) with
        | .error e => return .error e
        | .ok () => refreshAnchors anchorDir

def systemKeychain : Str := "/Library/Keychains/System.keychain"

def runSecurity (args : List Str) : Program (Except HelperError Unit) :=
  runCommand "security" "/usr/bin/security" args

/-- Does the listing name the fingerprint? -/
def macosFindCertificateContains (stdout fpUpper : Str) : Bool :=
  (lines stdout).any fun line =>
    ((trim line).dropPrefix? "SHA-256 hash:").any fun rest =>
      lower (trim rest) == lower fpUpper

def hexEncodeUpper (bytes : Bytes) : Str := (hexEncode bytes).map Char.toUpper

/-- `stdout` is what the listing would print. -/
def macosSystemKeychainContains (stdout : Str) (fp : CaFingerprint) :
    Program (Except HelperError Bool) := do
  match ← runSecurity ["find-certificate", "-Z", "-a", systemKeychain] with
  | .ok () => return .ok (macosFindCertificateContains stdout (hexEncodeUpper fp.bytes))
  | .error (.command _ (.nonZero _)) => return .ok false
  | .error e => return .error e

/-- A copy that is there would keep the trust setting it has. -/
def deleteIfPresent (present : Bool) (fp : CaFingerprint) : Program (Except HelperError Unit) :=
  if present then
    runSecurity ["delete-certificate", "-Z", hexEncodeUpper fp.bytes, systemKeychain]
  else return .ok ()

def addTrustedCert : Str := "add-trusted-cert"

/-- Gives `security` the path, and it reads the file again. -/
def installCaMacos (crates : CertCrates) (stdout pemPath : Str) (fp : CaFingerprint) :
    Program (Except HelperError Unit) := do
  match ← requireExistingFile pemPath with
  | .error e => return .error e
  | .ok () =>
    match ← requirePemMatchesFingerprint crates pemPath fp with
    | .error e => return .error e
    | .ok _ =>
      match ← macosSystemKeychainContains stdout fp with
      | .error e => return .error e
      | .ok present =>
        match ← deleteIfPresent present fp with
        | .error e => return .error e
        | .ok () => runSecurity [addTrustedCert, "-d", "-r", "trustRoot",
            "-k", systemKeychain, pemPath]

/-- The system, on macOS with what its keychain's listing prints. -/
inductive Host where
  | linux
  | macOs (listing : Str)
  deriving DecidableEq

def installCa (crates : CertCrates) (host : Host) (pemPath : Str) (fp : CaFingerprint) :
    Program (Except HelperError Unit) :=
  match host with
  | .linux => installCaLinux crates pemPath fp
  | .macOs listing => installCaMacos crates listing pemPath fp

/-- What the system's own tools take for the certificates in a file: none that the library, if it
can read the file, does not see. -/
structure TrustTools (crates : CertCrates) where
  certificatesIn : Bytes → List Bytes
  sound : ∀ {data blocks der}, crates.parseMany data = some blocks → der ∈ certificatesIn data →
    der ∈ certsOf blocks

variable {crates : CertCrates}

/-- The certificates an act adds to the trust store: those of an anchor that is written, and those
of the file that `security` is told to trust, as it finds it. -/
def TrustTools.added (tools : TrustTools crates) : Act → List Bytes
  | .wrote _ data => tools.certificatesIn data
  | .ran _ args files =>
    if args.head? = some addTrustedCert then
      (args.getLast?.bind (files[·]?)).elim [] tools.certificatesIn
    else []

/-- All certificates that come to be trusted have the fingerprint. -/
def Expected (tools : TrustTools crates) (fp : CaFingerprint) (act : Act) : Prop :=
  ∀ der ∈ tools.added act, crates.sha256 der = fp

variable {der : Bytes} {fp : CaFingerprint} {bytes : Bytes}

theorem certsOf_of_matchFingerprint (h : matchFingerprint crates fp bytes = .ok der) :
    ∃ blocks, crates.parseMany bytes = some blocks ∧ certsOf blocks = [der] ∧
      crates.sha256 der = fp := by
  rw [matchFingerprint] at h
  split at h
  · cases h
  · next blocks hblocks =>
    split at h
    · next der' hcerts =>
      simp only at h
      split at h
      · next hsha =>
        cases h
        exact ⟨blocks, hblocks, hcerts, hsha⟩
      · cases h
    · cases h

theorem sha256_of_matchFingerprint (tools : TrustTools crates) {der' : Bytes}
    (h : matchFingerprint crates fp bytes = .ok der) (hder' : der' ∈ tools.certificatesIn bytes) :
    crates.sha256 der' = fp := by
  obtain ⟨blocks, hblocks, hcerts, hsha⟩ := certsOf_of_matchFingerprint h
  have hmem := tools.sound hblocks hder'
  rw [hcerts, mem_singleton] at hmem
  exact hmem ▸ hsha

theorem sha256_of_derToPem (tools : TrustTools crates) {der' : Bytes}
    (hpem : crates.ReadsBack der) (h : crates.sha256 der = fp)
    (hder' : der' ∈ tools.certificatesIn (utf8 (crates.derToPem der))) :
    crates.sha256 der' = fp := by
  have hmem := tools.sound hpem hder'
  simp only [certsOf, filter_cons, decide_true, if_true, filter_nil, map_cons,
    map_nil, mem_singleton] at hmem
  exact hmem ▸ h

variable {G : Act → Prop} {args : List Str} {path stdout : Str}

section Runs

variable {tools : TrustTools crates} {fp : CaFingerprint} {reach : Nat → Str → Prop} {n : Nat}
  {w : World} {pemPath : Str} {program : Str}

theorem withstands_runCommand {tool : Str} {Q : Except HelperError Unit → Nat → World → Prop}
    (hG : ∀ w', w.Beside (reach n) w' → G (.ran program args w'.files))
    (h : ∀ w', w.Beside (reach n) w' → ∀ r deeds, Q r (n + 1) ⟨w'.files, deeds⟩) :
    Withstands reach G Q (runCommand tool program args) n w := by
  refine .bind (withstands_command hG fun w' hw' r deeds => ?_)
  cases r with
  | error | ok _ => exact h w' hw' _ deeds

theorem withstands_requireExistingFile :
    Withstands reach G (fun r m _ => r = .ok () → m = n + 2) (requireExistingFile path) n w := by
  unfold requireExistingFile
  split
  · exact nofun
  refine .bind (withstands_prepareAt fun _ _ r => ?_)
  cases r with
  | error e => exact nofun
  | ok _ =>
    refine .bind (withstands_passes fun _ _ answer => ?_)
    cases answer with
    | false => exact nofun
    | true => exact fun _ => rfl

theorem withstands_requirePemMatchesFingerprint :
    Withstands reach G (fun r m w => ∀ der, r = .ok der → m = n + 1 ∧
      ∃ bytes, w.files[pemPath]? = some bytes ∧ matchFingerprint crates fp bytes = .ok der)
      (requirePemMatchesFingerprint crates pemPath fp) n w := by
  refine .bind (withstands_readFile fun w' _ => ⟨fun bytes hbytes => ?_, fun e => nofun⟩)
  exact fun der hder => ⟨rfl, bytes, hbytes, hder⟩

theorem expected_of_head?_ne {files : StrMap Bytes} (h : args.head? ≠ some addTrustedCert) :
    Expected tools fp (.ran program args files) := by
  intro der hder
  rw [TrustTools.added, if_neg h] at hder
  cases hder

theorem withstands_pickAnchorDir {dirs : List Str} :
    Withstands reach G (fun _ _ _ => True) (pickAnchorDir dirs) n w := by
  induction dirs generalizing n w with
  | nil => trivial
  | cons dir dirs ih =>
    refine .bind (withstands_passes fun _ _ answer => ?_)
    cases answer with
    | false => exact ih
    | true => trivial

theorem withstands_atomicWrite {data : Bytes} (hG : G (.wrote path data)) :
    Withstands reach G (fun _ _ _ => True) (atomicWrite path data) n w := by
  refine .bind (withstands_prepareAt fun _ _ r => ?_)
  cases r with
  | error e => trivial
  | ok _ =>
    refine .bind (withstands_prepareAt fun _ _ r => ?_)
    cases r with
    | error e => trivial
    | ok _ => exact .bind (withstands_writeFile hG fun _ _ => ⟨trivial, fun e => trivial⟩)

theorem head?_of_linuxPostInstallCmd {dir tool : Str}
    (h : linuxPostInstallCmd dir = some (tool, args)) : args.head? ≠ some addTrustedCert := by
  rw [linuxPostInstallCmd] at h
  rcases ite_eq_iff.1 h with ⟨-, h⟩ | ⟨-, h⟩
  · cases h
    decide
  rcases ite_eq_iff.1 h with ⟨-, h⟩ | ⟨-, h⟩
  · cases h
    decide
  rcases ite_eq_iff.1 h with ⟨-, h⟩ | ⟨-, h⟩
  · cases h
    decide
  · cases h

theorem withstands_refreshAnchors {dir : Str} :
    Withstands reach (Expected tools fp) (fun _ _ _ => True) (refreshAnchors dir) n w := by
  unfold refreshAnchors
  split
  · trivial
  · next tool args hcmd =>
    exact withstands_runCommand (fun _ _ => expected_of_head?_ne (head?_of_linuxPostInstallCmd hcmd))
      fun _ _ _ _ => trivial

/-- Whatever the file holds later, what was checked is what is written. -/
theorem withstands_installCaLinux (hpem : ∀ der, crates.sha256 der = fp → crates.ReadsBack der) :
    Withstands reach (Expected tools fp) (fun _ _ _ => True) (installCaLinux crates pemPath fp)
      n w := by
  refine .bind (.mono withstands_requireExistingFile ?_)
  rintro (e | _) _ _ -
  · trivial
  refine .bind (.mono withstands_requirePemMatchesFingerprint ?_)
  rintro (e | der) _ _ hder
  · trivial
  obtain ⟨-, bytes, -, hmatch⟩ := hder der rfl
  obtain ⟨-, -, -, hsha⟩ := certsOf_of_matchFingerprint hmatch
  refine .bind (.mono withstands_pickAnchorDir ?_)
  rintro (e | dir) _ _ -
  · trivial
  have hwrote : Expected tools fp (.wrote (dir ++ '/' :: anchorFilename fp)
      (utf8 (crates.derToPem der))) := fun der' hder' =>
    sha256_of_derToPem tools (hpem der hsha) hsha hder'
  refine .bind (.mono (withstands_atomicWrite hwrote) ?_)
  rintro (e | _) _ _ -
  · trivial
  · exact withstands_refreshAnchors

theorem withstands_runSecurity {subcommand : Str} (hother : subcommand ≠ addTrustedCert)
    (hreach : ¬reach n pemPath) :
    Withstands reach (Expected tools fp)
      (fun _ m w' => m = n + 1 ∧ w'.files[pemPath]? = w.files[pemPath]?)
      (runSecurity (subcommand :: args)) n w := by
  have hhead : (subcommand :: args).head? ≠ some addTrustedCert := fun h => hother (Option.some.inj h)
  refine withstands_runCommand (fun _ _ => expected_of_head?_ne hhead) fun w' hw' _ _ => ⟨rfl, ?_⟩
  exact hw' pemPath hreach

theorem withstands_macosSystemKeychainContains (hreach : ¬reach n pemPath) :
    Withstands reach (Expected tools fp)
      (fun _ m w' => m = n + 1 ∧ w'.files[pemPath]? = w.files[pemPath]?)
      (macosSystemKeychainContains stdout fp) n w := by
  refine .bind (.mono (withstands_runSecurity (by decide) hreach) ?_)
  intro r m w' hw'
  split
  · exact hw'
  · exact hw'
  · exact hw'

theorem withstands_deleteIfPresent {present : Bool} (hreach : ¬reach n pemPath) :
    Withstands reach (Expected tools fp)
      (fun _ m w' => n ≤ m ∧ w'.files[pemPath]? = w.files[pemPath]?)
      (deleteIfPresent present fp) n w := by
  unfold deleteIfPresent
  split
  · refine .mono (withstands_runSecurity (by decide) hreach) fun _ m _ h => ⟨?_, h.2⟩
    have := h.1
    omega
  · exact ⟨le_refl n, rfl⟩

/-- The file that `security` finds is still the one that was checked. -/
theorem withstands_installCaMacos (hreach : ∀ i, n + 2 < i → ¬reach i pemPath) :
    Withstands reach (Expected tools fp) (fun _ _ _ => True)
      (installCaMacos crates stdout pemPath fp) n w := by
  refine .bind (.mono withstands_requireExistingFile ?_)
  rintro (e | _) _ _ hturn
  · trivial
  obtain rfl := hturn rfl
  refine .bind (.mono withstands_requirePemMatchesFingerprint ?_)
  rintro (e | der) _ w₁ hder
  · trivial
  obtain ⟨rfl, bytes, hbytes, hmatch⟩ := hder der rfl
  refine .bind (.mono (withstands_macosSystemKeychainContains (hreach _ (by omega))) ?_)
  rintro (e | present) _ w₂ ⟨rfl, hw₂⟩
  · trivial
  refine .bind (.mono (withstands_deleteIfPresent (hreach _ (by omega))) ?_)
  rintro (e | _) m w₃ ⟨hm, hw₃⟩
  · trivial
  refine withstands_runCommand (fun w₄ hw₄ der' hder' => ?_) fun _ _ _ _ => trivial
  have hhead : [addTrustedCert, "-d", "-r", "trustRoot", "-k",
      systemKeychain, pemPath].head? = some addTrustedCert := rfl
  rw [TrustTools.added, if_pos hhead] at hder'
  have hfile : w₄.files[pemPath]? = some bytes := by
    rw [hw₄ pemPath (hreach m (by omega)), hw₃, hw₂, hbytes]
  simp only [getLast?_cons_cons, getLast?_singleton, Option.bind_some, hfile,
    Option.elim_some] at hder'
  exact sha256_of_matchFingerprint tools hmatch hder'

/-- What the other process may write at turn `i`: the certificate's file, on macOS up to turn 2, at
which the check reads it. -/
def Fair (host : Host) (pemPath : Str) (i : Nat) (path : Str) : Prop :=
  path = pemPath ∧ (host ≠ .linux → i ≤ 2)

end Runs

/-- In every interleaving with a process that writes the certificate's file, on macOS not after the
check has read it: every certificate that becomes trusted has the fingerprint. -/
theorem installs_fingerprint {tools : TrustTools crates} {host : Host} {pemPath : Str}
    {fp : CaFingerprint} {turns : List Turn} {w : World}
    (hpem : ∀ der, crates.sha256 der = fp → crates.ReadsBack der)
    (hturns : Within (Fair host pemPath) turns) :
    ∀ act ∈ ((installCa crates host pemPath fp).contend turns w).acts, ∀ der ∈ tools.added act,
      crates.sha256 der = fp := by
  have hall : Withstands (Fair host pemPath) (Expected tools fp) (fun _ _ _ => True)
      (installCa crates host pemPath fp) 0 w := by
    cases host with
    | linux => exact withstands_installCaLinux hpem
    | macOs listing =>
      refine withstands_installCaMacos fun i hi hfair => ?_
      have := hfair.2 nofun
      omega
  exact (hall.contend (by simpa using hturns)).1

/-- The library's text of a certificate of two bytes. -/
def twoBytePem (base64 : String) : Str :=
  "-----BEGIN CERTIFICATE-----\r\n" ++ base64.toList ++ "\r\n-----END CERTIFICATE-----\r\n"

def ownCert : Bytes := [1, 2]

def ownFingerprint : CaFingerprint where
  bytes := [161, 40, 113, 254, 226, 16, 251, 134, 25, 41, 30, 174, 161, 148, 88, 28, 189, 37, 49,
    228, 178, 55, 89, 210, 37, 246, 128, 105, 35, 246, 50, 34]
  length_eq := rfl

def otherCert : Bytes := [3, 4]

def otherFingerprint : CaFingerprint where
  bytes := [12, 227, 148, 11, 235, 242, 178, 42, 93, 33, 8, 236, 240, 195, 104, 160, 84, 28, 126, 60,
    69, 112, 63, 133, 64, 146, 27, 78, 175, 200, 41, 71]
  length_eq := rfl

def twoCerts : CertCrates where
  parseMany data :=
    if data = utf8 (twoBytePem "AQI=") then some [⟨certificateTag, ownCert⟩]
    else if data = utf8 (twoBytePem "AwQ=") then some [⟨certificateTag, otherCert⟩]
    else none
  encode p := if p.contents = ownCert then twoBytePem "AQI=" else twoBytePem "AwQ="
  sha256 der := if der = ownCert then ownFingerprint else otherFingerprint
  subjectCommonName _ := none

def twoCertsTools : TrustTools twoCerts where
  certificatesIn data := (twoCerts.parseMany data).elim [] certsOf
  sound := by
    intro data blocks der hparse hder
    rwa [hparse] at hder

theorem readsBack_ownCert (h : twoCerts.sha256 der = ownFingerprint) : twoCerts.ReadsBack der := by
  by_cases hder : der = ownCert
  · subst hder
    show twoCerts.parseMany (utf8 (twoCerts.derToPem ownCert)) = some [⟨certificateTag, ownCert⟩]
    decide +kernel
  · have hsha : twoCerts.sha256 der = otherFingerprint := if_neg hder
    rw [hsha] at h
    exact absurd h (by decide)

def caPath : Str := "/run/user/1000/orcker/ca.pem"

def caWorld : World := ⟨(∅ : StrMap Bytes).insert caPath (utf8 (twoBytePem "AQI=")), []⟩

/-- Another certificate, right after the check has read the file. -/
def checkedTurns : List Turn := meddleAt 3 caPath (utf8 (twoBytePem "AwQ="))

theorem installs_fingerprint_linux :
    (((installCa twoCerts .linux caPath ownFingerprint).contend checkedTurns caWorld).acts.flatMap
      twoCertsTools.added = [ownCert]) ∧
    ∀ act ∈ ((installCa twoCerts .linux caPath ownFingerprint).contend checkedTurns caWorld).acts,
      ∀ der ∈ twoCertsTools.added act, twoCerts.sha256 der = ownFingerprint := by
  refine ⟨by decide +kernel, installs_fingerprint (fun _ h => readsBack_ownCert h) ?_⟩
  exact within_meddleAt _ ⟨rfl, fun h => absurd rfl h⟩

/-- The same on macOS: the certificate that was put there after the check becomes trusted. -/
theorem security_adds_other :
    ¬∀ turns, Within (fun _ path => path = caPath) turns →
      ∀ act ∈ ((installCa twoCerts (.macOs []) caPath ownFingerprint).contend turns caWorld).acts,
        ∀ der ∈ twoCertsTools.added act, twoCerts.sha256 der = ownFingerprint := by
  intro h
  have hadded : (((installCa twoCerts (.macOs []) caPath ownFingerprint).contend checkedTurns
      caWorld).acts.flatMap twoCertsTools.added).contains otherCert = true := by decide +kernel
  obtain ⟨act, hact, hder⟩ := mem_flatMap.1 (contains_iff_mem.1 hadded)
  exact absurd (h checkedTurns (within_meddleAt _ rfl) act hact otherCert hder) (by decide)

end Orcker.Helper
