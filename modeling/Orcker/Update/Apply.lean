import Orcker.Base.Contested
import Orcker.Base.Path
import Orcker.Helper.Ops
import Orcker.Update.Artifact

/-!
# Applying a staged update

The staged path is the user's, and may be written by another process at any time.
-/

namespace Orcker.Update

open Base Program Helper

/-! ## Errors -/

inductive ApplyError where
  /-- A file operation, with what the message says first. -/
  | io (context : Str) (source : IoError)
  | verify (e : VerifyError)
  | spawn (program : Str) (reason : CommandReason)
  | text (message : Str)
  deriving DecidableEq

/-- How the applier fails; the exit code is 1 either way. -/
inductive RunError where
  | verification (e : ApplyError)
  | update (e : ApplyError)
  deriving DecidableEq

/-! ## The system -/

inductive Os where
  | linux
  | macOs
  | other
  deriving DecidableEq

/-- A process of `orcker`: whose it is, and what it calls its temporary directory. -/
structure Proc where
  root : Bool
  tempDir : Str
  uniqueSuffix : Str

structure ApplyEnv where
  os : Os
  self : Proc
  /-- The process that `pkexec` starts. -/
  elevated : Proc
  currentExe : Except Str Str
  publicKey : Str
  verifyMinisign : Str → Str → Bytes → Except VerifyError Unit
  /-- What a package tool that fails has written to stderr and to stdout. -/
  output : Bytes × Bytes
  /-- What the archive unpacks into the staging directory. -/
  unpacked : List Str

/-! ## Package tools -/

inductive PackageTool where
  | dpkg
  | pacman
  | rpm
  deriving DecidableEq

namespace PackageTool

def program : PackageTool → Str
  | dpkg => "dpkg"
  | pacman => "pacman"
  | rpm => "rpm"

/-- The arguments in front of the package. -/
def args : PackageTool → List Str
  | dpkg => ["-i"]
  | pacman => ["-U", "--noconfirm"]
  | rpm => ["-U", "--oldpackage", "--replacepkgs".toList]

/-- How messages and the copy call the package. -/
def suffix : PackageTool → Str
  | dpkg => ".deb"
  | pacman => ".pkg.tar.zst"
  | rpm => ".rpm"

/-- The argument that makes `orcker` the elevated installer. -/
def sentinel : PackageTool → Str
  | dpkg => "__orcker-install-deb"
  | pacman => "__orcker-install-pacman"
  | rpm => "__orcker-install-rpm"

/-- What is said of a tool that fails: `dpkg` writes to the terminal itself, the others' words are
passed on. -/
def failure (t : PackageTool) (output : Bytes × Bytes) : Str :=
  let message := t.program ++ " failed to install the new package"
  match t with
  | dpkg => message
  | pacman | rpm =>
    let stderr := trim (lossy output.1)
    let detail := if stderr.isEmpty then trim (lossy output.2) else stderr
    if detail.isEmpty then message else message ++ ": " ++ detail

def all : List PackageTool := [dpkg, pacman, rpm]

end PackageTool

/-! ## Checking -/

def siblingMinisig (staged : Str) : Str :=
  let path := Path.ofStr staged
  let name : Path := ⟨path.fileName.getD [] ++ utf8 ".minisig"⟩
  let dir := if path.fileName.isSome then path.parent.getD path else path
  (dir.join name).toStringLossy

/-- Read the artifact and its signature, and check the one against the other; what was read is what
is returned. -/
def readVerified (env : ApplyEnv) (noun staged : Str) : Program (Except ApplyError Bytes) := do
  match ← readFile staged with
  | .error e => return .error (.io ("reading staged " ++ noun) e)
  | .ok bytes =>
    let sigPath := siblingMinisig staged
    match ← readToString sigPath with
    | .error e => return .error (.io ("reading signature " ++ sigPath) e)
    | .ok sig =>
      match env.verifyMinisign env.publicKey sig bytes with
      | .error e => return .error (.verify e)
      | .ok () => return .ok bytes

/-- The signature beside the file. -/
def reverify (env : ApplyEnv) (staged : Str) : Program (Except ApplyError Unit) := do
  return (← readVerified env "artifact" staged).map fun _ => ()

/-! ## Linux -/

/-- The directory the installer makes for its copy, for root alone. -/
def Proc.installDir (p : Proc) : Str := p.tempDir ++ "/orcker-update-" ++ p.uniqueSuffix

def installCopy (env : ApplyEnv) (t : PackageTool) (pkg : Str) (bytes : Bytes) :
    Program (Except ApplyError Unit) := do
  match ← writeFile pkg bytes with
  | .error e => return .error (.io ("writing verified " ++ t.suffix) e)
  | .ok () =>
    -- The copy's mode; the result is ignored.
    let _ ← prepareAt pkg
    match ← command t.program (t.args ++ [pkg]) with
    | .ok () => return .ok ()
    | .error (.nonZero _) | .error .signal => return .error (.text (t.failure env.output))
    | .error reason => return .error (.spawn t.program reason)

/-- Reads the file again, checks what it has read, and hands a copy of exactly that to the package
tool. -/
def elevatedInstall (env : ApplyEnv) (p : Proc) (t : PackageTool) (staged : Str) :
    Program (Except ApplyError Unit) := do
  if !p.root then return .error (.text "the elevated installer must run as root")
  else
    match ← readVerified env t.suffix staged with
    | .error e => return .error e
    | .ok bytes =>
      match ← prepareAt p.installDir with
      | .error e => return .error (.io "creating secure install dir" e)
      | .ok () =>
        let pkg := p.installDir ++ "/update" ++ t.suffix
        let installed ← installCopy env t pkg bytes
        let _ ← removeFile pkg
        return installed

def applyLinux (env : ApplyEnv) (t : PackageTool) (staged : Str) :
    Program (Except ApplyError Unit) := do
  if env.self.root then elevatedInstall env env.self t staged
  else
    match env.currentExe with
    | .error e => return .error (.text ("current_exe: " ++ e))
    | .ok exe =>
      let refused := ApplyError.text "privileged install (pkexec) failed or was cancelled"
      match ← command "pkexec" [exe, t.sentinel, staged] with
      | .error (.nonZero _) | .error .signal => return .error refused
      | .error reason => return .error (.spawn "pkexec" reason)
      | .ok () =>
        -- The installer is a process of its own; all that comes back is its exit code.
        return (← elevatedInstall env env.elevated t staged).mapError fun _ => refused

/-! ## macOS -/

def isDotApp (path : Path) : Bool := path.extension == some (utf8 "app")

/-- The bundle the program runs from, three directories up. -/
def bundleOf (exe : Str) : Option Path :=
  (((Path.ofStr exe).parent.bind Path.parent).bind Path.parent).filter isDotApp

/-- A rename from one to the other would be atomic. -/
def sameVolume (a b : Str) : Program (Except ApplyError Unit) := do
  match ← prepareAt a with
  | .error e => return .error (.io ("stat " ++ a) e)
  | .ok () =>
    match ← prepareAt b with
    | .error e => return .error (.io ("stat " ++ b) e)
    | .ok () =>
      if ← passes b then return .ok ()
      else return .error (.text "staging directory is on a different volume than the app")

def findSingleDotApp (env : ApplyEnv) (stage : Str) : Program (Except ApplyError Str) := do
  match ← prepareAt stage with
  | .error e => return .error (.io "reading staging dir" e)
  | .ok () =>
    match env.unpacked.filter fun name => isDotApp (.ofStr name) with
    | [] => return .error (.text "the update archive contained no .app bundle")
    | [name] => return .ok (stage ++ '/' :: name)
    | _ => return .error (.text "update archive contained more than one .app bundle")

/-- Unpack the archive and put the new bundle in place of the old one. -/
def unpackAndSwap (env : ApplyEnv) (staged parent stage : Str) : Program (Except ApplyError Unit) :=
  do
  match ← sameVolume parent stage with
  | .error e => return .error e
  | .ok () =>
    match ← command "tar" ["-xpf", staged, "-C", stage] with
    | .error (.nonZero _) | .error .signal =>
      return .error (.text "extracting the update archive failed")
    | .error reason => return .error (.spawn "tar" reason)
    | .ok () =>
      match ← findSingleDotApp env stage with
      | .error e => return .error e
      | .ok newApp =>
        match ← prepareAt newApp with
        | .error e => return .error (.io "swapping bundle" e)
        | .ok () => return .ok ()

/-- Here `tar` reads the staged path a second time, after the check. -/
def applyMacos (env : ApplyEnv) (staged : Str) : Program (Except ApplyError Unit) := do
  match env.currentExe with
  | .error e => return .error (.text ("current_exe: " ++ e))
  | .ok exe =>
    match bundleOf exe with
    | none => return .error (.text "not running from an .app bundle (dev build?)")
    | some bundle =>
      if !bundle.startsWith (.ofStr "/Applications/") then
        return .error (.text ("Orcker must be in /Applications to self-update (it is at " ++
          bundle.toStringLossy ++ "); move it there first"))
      else
        match bundle.parent with
        | none => return .error (.text "bundle has no parent dir")
        | some dir =>
          let parent := dir.toStringLossy
          if !(← passes parent) then
            return .error (.text (parent ++
              (" is not writable by you; elevated self-update is not " ++
                "yet wired — reinstall from the .dmg")))
          else
            let stage := parent ++ "/.orcker-staging-" ++ env.self.uniqueSuffix
            match ← prepareAt stage with
            | .error e => return .error (.io ("creating staging dir " ++ stage) e)
            | .ok () => unpackAndSwap env staged parent stage

/-! ## The applier -/

def ArtifactKind.install (env : ApplyEnv) (staged : Str) :
    ArtifactKind → Program (Except ApplyError Unit)
  | .appTarGz =>
    if env.os = .macOs then applyMacos env staged
    else return .error (.text "a macOS .app bundle cannot be installed on this platform")
  | .deb =>
    if env.os = .linux then applyLinux env .dpkg staged
    else return .error (.text "a .deb package cannot be installed on this platform")
  | .pacman =>
    if env.os = .linux then applyLinux env .pacman staged
    else return .error (.text "an Arch .pkg.tar.zst cannot be installed on this platform")
  | .rpm =>
    if env.os = .linux then applyLinux env .rpm staged
    else return .error (.text "a Fedora .rpm cannot be installed on this platform")

/-- Checks the signature of the staged file and installs it. -/
def run (env : ApplyEnv) (staged : Str) (kind : ArtifactKind) : Program (Except RunError Unit) := do
  match ← reverify env staged with
  | .error e => return .error (.verification e)
  | .ok () => return (← kind.install env staged).mapError .update

/-! ## What is installed -/

/-- The key's owner has signed these bytes, as far as the check can tell. -/
def ApplyEnv.Accepts (env : ApplyEnv) (bytes : Bytes) : Prop :=
  ∃ sig, env.verifyMinisign env.publicKey sig bytes = .ok ()

/-- The package or the archive that a command was given, as it found it. -/
def handed : Act → Option Bytes
  | .wrote .. => none
  | .ran program args files =>
    if PackageTool.all.any (·.program == program) then args.getLast?.bind (files[·]?)
    else if program = "tar" then args[1]?.bind (files[·]?)
    else none

/-- The path lies in the directory of the process, which is root's alone. -/
def Proc.Owns (p : Proc) (path : Str) : Prop := p.installDir ++ ['/'] <+: path

/-- Where the other process can write: the artifact and its signature, but not in a directory that
is root's alone. -/
def Exposed (env : ApplyEnv) (staged path : Str) : Prop :=
  (path = staged ∨ path = siblingMinisig staged) ∧ ¬env.self.Owns path ∧ ¬env.elevated.Owns path

/-- What is handed to an installer is signed. -/
def Checked (env : ApplyEnv) (act : Act) : Prop := ∀ bytes, handed act = some bytes → env.Accepts bytes

theorem checked_of_handed_eq_none {env : ApplyEnv} {act : Act} (h : handed act = none) :
    Checked env act := by
  intro bytes hbytes
  rw [h] at hbytes
  cases hbytes

theorem handed_packageTool (t : PackageTool) (pkg : Str) (files : StrMap Bytes) :
    handed (.ran t.program (t.args ++ [pkg]) files) = files[pkg]? := by
  have htool : PackageTool.all.any (·.program == t.program) = true := by cases t <;> decide
  rw [handed, if_pos htool, List.getLast?_concat, Option.bind_some]

theorem handed_tar (archive stage : Str) (files : StrMap Bytes) :
    handed (.ran "tar" ["-xpf", archive, "-C", stage] files) =
      files[archive]? := by
  have htar : PackageTool.all.any (·.program == "tar") = false := by decide
  rw [handed, htar, if_neg Bool.false_ne_true, if_pos rfl]
  rfl

section Runs

variable {env : ApplyEnv} {reach : Nat → Str → Prop} {staged : Str} {n : Nat} {w : World}

theorem withstands_readVerified {noun : Str} {Q : Except ApplyError Bytes → Nat → World → Prop}
    (hok : ∀ (bytes : Bytes) (w₁ w₂ : World), env.Accepts bytes → w₁.files[staged]? = some bytes →
      w₁.Beside (reach (n + 1)) w₂ → Q (.ok bytes) (n + 2) w₂)
    (herror : ∀ e n w, Q (.error e) n w) :
    Withstands reach (Checked env) Q (readVerified env noun staged) n w := by
  refine .bind (withstands_readFile fun w₁ _ => ⟨fun bytes hbytes => ?_, fun e => herror _ _ _⟩)
  refine .bind (.bind (withstands_readFile fun w₂ hw₂ => ⟨fun data _ => ?_, fun e => herror _ _ _⟩))
  refine withstands_pure ?_
  cases htext : decodeText data with
  | error e =>
    simp only [Except.bind, htext]
    exact herror _ _ _
  | ok sig =>
    simp only [Except.bind, htext]
    cases hverify : env.verifyMinisign env.publicKey sig bytes with
    | error e => exact herror _ _ _
    | ok _ => exact hok bytes w₁ w₂ ⟨sig, hverify⟩ hbytes hw₂

variable {t : PackageTool}

theorem withstands_installCopy {pkg : Str} {bytes : Bytes} (hbytes : env.Accepts bytes)
    (hpkg : ∀ i, ¬reach i pkg) :
    Withstands reach (Checked env) (fun _ _ _ => True) (installCopy env t pkg bytes) n w := by
  refine .bind (withstands_writeFile (checked_of_handed_eq_none rfl) fun w₁ _ => ⟨?_, fun e => trivial⟩)
  refine .bind (withstands_prepareAt fun w₂ hw₂ _ => ?_)
  refine .bind (withstands_command (fun w₃ hw₃ => ?_) fun w₃ _ r _ => ?_)
  · intro found hfound
    rw [handed_packageTool, hw₃ pkg (hpkg _), hw₂ pkg (hpkg _), OrdMap.getElem?_insert,
      if_pos rfl, Option.some.injEq] at hfound
    exact hfound ▸ hbytes
  · rcases r with (_ | _ | _ | _) | _ <;> trivial

theorem withstands_elevatedInstall {p : Proc} (hp : ∀ i path, reach i path → ¬p.Owns path) :
    Withstands reach (Checked env) (fun _ _ _ => True) (elevatedInstall env p t staged) n w := by
  unfold elevatedInstall
  split
  · trivial
  refine .bind (withstands_readVerified (fun bytes _ _ hbytes _ _ => ?_) fun _ _ _ => trivial)
  refine .bind (withstands_prepareAt fun _ _ r => ?_)
  cases r with
  | error e => trivial
  | ok _ =>
    have hpkg : p.Owns (p.installDir ++ "/update" ++ t.suffix) :=
      ⟨"update" ++ t.suffix, by simp⟩
    refine .bind (.mono (withstands_installCopy hbytes fun i h => hp i _ h hpkg) fun _ _ _ _ => ?_)
    exact .bind (withstands_removeFile fun _ _ => trivial)

theorem withstands_applyLinux (hexposed : ∀ i path, reach i path → Exposed env staged path) :
    Withstands reach (Checked env) (fun _ _ _ => True) (applyLinux env t staged) n w := by
  unfold applyLinux
  split
  · exact withstands_elevatedInstall fun i path h => (hexposed i path h).2.1
  split
  · trivial
  refine .bind (withstands_command (fun _ _ => checked_of_handed_eq_none rfl) fun _ _ r _ => ?_)
  rcases r with (_ | _ | _ | _) | _
  · trivial
  · trivial
  · trivial
  · trivial
  · refine .bind (.mono (withstands_elevatedInstall fun i path h => ?_) fun _ _ _ _ => trivial)
    exact (hexposed i path h).2.2

/-- Whatever is staged is signed. -/
def Held (env : ApplyEnv) (staged : Str) (w : World) : Prop :=
  ∀ data, w.files[staged]? = some data → env.Accepts data

theorem Held.beside {P : Str → Prop} {w' : World} (h : Held env staged w) (hP : ¬P staged)
    (hw' : w.Beside P w') : Held env staged w' := by
  intro data hdata
  rw [hw' staged hP] at hdata
  exact h data hdata

theorem withstands_sameVolume {a b : Str} (hheld : Held env staged w)
    (hreach : ∀ i, n ≤ i → ¬reach i staged) :
    Withstands reach (Checked env) (fun _ m w => n ≤ m ∧ Held env staged w) (sameVolume a b) n w := by
  refine .bind (withstands_prepareAt fun w₁ hw₁ r => ?_)
  have hheld₁ := hheld.beside (hreach n (by omega)) hw₁
  cases r with
  | error e => exact ⟨by omega, hheld₁⟩
  | ok _ =>
    refine .bind (withstands_prepareAt fun w₂ hw₂ r => ?_)
    have hheld₂ := hheld₁.beside (hreach _ (by omega)) hw₂
    cases r with
    | error e => exact ⟨by omega, hheld₂⟩
    | ok _ =>
      refine .bind (withstands_passes fun w₃ hw₃ answer => ?_)
      have hheld₃ := hheld₂.beside (hreach _ (by omega)) hw₃
      cases answer with
      | false | true => exact ⟨by omega, hheld₃⟩

theorem withstands_findSingleDotApp {stage : Str} :
    Withstands reach (Checked env) (fun _ _ _ => True) (findSingleDotApp env stage) n w := by
  refine .bind (withstands_prepareAt fun _ _ r => ?_)
  cases r with
  | error e => trivial
  | ok _ =>
    simp only
    split <;> trivial

theorem withstands_unpackAndSwap {parent stage : Str} (hheld : Held env staged w)
    (hreach : ∀ i, n ≤ i → ¬reach i staged) :
    Withstands reach (Checked env) (fun _ _ _ => True) (unpackAndSwap env staged parent stage) n w := by
  refine .bind (.mono (withstands_sameVolume hheld hreach) ?_)
  rintro (e | _) m w₁ ⟨hm, hheld₁⟩
  · trivial
  refine .bind (withstands_command (fun w₂ hw₂ => ?_) fun _ _ r _ => ?_)
  · intro data hdata
    rw [handed_tar] at hdata
    exact hheld₁.beside (hreach m hm) hw₂ data hdata
  · rcases r with (_ | _ | _ | _) | _
    · trivial
    · trivial
    · trivial
    · trivial
    · refine .bind (.mono withstands_findSingleDotApp ?_)
      rintro (e | newApp) _ _ -
      · trivial
      · refine .bind (withstands_prepareAt fun _ _ r => ?_)
        cases r <;> trivial

theorem withstands_applyMacos (hheld : Held env staged w)
    (hreach : ∀ i, n ≤ i → ¬reach i staged) :
    Withstands reach (Checked env) (fun _ _ _ => True) (applyMacos env staged) n w := by
  unfold applyMacos
  split
  · trivial
  split
  · trivial
  split
  · trivial
  split
  · trivial
  refine .bind (withstands_passes fun w₁ hw₁ answer => ?_)
  have hheld₁ := hheld.beside (hreach n (by omega)) hw₁
  cases answer with
  | false => trivial
  | true =>
    refine .bind (withstands_prepareAt fun w₂ hw₂ r => ?_)
    have hheld₂ := hheld₁.beside (hreach _ (by omega)) hw₂
    cases r with
    | error e => trivial
    | ok _ => exact withstands_unpackAndSwap hheld₂ fun i hi => hreach i (by omega)

/-- What the other process may write at turn `i`: what is exposed to it, but for an archive not the
artifact once the applier has read it, at turn 0. -/
def Fair (env : ApplyEnv) (staged : Str) (kind : ArtifactKind) (i : Nat) (path : Str) : Prop :=
  Exposed env staged path ∧ (kind = .appTarGz → 0 < i → path ≠ staged)

theorem withstands_run {kind : ArtifactKind} :
    Withstands (Fair env staged kind) (Checked env) (fun _ _ _ => True) (run env staged kind) 0 w := by
  have hlinux : ∀ t n w, Withstands (Fair env staged kind) (Checked env) (fun _ _ _ => True)
      (applyLinux env t staged) n w :=
    fun t n w => withstands_applyLinux fun i path h => h.1
  refine .bind (.bind (withstands_readVerified (fun bytes w₁ w₂ hbytes hfile hw₂ => ?_)
    fun _ _ _ => trivial))
  refine .bind (.mono (Q := fun _ _ _ => True) ?_ fun _ _ _ _ => trivial)
  cases kind with
  | appTarGz =>
    rw [ArtifactKind.install]
    split
    · have hreach : ∀ i, 0 < i → ¬Fair env staged .appTarGz i staged :=
        fun i hi h => h.2 rfl hi rfl
      have hheld : Held env staged w₁ := by
        intro data hdata
        rw [hfile, Option.some.injEq] at hdata
        exact hdata ▸ hbytes
      exact withstands_applyMacos (hheld.beside (hreach 1 (by omega)) hw₂)
        fun i hi => hreach i (by omega)
    · trivial
  | deb | pacman | rpm =>
    rw [ArtifactKind.install]
    split
    · exact hlinux _ _ _
    · trivial

end Runs

/-- In every interleaving with a process that writes the staged file and its signature, an archive's
file not after the applier has read it: what the package tools and `tar` are handed has been
accepted by the check. -/
theorem installs_verified {env : ApplyEnv} {staged : Str} {kind : ArtifactKind} {turns : List Turn}
    {w : World} (hturns : Within (Fair env staged kind) turns) :
    ∀ act ∈ ((run env staged kind).contend turns w).acts, ∀ bytes, handed act = some bytes →
      env.Accepts bytes :=
  (withstands_run.contend (by simpa using hturns)).1

/-! ### Two runs -/

/-- A system on which the one byte `1` is signed and nothing else. -/
def signedOne (os : Os) : ApplyEnv where
  os
  self := ⟨false, "/tmp", "100-5-0"⟩
  elevated := ⟨true, "/tmp", "101-7-0"⟩
  currentExe := .ok "/Applications/Orcker.app/Contents/MacOS/orcker"
  publicKey := "key"
  verifyMinisign _ _ bytes := if bytes = [1] then .ok () else .error .signatureMismatch
  output := ([], [])
  unpacked := ["Orcker.app"]

def stagedPath : Str := "/cache/update/Orcker.pkg"

def stagedWorld : World :=
  ⟨OrdMap.collect [(stagedPath, [1]), (siblingMinisig stagedPath, utf8 "sig")], []⟩

/-- Another package, right after the elevated installer has read the artifact. -/
def debTurns : List Turn := meddleAt 4 stagedPath [2]

/-- Another archive, when `tar` is about to read it. -/
def tarTurns : List Turn := meddleAt 7 stagedPath [2]

theorem exposed_stagedPath (os : Os) : Exposed (signedOne os) stagedPath stagedPath := by
  refine ⟨.inl rfl, ?_, ?_⟩
  · show ¬("/tmp/orcker-update-100-5-0/" <+: stagedPath)
    decide
  · show ¬("/tmp/orcker-update-101-7-0/" <+: stagedPath)
    decide

theorem not_accepts_signedOne (os : Os) : ¬(signedOne os).Accepts [2] := by
  rintro ⟨sig, hsig⟩
  cases hsig

/-- The package the elevated installer has checked is the one that `dpkg` gets, although the staged
file is replaced right after it was read. -/
theorem installs_verified_deb :
    (((run (signedOne .linux) stagedPath .deb).contend debTurns stagedWorld).acts.filterMap
      handed = [[1]]) ∧
    ∀ act ∈ ((run (signedOne .linux) stagedPath .deb).contend debTurns stagedWorld).acts,
      ∀ bytes, handed act = some bytes → (signedOne .linux).Accepts bytes := by
  refine ⟨by decide +kernel, installs_verified (within_meddleAt _ ⟨exposed_stagedPath _, ?_⟩)⟩
  rintro ⟨⟩

/-- An archive that is replaced between the check and `tar` is unpacked unchecked. -/
theorem tar_extracts_unverified :
    ¬∀ turns, Within (fun _ => Exposed (signedOne .macOs) stagedPath) turns →
      ∀ act ∈ ((run (signedOne .macOs) stagedPath .appTarGz).contend turns stagedWorld).acts,
        ∀ bytes, handed act = some bytes → (signedOne .macOs).Accepts bytes := by
  intro h
  have hhanded : (((run (signedOne .macOs) stagedPath .appTarGz).contend tarTurns
      stagedWorld).acts.filterMap handed).contains [2] = true := by decide +kernel
  obtain ⟨act, hact, hbytes⟩ := List.mem_filterMap.1 (List.contains_iff_mem.1 hhanded)
  exact not_accepts_signedOne _
    (h tarTurns (within_meddleAt _ (exposed_stagedPath _)) act hact [2] hbytes)

end Orcker.Update
