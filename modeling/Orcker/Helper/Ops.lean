import Orcker.Base.Program
import Orcker.Core.Name

/-!
# Operations the privileged helper shares

Files are named by their absolute paths.
-/

namespace Orcker.Helper

open Base Program Orcker.Core

inductive ValidationReason where
  | pathNotAbsolute (path : Str)
  | pathMissing (path : Str)
  | pathNotFile (path : Str)
  | tldInvalid (raw : Str)
  | expectedSingleCertPem (count : Nat)
  | pemParseFailed
  | certNotOrckerOwned (foundCn : Option Str)
  | noAnchorDir
  | portInvalid (flag : Str)
  | lanIpInvalid
  deriving DecidableEq

/-- Why a call fails. -/
inductive HelperError where
  | validation (reason : ValidationReason)
  | fingerprintMismatch (expected actual : Str)
  | io (path : Str) (source : IoError)
  | command (tool : Str) (reason : CommandReason)
  | unsupported (operation : Str)
  | resolverPostcondition (reason : Str)
  deriving DecidableEq

/-- A refusal shows the text as it was given. -/
def requireValidTld (raw : Str) : Except HelperError Tld :=
  match Tld.new raw with
  | .ok tld => .ok tld
  | .error _ => .error (.validation (.tldInvalid raw))

/-- Run a command; what it prints is left out. -/
def runCommand (tool program : Str) (args : List Str) : Program (Except HelperError Unit) := do
  match ← command program args with
  | .ok () => return .ok ()
  | .error reason => return .error (.command tool reason)

/-- A file that is not text is an error. -/
def decodeText (data : Bytes) : Except IoError Str :=
  match fromUtf8 data with
  | some text => .ok text
  | none => .error (.other "stream did not contain valid UTF-8")

def readToString (path : Str) : Program (Except IoError Str) := do
  return (← readFile path).bind decodeText

def parentAndName (path : Str) : Str × Str := (rsplitOnce '/' path).getD ([], path)

/-- Beside the file, under a hidden name. -/
def tmpPath (path : Str) : Str :=
  (parentAndName path).1 ++ "/." ++ (parentAndName path).2 ++ ".orcker-tmp"

/-- Fill a temporary file beside the file, and rename it over the file. -/
def atomicWrite (path : Str) (data : Bytes) : Program (Except HelperError Unit) := do
  let parent := (parentAndName path).1
  let tmp := tmpPath path
  match ← prepareAt parent with
  | .error e => return .error (.io parent e)
  | .ok () =>
    match ← prepareAt tmp with
    | .error e => return .error (.io tmp e)
    | .ok () =>
      match ← writeFile path data with
      | .error e => return .error (.io path e)
      | .ok () => return .ok ()

/-- None of the three operations of an atomic write fails. -/
def writes (faults : List (Option Fault)) : Bool :=
  (fault faults).isNone && (fault faults.tail).isNone && (fault (faults.drop 2)).isNone

variable {faults : List (Option Fault)}

theorem exec_atomicWrite_of_writes (h : writes faults = true) (path : Str) (data : Bytes)
    (w : World) : (atomicWrite path data).exec faults w =
      ⟨[w, w, w], ⟨w.files.insert path data, w.deeds ++ [.wrote path data]⟩, .ok ()⟩ := by
  simp only [writes, Bool.and_eq_true, Option.isNone_iff_eq_none] at h
  obtain ⟨⟨h0, h1⟩, h2⟩ := h
  simp [atomicWrite, exec_bind, prepared, World.write, left, h0, h1, h2]

theorem exec_atomicWrite_of_not_writes (h : writes faults = false) (path : Str) (data : Bytes)
    (w : World) :
    (∃ error, ((atomicWrite path data).exec faults w).result = .error error) ∧
      ((atomicWrite path data).exec faults w).last = w := by
  unfold atomicWrite
  cases h0 : fault faults with
  | some f => simp [exec_bind, prepared, h0]
  | none =>
    cases h1 : fault faults.tail with
    | some f => simp [exec_bind, prepared, left, h0, h1]
    | none =>
      cases h2 : fault (faults.drop 2) with
      | some f => simp [exec_bind, prepared, left, World.write, h0, h1, h2]
      | none => simp [writes, h0, h1, h2] at h

/-- Was there anything to remove? -/
def removeIfPresent (path : Str) : Program (Except HelperError Bool) := do
  match ← removeFile path with
  | .ok () => return .ok true
  | .error .notFound => return .ok false
  | .error source => return .error (.io path source)

@[simp] theorem clean_atomicWrite (path : Str) (data : Bytes) (w : World) :
    clean (atomicWrite path data) w
      = (.ok (), ⟨w.files.insert path data, w.deeds ++ [.wrote path data]⟩) := by
  simp [atomicWrite]

@[simp] theorem exec_readToString (path : Str) (faults : List (Option Fault)) (w : World) :
    (readToString path).exec faults w = ⟨[w], w, (w.read (fault faults) path).bind decodeText⟩ := rfl

theorem toOption_read (w : World) (f : Option Fault) (path : Str) :
    ((w.read f path).bind decodeText).toOption =
      if f.isNone then w.files[path]?.bind fromUtf8 else none := by
  cases f with
  | some f => rfl
  | none =>
    cases hfile : w.files[path]? with
    | none => simp [World.read, hfile, Except.bind, Except.toOption]
    | some data =>
      cases htext : fromUtf8 data <;>
        simp [World.read, hfile, Except.bind, Except.toOption, decodeText, htext]

variable {path : Str}

theorem read_bind_decodeText {w : World} {f : Option Fault} {text : Str}
    (h : (w.read f path).bind decodeText = .ok text) : w.files[path]? = some (utf8 text) := by
  have hoption := toOption_read w f path
  rw [h] at hoption
  cases f with
  | some f => cases hoption
  | none =>
    obtain ⟨data, hdata, htext⟩ := Option.bind_eq_some_iff.1 hoption.symm
    rw [hdata, fromUtf8_eq_some_iff.1 htext]

variable {I : World → Prop} {w : World} {Q : Except HelperError Unit → World → Prop}

theorem always_atomicWrite {data : Bytes} (hI : I w)
    (hI' : I ⟨w.files.insert path data, w.deeds ++ [.wrote path data]⟩)
    (hok : Q (.ok ()) ⟨w.files.insert path data, w.deeds ++ [.wrote path data]⟩)
    (hfails : ∀ e, Q (.error e) w) : Always I Q (atomicWrite path data) w := by
  refine Always.bind (always_prepareAt hI fun r => ?_)
  cases r with
  | error e => exact always_pure hI (hfails _)
  | ok _ =>
    refine Always.bind (always_prepareAt hI fun r => ?_)
    cases r with
    | error e => exact always_pure hI (hfails _)
    | ok _ =>
      refine Always.bind (always_writeFile hI hI' ?_ fun e => ?_)
      · exact always_pure hI' hok
      · exact always_pure hI (hfails _)

theorem always_runCommand {tool program : Str} {args : List Str} (hI : I w)
    (hI' : I { w with deeds := w.deeds ++ [.ran program args] })
    (hok : Q (.ok ()) { w with deeds := w.deeds ++ [.ran program args] })
    (hfails : ∀ e, Q (.error e) w) : Always I Q (runCommand tool program args) w := by
  refine Always.bind (always_command hI hI' ?_ fun e => ?_)
  · exact always_pure hI' hok
  · exact always_pure hI (hfails _)

theorem always_readToString {Q : Except IoError Str → World → Prop} (hI : I w)
    (hok : ∀ text, w.files[path]? = some (utf8 text) → Q (.ok text) w)
    (habsent : w.files[path]? = none → Q (.error .notFound) w)
    (hfails : ∀ e, Q (.error (.other e)) w) : Always I Q (readToString path) w := by
  refine Always.bind (always_readFile hI (fun data hdata => ?_) (fun hnone => ?_) fun e => ?_)
  · cases htext : fromUtf8 data with
    | none =>
      simp only [Except.bind, decodeText, htext]
      exact always_pure hI (hfails _)
    | some text =>
      simp only [Except.bind, decodeText, htext]
      exact always_pure hI (hok text (fromUtf8_eq_some_iff.1 htext ▸ hdata))
  · exact always_pure hI (habsent hnone)
  · exact always_pure hI (hfails e)

theorem always_removeIfPresent {Q : Except HelperError Bool → World → Prop} (hI : I w)
    (hI' : I ⟨w.files.erase path, w.deeds ++ [.removed path]⟩)
    (hok : Q (.ok true) ⟨w.files.erase path, w.deeds ++ [.removed path]⟩)
    (habsent : path ∉ w.files → Q (.ok false) w) (hfails : ∀ e, Q (.error e) w) :
    Always I Q (removeIfPresent path) w := by
  refine Always.bind (always_removeFile hI (fun _ => hI') (fun _ => ?_) (fun hnone => ?_) fun e => ?_)
  · exact always_pure hI' hok
  · exact always_pure hI (habsent hnone)
  · exact always_pure hI (hfails _)

/-- Where a write stops: the system call fails, or the process ends there. -/
inductive WriteStop where
  | createDir
  | create
  | write (stored : Nat)
  | sync
  | rename

/-- `atomicWrite` with the temporary file that it leaves when it stops. -/
def writeThroughTmp (path : Str) (data : Bytes) (stop : Option (WriteStop × IoError))
    (files : StrMap Bytes) : Except HelperError Unit × StrMap Bytes :=
  let tmp := tmpPath path
  match stop with
  | some (.createDir, e) => (.error (.io (parentAndName path).1 e), files)
  | some (.create, e) => (.error (.io tmp e), files)
  | _ =>
    -- `create_new` refuses a file that is there.
    if tmp ∈ files then (.error (.io tmp (.other "File exists")), files)
    else
      match stop with
      | some (.write stored, e) => (.error (.io tmp e), files.insert tmp (data.take stored))
      | some (.sync, e) => (.error (.io tmp e), files.insert tmp data)
      | some (.rename, e) => (.error (.io path e), files.insert tmp data)
      | _ => (.ok (), ((files.insert tmp data).erase tmp).insert path data)

theorem tmpPath_ne (path : Str) : path ≠ tmpPath path := by
  intro h
  have hlength := congrArg List.length h
  unfold tmpPath parentAndName at hlength
  cases hs : rsplitOnce '/' path with
  | none =>
    simp [hs] at hlength
    omega
  | some p =>
    have hpath := congrArg List.length (rsplitOnce_eq_some_iff.1 hs).1
    simp [hs] at hlength hpath
    omega

/-- Where a write stops, as a fault of `atomicWrite`: filling the temporary file is one operation
there. -/
def WriteStop.fault (io : Str) : WriteStop → List (Option Fault)
  | createDir => [some ⟨io, .nonZero 1⟩]
  | create | write _ | sync => [none, some ⟨io, .nonZero 1⟩]
  | rename => [none, none, some ⟨io, .nonZero 1⟩]

/-- The two agree wherever no temporary file is left over, but for that file itself. -/
theorem writeThroughTmp_eq_atomicWrite {w : World} (htmp : tmpPath path ∉ w.files) (data : Bytes)
    (stop : Option (WriteStop × Str)) :
    let through := writeThroughTmp path data (stop.map fun s => (s.1, .other s.2)) w.files
    let e := (atomicWrite path data).exec ((stop.map fun s => s.1.fault s.2).getD []) w
    through.1 = e.result ∧
      ∀ other, other ≠ tmpPath path → through.2[other]? = e.last.files[other]? := by
  intro through e
  obtain _ | ⟨stop, io⟩ := stop
  · have hnone : writes [] = true := rfl
    have hwrites : e = _ := exec_atomicWrite_of_writes hnone path data w
    simp only [through, writeThroughTmp, Option.map_none, htmp, if_false, hwrites, true_and,
      OrdMap.getElem?_insert, OrdMap.getElem?_erase]
    intro other hother
    rw [if_neg hother, if_neg hother]
  · have hstops : writes (stop.fault io) = false := by cases stop <;> rfl
    have hlast : e.last = w := (exec_atomicWrite_of_not_writes hstops path data w).2
    rw [hlast]
    have hleft (data : Bytes) (other : Str) (hother : other ≠ tmpPath path) :
        (w.files.insert (tmpPath path) data)[other]? = w.files[other]? := by
      rw [OrdMap.getElem?_insert, if_neg hother]
    cases stop with
    | createDir | create => exact ⟨rfl, fun _ _ => rfl⟩
    | write | sync | rename =>
      simp only [through, writeThroughTmp, Option.map_some, htmp, if_false]
      exact ⟨rfl, hleft _⟩

theorem retries_iff {files : StrMap Bytes} {data : Bytes} :
    (∃ last, writeThroughTmp path data none files = (.ok (), last) ∧ last[path]? = some data) ↔
      tmpPath path ∉ files := by
  by_cases h : tmpPath path ∈ files <;> simp [writeThroughTmp, h]

/-- A write that stops can be tried again exactly when no temporary file was there, and it stopped
before it made one. -/
theorem write_retry_iff (files after : StrMap Bytes) (path : Str) (data data' : Bytes)
    (stop : Option (WriteStop × IoError)) (e : HelperError)
    (hstops : writeThroughTmp path data stop files = (.error e, after)) :
    (after[path]? = files[path]? ∧ ∃ last,
        writeThroughTmp path data' none after = (.ok (), last) ∧ last[path]? = some data') ↔
      tmpPath path ∉ files ∧
        ∃ source, stop = some (.createDir, source) ∨ stop = some (.create, source) := by
  have hleft (data : Bytes) : (files.insert (tmpPath path) data)[path]? = files[path]? := by
    rw [OrdMap.getElem?_insert, if_neg (tmpPath_ne path)]
  rw [retries_iff]
  unfold writeThroughTmp at hstops
  split at hstops
  · cases hstops
    simp
  · cases hstops
    simp
  · rename_i hdir hcreate
    simp only at hstops
    split at hstops
    · rename_i htmp
      cases hstops
      simp [htmp]
    · split at hstops
      all_goals cases hstops
      all_goals simp [hleft]

/-- The disk is full: the file that is left stops every later write. -/
theorem write_retry_full :
    let full := writeThroughTmp "/etc/resolver/test" [1] (some (.write 0, .other "ENOSPC")) ∅
    (writeThroughTmp "/etc/resolver/test" [1] none full.2).1
      = .error (.io "/etc/resolver/.test.orcker-tmp" (.other "File exists")) := by
  decide +kernel

theorem write_retry_create :
    ∃ last, writeThroughTmp "/etc/resolver/test" [1] none ∅ = (.ok (), last) ∧
      last["/etc/resolver/test".toList]? = some [1] :=
  ((write_retry_iff ∅ ∅ "/etc/resolver/test" [2] [1] (some (.create, .notFound)) _ rfl).2
    ⟨by simp, _, .inr rfl⟩).2

end Orcker.Helper
