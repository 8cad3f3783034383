import Orcker.Helper.Ops
import Orcker.Helper.ResolverFile

/-!
# The macOS resolver file

A copy is taken whenever the file does not point at the new address, so an install that changes the
address of an earlier one keeps a copy of Orcker's own file, and that copy is then the latest.
-/

namespace Orcker.Helper.Mac

open Base Program Orcker.Core List Option Std.ExtTreeMap World

def resolverFilePath (tld : Str) : Str := "/etc/resolver/" ++ tld

def backupPath (name : Str) : Str := backupDir ++ "/" ++ name

/-- The file that is about to be replaced is copied to the directory of backups. A failure is
swallowed. -/
def macosBackUpExisting (tld : Str) (secs : Nat) (content : Bytes) : Program Unit := do
  match ← prepareAt backupDir with
  | .error _ => return
  | .ok () =>
    let _ ← prepareAt backupDir -- the mode of the directory
    let _ ← atomicWrite (backupPath (backupFilename tld secs)) content
    return

section

variable {Ip : Type} [DecidableEq Ip]

/-- `secs` is the clock's. -/
def installResolver (std : IpText Ip) (tld : Str) (addr : SocketAddr Ip) (secs : Nat) :
    Program (Except HelperError Unit) :=
  match requireValidTld tld with
  | .error e => return .error e
  | .ok t => do
    let dest := resolverFilePath t.text
    match (← readToString dest).toOption with
    | some existing =>
      if !pointsAt std existing addr then macosBackUpExisting t.text secs (utf8 existing)
    | none => pure ()
    atomicWrite dest (utf8 (compose std addr))

end

/-- Every backup for `tld` is deleted; failures are ignored. -/
def removeBackups (tld : Str) : List Str → Program Unit
  | [] => return
  | name :: names => do
    if (parseBackupSecs name tld).isSome then
      let _ ← removeFile (backupPath name)
    removeBackups tld names

section

variable {Ip : Type}

/-- Restore the latest backup: has one been restored? -/
def macosTryRestoreBackup (std : IpText Ip) (tld dest : Str) : Program (Except HelperError Bool) := do
  -- a directory that root owns
  if !(← passes backupDir) then return .ok false
  match ← readDir backupDir with
  | .error _ => return .ok false
  | .ok names =>
    match latestBackup names tld with
    | none => return .ok false
    | some latest =>
      match parseBackupSecs latest tld with
      | none => return .ok false
      | some secs =>
        let backup := backupPath (backupFilename tld secs)
        -- a regular file that root owns and nobody else may write
        if !(← passes backup) then return .ok false
        match ← readFile backup with
        | .error _ => return .ok false
        | .ok bytes =>
          if !restorable std (lossy bytes) then return .ok false
          match ← atomicWrite dest bytes with
          | .error e => return .error e
          | .ok () =>
            removeBackups tld names
            return .ok true

/-- Restores the latest copy, or removes the file. -/
def uninstallResolver (std : IpText Ip) (tld : Str) : Program (Except HelperError Unit) :=
  match requireValidTld tld with
  | .error e => return .error e
  | .ok t => do
    let path := resolverFilePath t.text
    match ← macosTryRestoreBackup std t.text path with
    | .error e => return .error e
    | .ok true => return .ok ()
    | .ok false =>
      match ← removeFile path with
      | .ok () => return .ok ()
      | .error .notFound => return .ok ()
      | .error source => return .error (.io path source)

end

/-! ## Sequences of installs -/

/-- One call of `install_resolver`: the clock it reads, and which of its operations fail. -/
structure Install (Ip : Type) where
  addr : SocketAddr Ip
  secs : UInt64
  faults : List (Option Fault)

/-- None of the operations that copy the old file fails; setting the mode of the directory, the
second, does not count. -/
def copies (faults : List (Option Fault)) : Bool :=
  (fault faults).isNone && writes (faults.drop 2)

/-- The install reads the old file and copies it, when it has to. -/
def Install.keepsOld {Ip : Type} (c : Install Ip) : Bool :=
  (fault c.faults).isNone && copies c.faults.tail

section

variable {Ip : Type} [DecidableEq Ip]

/-- Installs one after another, each of them with success. -/
def installAll (std : IpText Ip) (tld : Str) : List (Install Ip) → World → Option World
  | [], w => some w
  | c :: cs, w =>
    let e := (installResolver std tld c.addr c.secs.toNat).exec c.faults w
    match e.result with
    | .ok () => installAll std tld cs e.last
    | .error _ => none

/-! ## Two cells -/

/-- The file, and the copy that would be restored. -/
structure Cells where
  file : Option Bytes
  copy : Option Bytes

/-- The file is another resolver's, and is copied. -/
def Cells.replaces (std : IpText Ip) (s : Cells) (c : Install Ip) : Bool :=
  (s.file.bind fromUtf8).any (!pointsAt std · c.addr) && c.keepsOld

/-- Replaces the file and keeps a copy of what it replaces. -/
def Cells.install (std : IpText Ip) (s : Cells) (c : Install Ip) : Cells :=
  ⟨some (utf8 (compose std c.addr)), if s.replaces std c then s.file else s.copy⟩

/-- The file after an uninstall. -/
def Cells.uninstalled (std : IpText Ip) (s : Cells) : Option Bytes :=
  s.copy.filter fun bytes => restorable std (lossy bytes)

end

/-- The directory has backups for `t` only, all of them from before `bound`; the latest is
`copy`. -/
structure Backups (t : Tld) (bound : Nat) (files : StrMap Bytes) (copy : Option Bytes) : Prop where
  stamped : ∀ name, '/' ∉ name → backupPath name ∈ files →
    ∃ secs : UInt64, secs.toNat < bound ∧ name = backupFilename t.text secs.toNat
  noCopy : copy = none → ∀ name, '/' ∉ name → backupPath name ∉ files
  latest : ∀ data, copy = some data → ∃ secs : UInt64,
    files[backupPath (backupFilename t.text secs.toNat)]? = some data ∧
      ∀ other : UInt64, backupPath (backupFilename t.text other.toNat) ∈ files → other ≤ secs

/-- The files of the TLD show the two cells. -/
structure Represents (t : Tld) (bound : Nat) (files : StrMap Bytes) (s : Cells) : Prop where
  file : files[resolverFilePath t.text]? = s.file
  backups : Backups t bound files s.copy

/-! ### Paths -/

theorem slash_notMem_backupFilename (t : Tld) (secs : Nat) :
    '/' ∉ backupFilename t.text secs := by
  have htext : '/' ∉ t.text := fun h => absurd (t.text_chars _ h) (by decide)
  have hsecs : '/' ∉ decimal secs := notMem_decimal (by decide)
  simp [backupFilename, htext, hsecs]

theorem backupPath_ne_resolverFilePath (name tld : Str) :
    backupPath name ≠ resolverFilePath tld := by
  intro h
  unfold backupPath backupDir resolverFilePath at h
  -- the second characters differ
  simp at h

theorem backupPath_injective : Function.Injective backupPath := fun _ _ h =>
  append_cancel_left h

theorem parseBackupSecs_uint64 (tld : Str) (secs : UInt64) :
    parseBackupSecs (backupFilename tld secs.toNat) tld = some secs.toNat :=
  parseBackupSecs_backupFilename tld (by have := secs.toNat_lt; simp only [u64Max]; omega)

theorem backupFilename_injective {tld : Str} {a b : UInt64}
    (h : backupFilename tld a.toNat = backupFilename tld b.toNat) : a = b := by
  have := parseBackupSecs_uint64 tld a
  rw [h, parseBackupSecs_uint64] at this
  exact UInt64.toNat_inj.1 (some.inj this).symm

/-! ### The programs -/

variable {w : World}

theorem files_atomicWrite {path : Str} {data : Bytes} {faults : List (Option Fault)}
    (hok : ((atomicWrite path data).exec faults w).result = .ok ()) :
    ((atomicWrite path data).exec faults w).last.files = w.files.insert path data := by
  cases hwrites : writes faults with
  | true => rw [exec_atomicWrite_of_writes hwrites]
  | false =>
    obtain ⟨⟨error, herror⟩, -⟩ := exec_atomicWrite_of_not_writes hwrites path data w
    rw [herror] at hok
    cases hok

theorem files_macosBackUpExisting (tld : Str) (secs : Nat) (content : Bytes)
    (faults : List (Option Fault)) (w : World) :
    ((macosBackUpExisting tld secs content).exec faults w).last.files =
      if copies faults then w.files.insert (backupPath (backupFilename tld secs)) content
      else w.files := by
  unfold copies macosBackUpExisting
  cases h0 : fault faults with
  | some f => simp [exec_bind, prepared, h0]
  | none =>
    simp only [exec_bind, exec_prepareAt, prepared, h0, elim_none, left, length_cons,
      length_nil, isNone_none, Bool.true_and]
    cases hwrites : writes (faults.drop 2) with
    | true => simp [exec_atomicWrite_of_writes, hwrites]
    | false =>
      obtain ⟨-, hlast⟩ := exec_atomicWrite_of_not_writes hwrites
        (backupPath (backupFilename tld secs)) content w
      simp [hlast]

section

variable {Ip : Type} [DecidableEq Ip] {std : IpText Ip} {raw : Str} {t : Tld} {c : Install Ip}
  {w : World}

theorem files_installResolver (hraw : Tld.new raw = .ok t)
    (hok : ((installResolver std raw c.addr c.secs.toNat).exec c.faults w).result = .ok ()) :
    let s : Cells := ⟨w.files[resolverFilePath t.text]?, none⟩
    ((installResolver std raw c.addr c.secs.toNat).exec c.faults w).last.files =
      (if s.replaces std c then
        w.files.insert (backupPath (backupFilename t.text c.secs.toNat)) (s.file.getD [])
      else w.files).insert (resolverFilePath t.text) (utf8 (compose std c.addr)) := by
  have htld : requireValidTld raw = .ok t := by simp only [requireValidTld, hraw]
  simp only [installResolver, htld, exec_bind, exec_readToString, toOption_read] at hok ⊢
  have hrest : left c.faults (⟨[w], w, (w.read (fault c.faults) (resolverFilePath t.text)).bind
      decodeText⟩ : Execution (Except IoError Str)) = c.faults.tail := by simp [left]
  rw [hrest] at hok ⊢
  cases hf : (fault c.faults).isNone with
  | false =>
    have hkeeps : c.keepsOld = false := by simp [Install.keepsOld, hf]
    simp only [hf, Bool.false_eq_true, if_false] at hok ⊢
    simp only [Cells.replaces, hkeeps, Bool.and_false, Bool.false_eq_true, if_false]
    exact files_atomicWrite hok
  | true =>
    have hkeeps : c.keepsOld = copies c.faults.tail := by simp [Install.keepsOld, hf]
    simp only [hf, if_true, Cells.replaces, hkeeps] at hok ⊢
    cases hold : w.files[resolverFilePath t.text]?.bind fromUtf8 with
    | none =>
      simp only [hold] at hok ⊢
      exact files_atomicWrite hok
    | some existing =>
      obtain ⟨data, hdata, hutf8⟩ := bind_eq_some_iff.1 hold
      simp only [hold] at hok ⊢
      by_cases hpoints : pointsAt std existing c.addr = true
      · simp only [hpoints, Bool.not_true, Bool.false_eq_true, if_false, any_some,
          Bool.false_and] at hok ⊢
        exact files_atomicWrite hok
      · simp only [hpoints, Bool.not_false, if_true, any_some, Bool.true_and,
          exec_bind] at hok ⊢
        rw [files_atomicWrite hok, files_macosBackUpExisting, hdata, fromUtf8_eq_some_iff.1 hutf8]
        rfl

/-! ### The programs refine the cells -/

theorem compare_paths_ne (name tld : Str) :
    ¬ compare (resolverFilePath tld) (backupPath name) = .eq := fun h =>
  backupPath_ne_resolverFilePath name tld (Std.LawfulEqCmp.eq_of_compare h).symm

namespace Backups

variable {t : Tld} {bound : Nat} {files : StrMap Bytes} {copy : Option Bytes}

theorem mono (h : Backups t bound files copy) {bound' : Nat} (hle : bound ≤ bound') :
    Backups t bound' files copy := by
  refine ⟨fun name hslash hmem => ?_, h.noCopy, h.latest⟩
  obtain ⟨secs, hlt, rfl⟩ := h.stamped name hslash hmem
  exact ⟨secs, by omega, rfl⟩

theorem insert_resolverFile (h : Backups t bound files copy) (tld : Str) (data : Bytes) :
    Backups t bound (files.insert (resolverFilePath tld) data) copy := by
  have hmem : ∀ name, backupPath name ∈ files.insert (resolverFilePath tld) data ↔
      backupPath name ∈ files := fun name => by
    rw [Std.ExtTreeMap.mem_insert, or_iff_right (compare_paths_ne name tld)]
  have hget : ∀ name, (files.insert (resolverFilePath tld) data)[backupPath name]? =
      files[backupPath name]? := fun name => by
    rw [Std.ExtTreeMap.getElem?_insert, if_neg (compare_paths_ne name tld)]
  refine ⟨?_, ?_, ?_⟩
  · simpa only [hmem] using h.stamped
  · simpa only [hmem] using h.noCopy
  · simpa only [hmem, hget] using h.latest

theorem add (h : Backups t bound files copy) {secs : UInt64} (hclock : bound ≤ secs.toNat)
    (data : Bytes) : Backups t (secs.toNat + 1)
      (files.insert (backupPath (backupFilename t.text secs.toNat)) data) (some data) := by
  have hmem : ∀ name, backupPath name ∈
      files.insert (backupPath (backupFilename t.text secs.toNat)) data →
      name = backupFilename t.text secs.toNat ∨ backupPath name ∈ files := by
    intro name hname
    rw [mem_insert, Std.LawfulEqCmp.compare_eq_iff_eq] at hname
    exact hname.imp_left fun heq => (backupPath_injective heq).symm
  refine ⟨fun name hslash hname => ?_, nofun, ?_⟩
  · rcases hmem name hname with rfl | hname
    · exact ⟨secs, by omega, rfl⟩
    · obtain ⟨old, hlt, rfl⟩ := h.stamped name hslash hname
      exact ⟨old, by omega, rfl⟩
  · rintro _ ⟨⟩
    refine ⟨secs, getElem?_insert_self, fun other hother => ?_⟩
    rcases hmem _ hother with heq | hold
    · exact UInt64.le_of_eq (backupFilename_injective heq)
    · obtain ⟨old, hlt, heq⟩ := h.stamped _ (slash_notMem_backupFilename t _) hold
      rw [backupFilename_injective heq]
      exact UInt64.le_iff_toNat_le.2 (by omega)

end Backups

theorem Represents.install (hraw : Tld.new raw = .ok t) {bound : Nat} {s : Cells}
    (h : Represents t bound w.files s) (hclock : bound ≤ c.secs.toNat)
    (hok : ((installResolver std raw c.addr c.secs.toNat).exec c.faults w).result = .ok ()) :
    Represents t (c.secs.toNat + 1)
      ((installResolver std raw c.addr c.secs.toNat).exec c.faults w).last.files
      (s.install std c) := by
  have hsame : Cells.replaces std ⟨s.file, none⟩ c = s.replaces std c := rfl
  rw [files_installResolver hraw hok, h.file, hsame]
  refine ⟨getElem?_insert_self, Backups.insert_resolverFile ?_ _ _⟩
  cases hrep : s.replaces std c with
  | false =>
    simp only [Cells.install, hrep, Bool.false_eq_true, if_false]
    exact h.backups.mono (by omega)
  | true =>
    cases hold : s.file with
    | none => simp [Cells.replaces, hold] at hrep
    | some old =>
      simp only [Cells.install, hrep, if_true, hold, getD_some]
      exact h.backups.add hclock old

theorem Represents.installAll (hraw : Tld.new raw = .ok t) {calls : List (Install Ip)}
    {bound : Nat} {w' : World} {s : Cells} (h : Represents t bound w.files s)
    (hclock : ∀ c ∈ calls, bound ≤ c.secs.toNat)
    (hsorted : calls.Pairwise fun c d => c.secs < d.secs)
    (hrun : installAll std raw calls w = some w') :
    ∃ bound', Represents t bound' w'.files (calls.foldl (Cells.install std) s) := by
  induction calls generalizing bound w s with
  | nil =>
    obtain rfl := some.inj hrun
    exact ⟨bound, h⟩
  | cons c cs ih =>
    obtain ⟨hlater, hsorted⟩ := pairwise_cons.1 hsorted
    simp only [Mac.installAll] at hrun
    split at hrun
    · next hok =>
      refine ih (h.install hraw (hclock c (mem_cons_self ..)) hok) (fun d hd => ?_) hsorted hrun
      exact UInt64.lt_iff_toNat_lt.1 (hlater d hd)
    · cases hrun

end

/-! ### Uninstalling -/

theorem getElem?_removeBackups (tld : Str) (names : List Str) (w : World) (path : Str) :
    (clean (removeBackups tld names) w).2.files[path]? =
      if ∃ name ∈ names, (parseBackupSecs name tld).isSome ∧ backupPath name = path then none
      else w.files[path]? := by
  induction names generalizing w with
  | nil => simp [removeBackups]
  | cons name names ih =>
    cases hparse : (parseBackupSecs name tld).isSome with
    | false =>
      simp only [removeBackups, hparse, Bool.false_eq_true, if_false, ih, exists_mem_cons_iff,
        false_and, false_or]
    | true =>
      simp only [removeBackups, hparse, if_true, clean_bind, clean_removeFile, ih,
        getElem?_remove, exists_mem_cons_iff, true_and]
      by_cases hpath : backupPath name = path <;> simp [hpath]

theorem names_removeBackups {tld : Str} {names : List Str}
    (hall : ∀ name ∈ w.names backupDir, name ∈ names) :
    ∀ name ∈ (clean (removeBackups tld names) w).2.names backupDir,
      parseBackupSecs name tld = none := by
  intro name hname
  obtain ⟨hslash, hmem⟩ := mem_names.1 hname
  rw [mem_iff_isSome_getElem?] at hmem
  change ((clean (removeBackups tld names) w).2.files[backupPath name]?).isSome at hmem
  rw [getElem?_removeBackups] at hmem
  by_contra hparse
  have hfile : backupPath name ∈ w.files := by
    split at hmem
    · cases hmem
    · exact mem_iff_isSome_getElem?.2 hmem
  rw [if_pos ⟨name, hall name (mem_names.2 ⟨hslash, hfile⟩),
    isSome_iff_ne_none.2 hparse, rfl⟩] at hmem
  cases hmem

theorem Backups.latestBackup {t : Tld} {bound : Nat} {data : Bytes}
    (h : Backups t bound w.files (some data)) : ∃ secs : UInt64,
      latestBackup (w.names backupDir) t.text = some (backupFilename t.text secs.toNat) ∧
        w.files[backupPath (backupFilename t.text secs.toNat)]? = some data := by
  obtain ⟨secs, hdata, hmax⟩ := h.latest data rfl
  have hmem : backupFilename t.text secs.toNat ∈ w.names backupDir :=
    mem_names.2 ⟨slash_notMem_backupFilename t _, mem_iff_isSome_getElem?.2
      (isSome_iff_exists.2 ⟨data, hdata⟩)⟩
  cases hfound : Helper.latestBackup (w.names backupDir) t.text with
  | none =>
    have := latestBackup_eq_none_iff.1 hfound _ hmem
    rw [parseBackupSecs_uint64] at this
    cases this
  | some name =>
    obtain ⟨hname, n, hn, hlargest⟩ := latestBackup_eq_some hfound
    obtain ⟨hslash, hfile⟩ := mem_names.1 hname
    obtain ⟨found, -, rfl⟩ := h.stamped name hslash hfile
    rw [parseBackupSecs_uint64, some.injEq] at hn
    have hle := UInt64.le_iff_toNat_le.1 (hmax found hfile)
    have hge := hlargest _ hmem _ (parseBackupSecs_uint64 ..)
    obtain rfl : found = secs := UInt64.toNat_inj.1 (by omega)
    exact ⟨found, rfl, hdata⟩

section

variable {Ip : Type} {std : IpText Ip}

theorem clean_uninstallResolver {raw : Str} {t : Tld} (hraw : Tld.new raw = .ok t) {w w' : World}
    {restored : Bool} (h : clean (macosTryRestoreBackup std t.text (resolverFilePath t.text)) w
      = (.ok restored, w')) :
    clean (uninstallResolver std raw) w =
      (.ok (), if restored then w' else (w'.remove none (resolverFilePath t.text)).2) := by
  have htld : requireValidTld raw = .ok t := by simp only [requireValidTld, hraw]
  simp only [uninstallResolver, htld, clean_bind, h]
  cases restored with
  | true => rfl
  | false =>
    simp only [clean_bind, clean_removeFile, Bool.false_eq_true, if_false]
    by_cases hmem : resolverFilePath t.text ∈ w'.files <;> simp [World.remove, hmem]

theorem Represents.uninstall (std : IpText Ip) {raw : Str} {t : Tld} (hraw : Tld.new raw = .ok t)
    {bound : Nat} {w : World} {s : Cells} (h : Represents t bound w.files s) :
    let w' := (clean (uninstallResolver std raw) w).2
    w'.files[resolverFilePath t.text]? = s.uninstalled std ∧
      (s.uninstalled std = s.copy →
        ∀ name ∈ w'.names backupDir, parseBackupSecs name t.text = none) := by
  cases hcopy : s.copy with
  | none =>
    have hnone : ∀ name ∈ w.names backupDir, parseBackupSecs name t.text = none := fun name hname =>
      absurd (mem_names.1 hname).2 (h.backups.noCopy hcopy name (mem_names.1 hname).1)
    rw [@clean_uninstallResolver _ std _ _ hraw w w false
      (by simp [macosTryRestoreBackup, latestBackup_eq_none_iff.2 hnone])]
    refine ⟨by simp [getElem?_remove, Cells.uninstalled, hcopy], fun _ name hname => ?_⟩
    obtain ⟨hslash, hmem⟩ := mem_names.1 hname
    exact hnone name (mem_names.2 ⟨hslash, mem_of_mem_remove hmem⟩)
  | some data =>
    obtain ⟨secs, hlatest, hdata⟩ := (hcopy ▸ h.backups).latestBackup
    cases hres : restorable std (lossy data) with
    | false =>
      -- nothing is restored, and the backups stay
      rw [@clean_uninstallResolver _ std _ _ hraw w w false
        (by simp [macosTryRestoreBackup, hlatest, parseBackupSecs_uint64, hdata, hres])]
      have hun : s.uninstalled std = none := by simp [Cells.uninstalled, hcopy, hres]
      exact ⟨by simp [getElem?_remove, hun], fun heq => by rw [hun] at heq; cases heq⟩
    | true =>
      rw [@clean_uninstallResolver _ std _ _ hraw w
        (clean (removeBackups t.text (w.names backupDir))
          ⟨w.files.insert (resolverFilePath t.text) data, w.deeds ++ [.wrote (resolverFilePath t.text) data]⟩).2 true
        (by simp [macosTryRestoreBackup, hlatest, parseBackupSecs_uint64, hdata, hres])]
      have hun : s.uninstalled std = some data := by simp [Cells.uninstalled, hcopy, hres]
      refine ⟨?_, fun _ name hname => ?_⟩
      · simp only [if_true]
        rw [getElem?_removeBackups, if_neg ?_, getElem?_insert_self, hun]
        rintro ⟨name, -, -, hpath⟩
        exact backupPath_ne_resolverFilePath _ _ hpath
      · refine names_removeBackups (fun other hother => ?_) name hname
        obtain ⟨hslash, hmem⟩ := mem_names.1 hother
        refine mem_names.2 ⟨hslash, ?_⟩
        exact (mem_insert.1 hmem).resolve_left (compare_paths_ne other t.text)

end

/-! ## What an uninstall brings back -/

section

variable {Ip : Type} [DecidableEq Ip]

/-- With a file for `addr` in place: the address that the last of these installs to change it has
changed, and has kept a copy of. -/
def lastReplaced (addr : SocketAddr Ip) : List (Install Ip) → Option (SocketAddr Ip)
  | [] => none
  | c :: cs =>
    (lastReplaced c.addr cs).or (if addr ≠ c.addr && c.keepsOld then some addr else none)

/-- When the file from before the installs comes back: none of the later installs has kept a copy
of Orcker's own file, and the first has kept one of the file it found; or the two are the same. -/
def ComesBack (std : IpText Ip) (file : Option Bytes) (first : Install Ip)
    (later : List (Install Ip)) : Prop :=
  match lastReplaced first.addr later with
  | some addr => file = some (utf8 (compose std addr))
  | none => ∀ data, file = some data → (fromUtf8 data).isSome ∧ first.keepsOld

variable {std : IpText Ip} {calls : List (Install Ip)}

theorem copy_foldl_install (hstd : std.Faithful) (cs : List (Install Ip)) (addr : SocketAddr Ip)
    (copy : Option Bytes) :
    (cs.foldl (Cells.install std) ⟨some (utf8 (compose std addr)), copy⟩).copy =
      ((lastReplaced addr cs).map fun a => utf8 (compose std a)).or copy := by
  induction cs generalizing addr copy with
  | nil => rfl
  | cons c cs ih =>
    have htext : fromUtf8 (utf8 (compose std addr)) = some (compose std addr) :=
      fromUtf8_eq_some_iff.2 rfl
    have hreplaces : Cells.replaces std ⟨some (utf8 (compose std addr)), copy⟩ c =
        (addr ≠ c.addr && c.keepsOld) := by
      simp [Cells.replaces, htext, pointsAt_compose hstd]
    simp only [foldl_cons, Cells.install, hreplaces, ih, lastReplaced]
    cases lastReplaced c.addr cs with
    | some a => rfl
    | none => cases (decide (addr ≠ c.addr) && c.keepsOld) <;> rfl

theorem replaces_first {data : Bytes} {c : Install Ip}
    (hpoints : pointsAt std (lossy data) c.addr = false) :
    Cells.replaces std ⟨some data, none⟩ c = ((fromUtf8 data).isSome && c.keepsOld) := by
  cases htext : fromUtf8 data with
  | none => simp [Cells.replaces, htext]
  | some text =>
    rw [fromUtf8_eq_some_iff.1 htext, lossy_utf8] at hpoints
    simp [Cells.replaces, htext, hpoints]

theorem uninstalled_foldl_install (hstd : std.Faithful) {file : Option Bytes} {c : Install Ip}
    (hfile : ∀ data, file = some data → restorable std (lossy data) = true ∧
      pointsAt std (lossy data) c.addr = false) (cs : List (Install Ip)) :
    let s := (c :: cs).foldl (Cells.install std) ⟨file, none⟩
    s.uninstalled std = s.copy ∧ (s.copy = file ↔ ComesBack std file c cs) := by
  simp only [foldl_cons, Cells.uninstalled, ComesBack]
  rw [Cells.install, copy_foldl_install hstd]
  cases lastReplaced c.addr cs with
  | some addr =>
    simp only [map_some, some_or]
    refine ⟨?_, eq_comm⟩
    rw [filter_some, if_pos]
    rw [lossy_utf8]
    exact restorable_compose hstd addr
  | none =>
    simp only [map_none, none_or]
    cases file with
    | none => simp
    | some data =>
      obtain ⟨hrestorable, hpoints⟩ := hfile data rfl
      rw [replaces_first hpoints]
      by_cases hkept : ((fromUtf8 data).isSome && c.keepsOld) = true
      · simp only [hkept, if_true, filter_some, hrestorable, true_and, true_iff]
        rintro _ ⟨⟩
        exact Bool.and_eq_true_iff.1 hkept
      · rw [if_neg hkept]
        refine ⟨rfl, ?_, fun h => absurd (Bool.and_eq_true_iff.2 (h data rfl)) hkept⟩
        exact fun h => by cases h

theorem represents_installAll {raw : Str} {t : Tld} (hraw : Tld.new raw = .ok t) {w w' : World}
    (hempty : w.names backupDir = []) (hclock : calls.Pairwise fun c d => c.secs < d.secs)
    (hinstalls : installAll std raw calls w = some w') :
    ∃ bound, Represents t bound w'.files
      (calls.foldl (Cells.install std) ⟨w.files[resolverFilePath t.text]?, none⟩) := by
  have hnone : ∀ name, '/' ∉ name → backupPath name ∉ w.files := by
    intro name hslash hmem
    have hname : name ∈ w.names backupDir := mem_names.2 ⟨hslash, hmem⟩
    rw [hempty] at hname
    cases hname
  have hstart : Represents t 0 w.files ⟨w.files[resolverFilePath t.text]?, none⟩ :=
    ⟨rfl, fun name hslash hmem => absurd hmem (hnone name hslash), fun _ => hnone, nofun⟩
  exact hstart.installAll hraw (fun _ _ => Nat.zero_le _) hclock hinstalls

/-- From an empty directory of backups, over any number of installs at increasing seconds: an
uninstall brings the resolver file back, byte for byte or to absence, and leaves no backup, exactly
when the file `ComesBack`. -/
theorem uninstallResolver_restores_iff {std : IpText Ip} (hstd : std.Faithful) {raw : Str}
    {t : Tld} (hraw : Tld.new raw = .ok t) {w w' : World} (hempty : w.names backupDir = [])
    {c : Install Ip} {cs : List (Install Ip)}
    (hfile : ∀ data, w.files[resolverFilePath t.text]? = some data →
      restorable std (lossy data) = true ∧ pointsAt std (lossy data) c.addr = false)
    (hclock : (c :: cs).Pairwise fun c d => c.secs < d.secs)
    (hinstalls : installAll std raw (c :: cs) w = some w') :
    let after := (clean (uninstallResolver std raw) w').2
    (after.files[resolverFilePath t.text]? = w.files[resolverFilePath t.text]? ∧
      ∀ name ∈ after.names backupDir, parseBackupSecs name t.text = none) ↔
        ComesBack std w.files[resolverFilePath t.text]? c cs := by
  obtain ⟨bound, hrep⟩ := represents_installAll hraw hempty hclock hinstalls
  obtain ⟨hafter, hgone⟩ := hrep.uninstall std hraw
  obtain ⟨hcopy, hiff⟩ := uninstalled_foldl_install hstd hfile cs
  intro after
  rw [hafter, hcopy]
  exact ⟨fun h => hiff.1 h.1, fun h => ⟨hiff.2 h, hgone hcopy⟩⟩

end

def loopbackText : IpText Unit where
  display _ := "127.0.0.1"
  parse s := if s = "127.0.0.1" then some () else none

theorem loopbackText_faithful : loopbackText.Faithful where
  parse_display _ := by
    show (if "127.0.0.1" = "127.0.0.1" then some () else none) = some ()
    rw [if_pos rfl]
  graphic _ := by
    show ∀ c ∈ "127.0.0.1".toList, 33 ≤ c.toNat ∧ c.toNat ≤ 126
    simp
  ne_nil _ := by
    show "127.0.0.1".toList ≠ []
    decide

def installAt (port : UInt16) (secs : UInt64) : Install Unit := ⟨⟨(), port⟩, secs, []⟩

def testTld : Tld := default

theorem tld_new_test : Tld.new "test" = .ok testTld := Tld.new_text testTld

/-- A file of another program comes back over two installs with one address. -/
theorem uninstallResolver_restores_other :
    let w : World :=
      ⟨(∅ : StrMap Bytes).insert (resolverFilePath "test") (utf8 (compose loopbackText ⟨(), 53⟩)), []⟩
    ∃ w', installAll loopbackText "test" [installAt 5353 1, installAt 5353 2] w = some w' ∧
      let after := (clean (uninstallResolver loopbackText "test") w').2
      after.files[resolverFilePath "test"]? = w.files[resolverFilePath "test"]? ∧
        ∀ name ∈ after.names backupDir, parseBackupSecs name "test" = none := by
  intro w
  have hfile : w.files[resolverFilePath "test"]? = some (utf8 (compose loopbackText ⟨(), 53⟩)) :=
    getElem?_insert_self
  have hempty : w.names backupDir = [] := by decide +kernel
  obtain ⟨w', hw'⟩ := isSome_iff_exists.1 (show (installAll loopbackText "test"
    [installAt 5353 1, installAt 5353 2] w).isSome by decide +kernel)
  refine ⟨w', hw', (uninstallResolver_restores_iff loopbackText_faithful tld_new_test hempty ?_
    (by decide) hw').2 ?_⟩
  · intro data hdata
    obtain rfl := some.inj (hfile.symm.trans hdata)
    rw [lossy_utf8]
    exact ⟨restorable_compose loopbackText_faithful _,
      (pointsAt_compose loopbackText_faithful _ _).trans (by decide)⟩
  · intro data hdata
    obtain rfl := some.inj (hfile.symm.trans hdata)
    exact ⟨by rw [fromUtf8_eq_some_iff.2 rfl]; rfl, by decide⟩

/-- Two installs with two addresses: the file was absent, and is Orcker's own afterwards. -/
theorem uninstallResolver_restores_own :
    ∃ w', installAll loopbackText "test" [installAt 5353 1, installAt 5354 2] ⟨∅, []⟩
        = some w' ∧
      (clean (uninstallResolver loopbackText "test") w').2.files[resolverFilePath "test"]?
        = some (utf8 (compose loopbackText ⟨(), 5353⟩)) ∧
      (∅ : StrMap Bytes)[resolverFilePath "test"]? = none := by
  have hclock : [installAt 5353 1, installAt 5354 2].Pairwise fun c d => c.secs < d.secs := by
    decide
  obtain ⟨w', hw'⟩ := isSome_iff_exists.1 (show (installAll loopbackText "test"
    [installAt 5353 1, installAt 5354 2] ⟨∅, []⟩).isSome by decide +kernel)
  obtain ⟨bound, hrep⟩ := represents_installAll tld_new_test rfl hclock hw'
  have hcells := @uninstalled_foldl_install _ _ _ loopbackText_faithful none (installAt 5353 1) nofun
    [installAt 5354 2]
  refine ⟨w', hw', (hrep.uninstall loopbackText tld_new_test).1.trans (hcells.1.trans ?_),
    getElem?_empty⟩
  rw [foldl_cons]
  exact copy_foldl_install loopbackText_faithful [installAt 5354 2] ⟨(), 5353⟩ none

end Orcker.Helper.Mac
