import Orcker.Base.Fallible
import Orcker.Base.Path
import Orcker.Helper.Ca

/-!
# Removing the certificate authority

`uninstall-ca` removes the file it finds the certificate in. The file may hold further certificates,
which go with it, and the search stops at the first file, although the certificate may be in
several; and an entry that cannot be read is passed over.
-/

namespace Orcker.Helper

open Base Program Orcker.Core List Option

def caCommonName : Str := "Orcker Local CA"

/-- The subject is Orcker's; a certificate without one is not. -/
def CertCrates.isOrckerOwned (crates : CertCrates) (der : Bytes) : Bool :=
  crates.subjectCommonName der == some caCommonName

/-- Where the certificate was found. -/
structure PemMatch where
  path : Str
  blockIndex : Nat
  deriving DecidableEq

/-- The first certificate with the fingerprint; the path of a file that cannot be read as PEM is
the error, unless the search has ended before. -/
def findByFingerprint (crates : CertCrates) (fp : CaFingerprint) :
    List (Str × Bytes) → Except Str (Option PemMatch)
  | [] => .ok none
  | (path, bytes) :: blobs =>
    match crates.parseMany bytes with
    | none => .error path
    | some blocks =>
      match (certsOf blocks).findIdx? fun der => crates.sha256 der = fp with
      | some i => .ok (some ⟨path, i⟩)
      | none => findByFingerprint crates fp blobs

/-- The certificate itself; files that cannot be read as PEM are passed over. -/
def certDerForFingerprint (crates : CertCrates) (fp : CaFingerprint) :
    List (Str × Bytes) → Option Bytes
  | [] => none
  | (_, bytes) :: blobs =>
    (((crates.parseMany bytes).elim [] certsOf).find? fun der => crates.sha256 der = fp).or
      (certDerForFingerprint crates fp blobs)

def isCrt (name : Str) : Bool := (Path.ofStr name).extension == some (utf8 "crt")

/-- What a file system lists of a directory, and in which order: entries that fail are passed over. -/
structure Listing where
  entries : List Str → List Str
  subperm : ∀ names, (entries names).Subperm names

/-- Read the files of a directory that are called certificates. -/
def readBlobs (dir : Str) : List Str → Program (Except HelperError (List (Str × Bytes)))
  | [] => return .ok []
  | name :: names => do
    if !isCrt name then readBlobs dir names
    else
      let path := dir ++ '/' :: name
      match ← readFile path with
      | .error e => return .error (.io path e)
      | .ok bytes => return (← readBlobs dir names).map ((path, bytes) :: ·)

/-- What is done once the files are read. -/
def removeMatch (crates : CertCrates) (anchorDir : Str) (fp : CaFingerprint)
    (blobs : List (Str × Bytes)) : Program (Except HelperError Unit) := do
  match findByFingerprint crates fp blobs with
  | .error _ => return .error (.validation .pemParseFailed)
  | .ok none => return .ok ()
  | .ok (some m) =>
    let der := certDerForFingerprint crates fp blobs
    if !der.any crates.isOrckerOwned then
      return .error (.validation (.certNotOrckerOwned (der.bind crates.subjectCommonName)))
    else
      match ← removeFile m.path with
      | .error e => return .error (.io m.path e)
      | .ok () => refreshAnchors anchorDir

/-- Finds a certificate with the fingerprint, makes sure that its subject is Orcker's, and removes
its file. -/
def uninstallFrom (crates : CertCrates) (listing : Listing) (fp : CaFingerprint) (anchorDir : Str) :
    Program (Except HelperError Unit) := do
  match ← readDir anchorDir with
  | .error e => return .error (.io anchorDir e)
  | .ok names =>
    match ← readBlobs anchorDir (listing.entries names) with
    | .error e => return .error e
    | .ok blobs => removeMatch crates anchorDir fp blobs

def uninstallCa (crates : CertCrates) (listing : Listing) (fp : CaFingerprint) :
    Program (Except HelperError Unit) := do
  match ← pickAnchorDir anchorDirs with
  | .error e => return .error e
  | .ok anchorDir => uninstallFrom crates listing fp anchorDir

/-- The certificates in a file. -/
def CertCrates.certsIn (crates : CertCrates) (files : StrMap Bytes) (path : Str) : List Bytes :=
  ((files[path]?).bind crates.parseMany).elim [] certsOf

/-- The paths of a directory's files, of all or of those called certificates. -/
def InDir (dir path : Str) : Prop := ∃ name, '/' ∉ name ∧ path = dir ++ '/' :: name

/-- A `.crt` file of the directory. -/
def CrtIn (dir path : Str) : Prop := ∃ name, '/' ∉ name ∧ isCrt name = true ∧ path = dir ++ '/' :: name

/-- What `uninstall-ca` is to do to a directory, given its files before. -/
structure Uninstalls (crates : CertCrates) (fp : CaFingerprint) (dir : Str) (files : StrMap Bytes)
    (e : Execution (Except HelperError Unit)) : Prop where
  /-- Certificates of others are still in the directory. -/
  kept : ∀ path der, InDir dir path → der ∈ crates.certsIn files path →
    crates.isOrckerOwned der = false →
    ∃ path', InDir dir path' ∧ der ∈ crates.certsIn e.last.files path'
  /-- Success means that no file has the certificate. -/
  gone : e.result = .ok () → ∀ path, CrtIn dir path → ∀ der ∈ crates.certsIn e.last.files path,
    crates.sha256 der ≠ fp
  /-- A failure before the removal changes nothing. -/
  unchanged : ∀ error, e.result = .error error → (∀ path, .removed path ∉ e.last.deeds) →
    e.last.files = files

/-- The files of a directory that are called certificates, as they are listed. -/
def blobsOf (listing : Listing) (dir : Str) (files : StrMap Bytes) : List (Str × Bytes) :=
  ((listing.entries (World.names ⟨files, []⟩ dir)).filter isCrt).map fun name =>
    (dir ++ '/' :: name, (files[dir ++ '/' :: name]?).getD [])

/-- The file to be removed, if one is, holds no certificate of others that is not in a second file,
and no second file has the certificate to be removed; and if none is, no file has it. -/
structure Separate (crates : CertCrates) (listing : Listing) (fp : CaFingerprint) (dir : Str)
    (files : StrMap Bytes) : Prop where
  removed : ∀ m der, findByFingerprint crates fp (blobsOf listing dir files) = .ok (some m) →
    certDerForFingerprint crates fp (blobsOf listing dir files) = some der →
    crates.isOrckerOwned der = true →
    (∀ der' ∈ crates.certsIn files m.path, crates.isOrckerOwned der' = false →
      ∃ path, path ≠ m.path ∧ InDir dir path ∧ der' ∈ crates.certsIn files path) ∧
    ∀ path, path ≠ m.path → CrtIn dir path → ∀ der' ∈ crates.certsIn files path,
      crates.sha256 der' ≠ fp
  missed : findByFingerprint crates fp (blobsOf listing dir files) = .ok none →
    ∀ path, CrtIn dir path → ∀ der ∈ crates.certsIn files path, crates.sha256 der ≠ fp

variable {der : Bytes} {m : PemMatch}

section Search

variable {crates : CertCrates} {fp : CaFingerprint} {blobs : List (Str × Bytes)}

theorem sha256_ne_of_find_none (h : findByFingerprint crates fp blobs = .ok none) {path : Str}
    {bytes : Bytes} (hblob : (path, bytes) ∈ blobs)
    (hder : der ∈ (crates.parseMany bytes).elim [] certsOf) : crates.sha256 der ≠ fp := by
  induction blobs with
  | nil => cases hblob
  | cons blob blobs ih =>
    rw [findByFingerprint] at h
    split at h
    · cases h
    · next blocks hblocks =>
      split at h
      · cases h
      · next hnone =>
        rcases mem_cons.1 hblob with rfl | hblob
        · rw [hblocks, elim_some] at hder
          simpa using findIdx?_eq_none_iff.1 hnone der hder
        · exact ih h hblob

theorem path_mem_of_find_some (h : findByFingerprint crates fp blobs = .ok (some m)) :
    m.path ∈ blobs.map Prod.fst := by
  induction blobs with
  | nil => cases h
  | cons blob blobs ih =>
    rw [findByFingerprint] at h
    split at h
    · cases h
    · split at h
      · cases h
        exact mem_cons_self
      · exact mem_cons_of_mem _ (ih h)

end Search

variable {w : World} {e : Execution (Except HelperError Unit)}

section Run

variable {crates : CertCrates} {fp : CaFingerprint} {listing : Listing} {dir : Str}
  {files : StrMap Bytes}

/-- How a run ends: with the files as they were, and if all is well without a match; or with the
file of the match removed. -/
def Ends (crates : CertCrates) (fp : CaFingerprint) (blobs : List (Str × Bytes))
    (files : StrMap Bytes) (r : Except HelperError Unit) (w : World) : Prop :=
  (w.files = files ∧ (r = .ok () → findByFingerprint crates fp blobs = .ok none)) ∨
    ∃ m der, findByFingerprint crates fp blobs = .ok (some m) ∧
      certDerForFingerprint crates fp blobs = some der ∧ crates.isOrckerOwned der = true ∧
      w.files = files.erase m.path ∧ .removed m.path ∈ w.deeds

theorem always_readBlobs (names : List Str) :
    Always (fun _ => True) (fun r w' => w' = w ∧ ∀ blobs, r = .ok blobs →
      blobs = (names.filter isCrt).map fun name =>
        (dir ++ '/' :: name, (w.files[dir ++ '/' :: name]?).getD [])) (readBlobs dir names) w := by
  induction names with
  | nil =>
    refine always_pure trivial ⟨rfl, fun blobs hblobs => ?_⟩
    cases hblobs
    rfl
  | cons name names ih =>
    rw [readBlobs]
    split
    · next hcrt =>
      rw [filter_cons_of_neg (by simpa using hcrt)]
      exact ih
    · next hcrt =>
      rw [filter_cons_of_pos (by simpa using hcrt)]
      refine Always.bind (always_readFile trivial (fun bytes hbytes => ?_) (fun _ => ?_) fun e => ?_)
      · refine Always.bind (ih.mono ?_)
        rintro r w' - ⟨rfl, hr⟩
        refine always_pure trivial ⟨rfl, fun blobs hblobs => ?_⟩
        obtain ⟨rest, hrest, rfl⟩ := map_eq_ok_iff.1 hblobs
        rw [map_cons, hbytes, getD_some, hr rest hrest]
      · exact always_pure trivial ⟨rfl, nofun⟩
      · exact always_pure trivial ⟨rfl, nofun⟩

theorem always_refreshAnchors {Q : Except HelperError Unit → World → Prop}
    (h : ∀ r deeds, Q r ⟨w.files, w.deeds ++ deeds⟩) :
    Always (fun _ => True) Q (refreshAnchors dir) w := by
  have hsame : ∀ r, Q r w := by
    intro r
    have := h r []
    rwa [append_nil] at this
  unfold refreshAnchors
  split
  · exact always_pure trivial (hsame _)
  · exact always_runCommand trivial trivial (h _ _) fun e => hsame _

theorem always_removeMatch {blobs : List (Str × Bytes)} :
    Always (fun _ => True) (Ends crates fp blobs files) (removeMatch crates dir fp blobs)
      ⟨files, []⟩ := by
  unfold removeMatch
  split
  · exact always_pure trivial (.inl ⟨rfl, nofun⟩)
  · next hfind => exact always_pure trivial (.inl ⟨rfl, fun _ => hfind⟩)
  · next m hfind =>
    simp only
    split
    · exact always_pure trivial (.inl ⟨rfl, nofun⟩)
    · next howned =>
      simp only [Bool.not_eq_true, Bool.not_eq_false', Option.any_eq_true] at howned
      obtain ⟨der, hder, howned⟩ := howned
      refine Always.bind (always_removeFile trivial (fun _ => trivial) (fun _ => ?_) (fun _ => ?_)
        fun e => ?_)
      · refine always_refreshAnchors fun r deeds => .inr ⟨m, der, hfind, hder, howned, rfl, ?_⟩
        simp
      · exact always_pure trivial (.inl ⟨rfl, nofun⟩)
      · exact always_pure trivial (.inl ⟨rfl, nofun⟩)

theorem always_uninstallFrom :
    Always (fun _ => True) (Ends crates fp (blobsOf listing dir files) files)
      (uninstallFrom crates listing fp dir) ⟨files, []⟩ := by
  refine Always.bind ⟨trivial, fun f => ⟨trivial, ?_⟩⟩
  cases f with
  | some f => exact always_pure trivial (.inl ⟨rfl, nofun⟩)
  | none =>
    refine Always.bind ((always_readBlobs _).mono ?_)
    rintro (e | blobs) w - ⟨rfl, hblobs⟩
    · exact always_pure trivial (.inl ⟨rfl, nofun⟩)
    · rw [hblobs blobs rfl]
      exact always_removeMatch

theorem clean_readBlobs {names : List Str} (h : ∀ name ∈ names, dir ++ '/' :: name ∈ w.files) :
    clean (readBlobs dir names) w = (.ok ((names.filter isCrt).map fun name =>
      (dir ++ '/' :: name, (w.files[dir ++ '/' :: name]?).getD [])), w) := by
  induction names with
  | nil => rfl
  | cons name names ih =>
    have hrest := ih fun name hname => h name (mem_cons_of_mem _ hname)
    rw [readBlobs]
    split
    · next hcrt =>
      rw [filter_cons_of_neg (by simpa using hcrt), hrest]
    · next hcrt =>
      obtain ⟨bytes, hbytes⟩ := isSome_iff_exists.1
        (Std.ExtTreeMap.mem_iff_isSome_getElem?.1 (h name mem_cons_self))
      rw [filter_cons_of_pos (by simpa using hcrt)]
      simp [hbytes, hrest, Except.map]

theorem path_mem_files {name : Str} (h : name ∈ World.names ⟨files, []⟩ dir) :
    '/' ∉ name ∧ dir ++ '/' :: name ∈ files := by
  obtain ⟨hslash, hfile⟩ := World.mem_names.1 h
  rw [append_assoc] at hfile
  exact ⟨hslash, hfile⟩

theorem clean_refreshAnchors (h : dir ∈ anchorDirs) :
    ∃ deeds, clean (refreshAnchors dir) w = (.ok (), ⟨w.files, deeds⟩) := by
  have hcmd : ∀ dir ∈ anchorDirs, (linuxPostInstallCmd dir).isSome = true := by decide
  obtain ⟨cmd, hsome⟩ := isSome_iff_exists.1 (hcmd dir h)
  rw [refreshAnchors, hsome]
  exact ⟨_, rfl⟩

theorem exists_name_of_find_some
    (h : findByFingerprint crates fp (blobsOf listing dir files) = .ok (some m)) :
    ∃ name ∈ World.names ⟨files, []⟩ dir, m.path = dir ++ '/' :: name := by
  obtain ⟨blob, hblob, hpath⟩ := mem_map.1 (path_mem_of_find_some h)
  obtain ⟨name, hname, rfl⟩ := mem_map.1 hblob
  exact ⟨name, (listing.subperm _).subset (mem_filter.1 hname).1, hpath.symm⟩

theorem clean_search (crates : CertCrates) (listing : Listing) (fp : CaFingerprint) (dir : Str)
    (files : StrMap Bytes) : clean (uninstallFrom crates listing fp dir) ⟨files, []⟩ =
    clean (removeMatch crates dir fp (blobsOf listing dir files)) ⟨files, []⟩ := by
  have hnames : ∀ name ∈ listing.entries (World.names ⟨files, []⟩ dir),
      dir ++ '/' :: name ∈ files :=
    fun name hname => (path_mem_files ((listing.subperm _).subset hname)).2
  have hblobs := clean_readBlobs (w := ⟨files, []⟩) hnames
  rw [uninstallFrom, clean_bind, clean_readDir]
  simp only
  rw [clean_bind, hblobs]
  rfl

theorem clean_uninstallFrom (hdir : dir ∈ anchorDirs)
    (hfind : findByFingerprint crates fp (blobsOf listing dir files) = .ok (some m))
    (hder : certDerForFingerprint crates fp (blobsOf listing dir files) = some der)
    (howned : crates.isOrckerOwned der = true) :
    ∃ deeds, clean (uninstallFrom crates listing fp dir) ⟨files, []⟩ =
      (.ok (), ⟨files.erase m.path, deeds⟩) := by
  have hm : m.path ∈ files := by
    obtain ⟨name, hname, hpath⟩ := exists_name_of_find_some hfind
    exact hpath ▸ (path_mem_files hname).2
  obtain ⟨deeds, hrefresh⟩ := clean_refreshAnchors (w := ⟨files.erase m.path, [.removed m.path]⟩) hdir
  refine ⟨deeds, ?_⟩
  rw [clean_search]
  rw [removeMatch, hfind]
  simp only [hder, any_some, howned, Bool.not_true, Bool.false_eq_true, if_false]
  rw [clean_bind, clean_removeFile]
  simp only [World.remove, hm, if_true, nil_append]
  exact hrefresh

theorem always_pickAnchorDir (dirs : List Str) :
    Always (fun _ => True) (fun r w' => w' = w ∧ ∀ dir, r = .ok dir → dir ∈ dirs)
      (pickAnchorDir dirs) w := by
  induction dirs with
  | nil => exact always_pure trivial ⟨rfl, nofun⟩
  | cons d dirs ih =>
    refine Always.bind ⟨trivial, fun answer => ⟨trivial, ?_⟩⟩
    cases answer with
    | true =>
      refine always_pure trivial ⟨rfl, fun dir hdir => ?_⟩
      cases hdir
      exact mem_cons_self
    | false => exact ih.mono fun r w' _ h => ⟨h.1, fun dir hdir => mem_cons_of_mem _ (h.2 dir hdir)⟩

theorem exists_faults_pickAnchorDir {dirs : List Str} (hdir : dir ∈ dirs) (w : World) :
    ∃ faults, ((pickAnchorDir dirs).exec faults w).result = .ok dir ∧
      ((pickAnchorDir dirs).exec faults w).last = w ∧
      left faults ((pickAnchorDir dirs).exec faults w) = [] := by
  induction dirs with
  | nil => cases hdir
  | cons d dirs ih =>
    rcases mem_cons.1 hdir with rfl | hdir
    · exact ⟨[], rfl, rfl, rfl⟩
    · obtain ⟨faults, hresult, hlast, hleft⟩ := ih hdir
      exact ⟨some ⟨[], .notFound⟩ :: faults, hresult, hlast, hleft⟩

theorem exec_uninstallCa {faults : List (Option Fault)}
    (hpick : ((pickAnchorDir anchorDirs).exec faults w).result = .ok dir) :
    let picked := (pickAnchorDir anchorDirs).exec faults w
    let e := (uninstallFrom crates listing fp dir).exec (left faults picked) picked.last
    ((uninstallCa crates listing fp).exec faults w).result = e.result ∧
      ((uninstallCa crates listing fp).exec faults w).last = e.last := by
  rw [uninstallCa, exec_bind]
  simp only [hpick, and_self]

theorem certsIn_erase (crates : CertCrates) (files : StrMap Bytes) (path other : Str) :
    crates.certsIn (files.erase path) other =
      if other = path then [] else crates.certsIn files other := by
  rw [CertCrates.certsIn, OrdMap.getElem?_erase]
  split
  · rfl
  · rfl

/-- Where nothing is passed over, nothing is missed. -/
theorem missed_of_perm (hperm : ∀ names, (listing.entries names).Perm names)
    (hnone : findByFingerprint crates fp (blobsOf listing dir files) = .ok none) :
    ∀ path, CrtIn dir path → ∀ der ∈ crates.certsIn files path, crates.sha256 der ≠ fp := by
  rintro path ⟨name, hslash, hcrt, rfl⟩ der hder
  rw [CertCrates.certsIn] at hder
  cases hfile : files[dir ++ '/' :: name]? with
  | none =>
    rw [hfile] at hder
    cases hder
  | some bytes =>
    rw [hfile, bind_some] at hder
    have hname : name ∈ World.names ⟨files, []⟩ dir := by
      refine World.mem_names.2 ⟨hslash, ?_⟩
      rw [append_assoc]
      exact Std.ExtTreeMap.mem_iff_isSome_getElem?.2 (isSome_iff_exists.2 ⟨bytes, hfile⟩)
    have hblob : (dir ++ '/' :: name, bytes) ∈ blobsOf listing dir files := by
      refine mem_map.2 ⟨name, mem_filter.2 ⟨?_, hcrt⟩, by rw [hfile, getD_some]⟩
      exact (hperm _).mem_iff.2 hname
    exact sha256_ne_of_find_none hnone hblob hder

theorem Ends.uninstalls (h : Ends crates fp (blobsOf listing dir files) files e.result e.last)
    (hsep : Separate crates listing fp dir files) : Uninstalls crates fp dir files e := by
  rcases h with ⟨hfiles, hnone⟩ | ⟨m, der, hfind, hder, howned, hfiles, hremoved⟩
  · refine ⟨fun path der hpath hder _ => ⟨path, hpath, hfiles ▸ hder⟩, ?_, fun _ _ _ => hfiles⟩
    intro hok path hpath der hder
    exact hsep.missed (hnone hok) path hpath der (hfiles ▸ hder)
  · obtain ⟨hothers, hcopies⟩ := hsep.removed m der hfind hder howned
    refine ⟨fun path der' hpath hder' hforeign => ?_, fun _ path hpath der' hder' => ?_, ?_⟩
    · by_cases hm : path = m.path
      · obtain ⟨path', hne, hin, hmem⟩ := hothers der' (hm ▸ hder') hforeign
        exact ⟨path', hin, by rwa [hfiles, certsIn_erase, if_neg hne]⟩
      · exact ⟨path, hpath, by rwa [hfiles, certsIn_erase, if_neg hm]⟩
    · rw [hfiles, certsIn_erase] at hder'
      split at hder'
      · cases hder'
      · next hne => exact hcopies path hne hpath der' hder'
    · intro error _ hnot
      exact absurd hremoved (hnot m.path)

theorem Uninstalls.separate (h : Uninstalls crates fp dir files e)
    (hclean : ∀ m der, findByFingerprint crates fp (blobsOf listing dir files) = .ok (some m) →
      certDerForFingerprint crates fp (blobsOf listing dir files) = some der →
      crates.isOrckerOwned der = true → InDir dir m.path ∧ e.result = .ok () ∧
      e.last.files = files.erase m.path)
    (hmissed : findByFingerprint crates fp (blobsOf listing dir files) = .ok none →
      e.result = .ok () ∧ e.last.files = files) : Separate crates listing fp dir files := by
  refine ⟨fun m der hfind hder howned => ?_, fun hnone path hpath der hder => ?_⟩
  · obtain ⟨hin, hok, hfiles⟩ := hclean m der hfind hder howned
    constructor
    · intro der' hder' hforeign
      obtain ⟨path, hpath, hmem⟩ := h.kept m.path der' hin hder' hforeign
      rw [hfiles, certsIn_erase] at hmem
      split at hmem
      · cases hmem
      · next hne => exact ⟨path, hne, hpath, hmem⟩
    · intro path hne hpath der' hder'
      exact h.gone hok path hpath der' (by rwa [hfiles, certsIn_erase, if_neg hne])
  · obtain ⟨hok, hfiles⟩ := hmissed hnone
    exact h.gone hok path hpath der (hfiles ▸ hder)

end Run

/-- For every directory, fingerprint and order of listing: all runs, whatever fails in them, keep
the certificates of others, leave no copy when they succeed, and change nothing when they fail
before the removal, exactly when the file that would be removed holds no certificate of others that
is not elsewhere, no other file has the certificate, and if none is found among the entries that
could be read, none has it. -/
theorem uninstall_spares_iff (crates : CertCrates) (listing : Listing) (fp : CaFingerprint)
    (files : StrMap Bytes) :
    (∀ faults dir, ((pickAnchorDir anchorDirs).exec faults ⟨files, []⟩).result = .ok dir →
      Uninstalls crates fp dir files ((uninstallCa crates listing fp).exec faults ⟨files, []⟩)) ↔
    ∀ dir ∈ anchorDirs, Separate crates listing fp dir files := by
  constructor
  · intro h dir hdir
    obtain ⟨faults, hpick, hlast, hleft⟩ := exists_faults_pickAnchorDir hdir ⟨files, []⟩
    obtain ⟨hresult, hend⟩ := @exec_uninstallCa _ crates fp listing dir faults hpick
    rw [hlast, hleft] at hresult hend
    refine (h faults dir hpick).separate (fun m der hfind hder howned => ?_) fun hnone => ?_
    · obtain ⟨deeds, hclean⟩ := clean_uninstallFrom hdir hfind hder howned
      obtain ⟨name, hname, hpath⟩ := exists_name_of_find_some hfind
      refine ⟨⟨name, (path_mem_files hname).1, hpath⟩, hresult.trans (congrArg Prod.fst hclean), ?_⟩
      rw [hend]
      exact congrArg (fun r => r.2.files) hclean
    · have hclean := clean_search crates listing fp dir files
      rw [removeMatch, hnone] at hclean
      rw [hresult, hend]
      exact ⟨congrArg Prod.fst hclean, congrArg (fun r => r.2.files) hclean⟩
  · intro h faults dir hpick
    have hpicked := (always_pickAnchorDir (w := ⟨files, []⟩) anchorDirs).exec faults
    obtain ⟨hresult, hend⟩ := exec_uninstallCa hpick
    rw [hpicked.2.1] at hresult hend
    refine Ends.uninstalls ?_ (h dir (hpicked.2.2 dir hpick))
    rw [hresult, hend]
    exact (always_uninstallFrom.exec _).2

/-- Two certificates in one file, of which the first is Orcker's. -/
def bundle : Bytes := utf8 (twoBytePem "AQI=" ++ twoBytePem "AwQ=")

def bundleCrates : CertCrates where
  parseMany data :=
    if data = bundle then some [⟨certificateTag, ownCert⟩, ⟨certificateTag, otherCert⟩]
    else twoCerts.parseMany data
  encode := twoCerts.encode
  sha256 := twoCerts.sha256
  subjectCommonName der := if der = ownCert then some caCommonName else some "Other CA"

def asStored : Listing := ⟨id, fun _ => .refl _⟩

def debianAnchors : Str := "/usr/local/share/ca-certificates"

def bundlePath : Str := "/usr/local/share/ca-certificates/team.crt"

def bundleFiles : StrMap Bytes := (∅ : StrMap Bytes).insert bundlePath bundle

/-- The other certificate of the file is gone. -/
theorem uninstall_takes_bundle :
    ¬∀ faults dir, ((pickAnchorDir anchorDirs).exec faults ⟨bundleFiles, []⟩).result = .ok dir →
      Uninstalls bundleCrates ownFingerprint dir bundleFiles
        ((uninstallCa bundleCrates asStored ownFingerprint).exec faults ⟨bundleFiles, []⟩) := by
  intro h
  have hpick : ((pickAnchorDir anchorDirs).exec [] ⟨bundleFiles, []⟩).result = .ok debianAnchors := by
    decide
  have hempty : ((uninstallCa bundleCrates asStored ownFingerprint).exec []
      ⟨bundleFiles, []⟩).last.files.isEmpty = true := by decide +kernel
  have hother : otherCert ∈ bundleCrates.certsIn bundleFiles bundlePath := by decide +kernel
  obtain ⟨path, -, hmem⟩ := (h [] debianAnchors hpick).kept bundlePath otherCert
    ⟨"team.crt".toList, by decide, by decide⟩ hother (by decide)
  rw [CertCrates.certsIn, Std.ExtTreeMap.isEmpty_iff.1 hempty, Std.ExtTreeMap.getElem?_empty] at hmem
  cases hmem

end Orcker.Helper
