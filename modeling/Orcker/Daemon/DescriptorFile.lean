import Orcker.Base.Disk
import Orcker.Daemon.Commit
import Orcker.Daemon.Descriptor

/-!
# The descriptor a link leaves

A file that cannot be opened, or is not text, is not the same as none, but it is written over; and
the write comes before the commit, which can still fail.
-/

namespace Orcker.Daemon.Commit

open Base Orcker.Core Orcker.Schema

def descriptorFile : Str := "orcker.yml"

/-- The directory as a request finds it: its files, whether the descriptor may be opened for
reading, and what becomes of writing it. -/
structure Folder where
  files : Dir
  readable : Bool
  writing : Fate

def ioText : IoError → Str
  | .notFound => "No such file or directory (os error 2)"
  | .other reason => reason

namespace Folder

/-- The descriptor's text: none when it is absent, cannot be opened or is not UTF-8. -/
def readToString (folder : Folder) : Option Str :=
  if folder.readable then folder.files[descriptorFile]?.bind fromUtf8 else none

/-- None if the file cannot be read; what is read has to parse. -/
def existing (folder : Folder) : Except ConfigError (Option OrckerYml) :=
  match folder.readToString with
  | some raw => (OrckerYml.parse raw).map some
  | none => .ok none

def writeAnswer (folder : Folder) : Except Str Unit :=
  match folder.writing with
  | .performed => .ok ()
  | .refused e | .broken e _ => .error (ioText e)

/-- The descriptor is written in place. -/
def write (folder : Folder) (yml : OrckerYml) : Except Str Unit × Dir :=
  (folder.writeAnswer,
    ((FileOp.write descriptorFile (utf8 yml.render)).attempt folder.writing folder.files).2)

end Folder

/-- `commit_config`: the router to swap in and the text that was saved. -/
def commitConfig (toml : TomlCrate) (input : Input) (new : Config) :
    Except Failure (SiteRouter × Str) := do
  (validate new).mapError .validation
  let (candidate, _) ← (buildRouting input.world new).mapError .rebuild
  let text ← (save toml input new).mapError .save
  return (candidate, text)

/-- The end of a link: the project is committed and reported. -/
def finishLink (toml : TomlCrate) (input : Input) (live : Live) (project : ContainerProject)
    (descriptor : Option OrckerYml) (wroteDescriptor : Bool) : Reply :=
  match commitConfig toml input
      { live.config with projects := live.config.projects ++ [project] } with
  | .error failure => .error failure
  | .ok (router, _) =>
    .project (projectEntry router project descriptor live.config.tld) true wroteDescriptor

/-- The request under the mutex: the reply, and the files of the project's directory. -/
def linkExisting (toml : TomlCrate) (boundPorts : List Nat) (input : Input) (live : Live)
    (folder : Folder) (root : Path) (name : Option Str) (port : Option UInt16)
    (existing : Option OrckerYml) : Reply × Dir :=
  match planLink live.config root name port existing input.portIsFree with
  | .error e => (.error (.plan e), folder.files)
  | .ok (.alreadyLinked project) =>
    (.project (projectEntry live.router project existing live.config.tld) false false,
      folder.files)
  | .ok (.link project writeYml) =>
    match projectLoopRefusal project boundPorts with
    | some refusal => (.error (.loop refusal), folder.files)
    | none =>
      match writeYml with
      | none => (finishLink toml input live project existing false, folder.files)
      | some yml =>
        match folder.write yml with
        | (.error source, files) =>
          (.error (.writeDescriptor (root.join (.ofStr descriptorFile)) source), files)
        | (.ok (), files) => (finishLink toml input live project (some yml) true, files)

/-- Reads `orcker.yml` and writes one where it could read none. -/
def handleLinkProject (toml : TomlCrate) (boundPorts : List Nat) (input : Input) (live : Live)
    (folder : Folder) (path : Path) (name : Option Str) (port : Option UInt16) : Reply × Dir :=
  match canonicalizeDir input.fs path with
  | .error e => (.error e, folder.files)
  | .ok root =>
    match folder.existing with
    | .error e => (.error (.descriptor (root.join (.ofStr descriptorFile)) e), folder.files)
    | .ok existing => linkExisting toml boundPorts input live folder root name port existing

def Reply.isError : Reply → Bool
  | .error _ => true
  | _ => false

/-- A descriptor that was there is kept, and a request that fails leaves none where none was. -/
def Kept (before after : Dir) (reply : Reply) : Prop :=
  (∀ bytes, before[descriptorFile]? = some bytes → after[descriptorFile]? = some bytes) ∧
    (reply.isError = true → before[descriptorFile]? = none → after[descriptorFile]? = none)

theorem kept_of_unchanged (files : Dir) (reply : Reply) : Kept files files reply :=
  ⟨fun _ h => h, fun _ h => h⟩

theorem kept_insert_of_some {files : Dir} {bytes : Bytes}
    (h : files[descriptorFile]? = some bytes) (data : Bytes) (reply : Reply) :
    Kept files (files.insert descriptorFile data) reply ↔ bytes = data := by
  rw [Kept, OrdMap.getElem?_insert, if_pos rfl, h]
  constructor
  · rintro ⟨hkept, -⟩
    exact (Option.some.inj (hkept bytes rfl)).symm
  · rintro rfl
    exact ⟨fun _ hbytes => hbytes, fun _ hnone => by cases hnone⟩

theorem kept_insert_of_none {files : Dir} (h : files[descriptorFile]? = none) (data : Bytes)
    (reply : Reply) :
    Kept files (files.insert descriptorFile data) reply ↔ reply.isError = false := by
  rw [Kept, OrdMap.getElem?_insert, if_pos rfl, h]
  simp

variable {existing : Option OrckerYml}

section Write

variable {toml : TomlCrate} {boundPorts : List Nat} {input : Input} {live : Live} {folder : Folder}

/-- The config is valid, its router can be built, and it is saved. -/
def Committed (toml : TomlCrate) (input : Input) (new : Config) : Prop :=
  validate new = .ok () ∧ (∃ r, buildRouting input.world new = .ok r) ∧
    ∃ text, save toml input new = .ok text

theorem commitConfig_ok_iff {new : Config} :
    (∃ r, commitConfig toml input new = .ok r) ↔ Committed toml input new := by
  simp only [commitConfig, bind_eq_ok_iff, mapError_eq_ok_iff, pure_eq_ok, Committed]
  constructor
  · rintro ⟨_, _, hvalid, routing, hrouting, text, htext, -⟩
    exact ⟨hvalid, ⟨routing, hrouting⟩, text, htext⟩
  · rintro ⟨hvalid, ⟨routing, hrouting⟩, text, htext⟩
    exact ⟨_, (), hvalid, routing, hrouting, text, htext, rfl⟩

theorem isError_finishLink (project : ContainerProject) (descriptor : Option OrckerYml)
    (wrote : Bool) : (finishLink toml input live project descriptor wrote).isError = false ↔
      Committed toml input { live.config with projects := live.config.projects ++ [project] } := by
  rw [finishLink, ← commitConfig_ok_iff]
  cases commitConfig toml input
    { live.config with projects := live.config.projects ++ [project] } <;> simp [Reply.isError]

/-- Writing `yml` does no harm: the file cannot be opened for it; or there is a file, and it holds
the very bytes that are written; or there is none, the write is completed and the project is
committed. -/
def Harmless (toml : TomlCrate) (input : Input) (live : Live) (folder : Folder)
    (project : ContainerProject) (yml : OrckerYml) : Prop :=
  match folder.writing, folder.files[descriptorFile]? with
  | .refused _, _ => True
  | .performed, some bytes => bytes = utf8 yml.render
  | .broken _ written, some bytes => bytes = (utf8 yml.render).take written
  | .performed, none => Committed toml input
      { live.config with projects := live.config.projects ++ [project] }
  | .broken .., none => False

variable {root : Path} {name : Option Str} {port : Option UInt16} {project : ContainerProject}

theorem kept_linkExisting_iff {yml : OrckerYml}
    (hplan : planLink live.config root name port existing input.portIsFree =
      .ok (.link project (some yml))) (hloop : projectLoopRefusal project boundPorts = none) :
    Kept folder.files
        (linkExisting toml boundPorts input live folder root name port existing).2
        (linkExisting toml boundPorts input live folder root name port existing).1 ↔
      Harmless toml input live folder project yml := by
  simp only [linkExisting, hplan, hloop, Folder.write, Folder.writeAnswer, Harmless]
  cases folder.writing with
  | refused e => exact iff_of_true (kept_of_unchanged _ _) trivial
  | broken e written =>
    cases hfile : folder.files[descriptorFile]? with
    | some bytes => exact kept_insert_of_some hfile _ _
    | none => exact (kept_insert_of_none hfile _ _).trans (by simp [Reply.isError])
  | performed =>
    cases hfile : folder.files[descriptorFile]? with
    | some bytes => exact kept_insert_of_some hfile _ _
    | none => exact (kept_insert_of_none hfile _ _).trans (isError_finishLink _ _ _)

theorem linkExisting_files
    (h : ∀ project yml, planLink live.config root name port existing input.portIsFree =
      .ok (.link project (some yml)) → projectLoopRefusal project boundPorts ≠ none) :
    (linkExisting toml boundPorts input live folder root name port existing).2 =
      folder.files := by
  unfold linkExisting
  cases hplan : planLink live.config root name port existing input.portIsFree with
  | error e => rfl
  | ok plan =>
    cases plan with
    | alreadyLinked project => rfl
    | link project writeYml =>
      cases hloop : projectLoopRefusal project boundPorts with
      | some refusal => simp only [hloop]
      | none =>
        cases writeYml with
        | none => simp only [hloop]
        | some yml => exact absurd hloop (h project yml hplan)

end Write

theorem handleLinkProject_of_existing {toml : TomlCrate} {boundPorts : List Nat} {input : Input}
    {live : Live} {folder : Folder} {path root : Path}
    (hroot : canonicalizeDir input.fs path = .ok root) (hread : folder.existing = .ok existing)
    (name : Option Str) (port : Option UInt16) :
    handleLinkProject toml boundPorts input live folder path name port =
      linkExisting toml boundPorts input live folder root name port existing := by
  simp only [handleLinkProject, hroot, hread]

/-- An existing descriptor is kept, and a request that fails creates none, exactly if wherever the
request comes to write one, as it could read none and nothing else stands against the project, the
writing does no harm. -/
theorem descriptor_kept_iff (toml : TomlCrate) (boundPorts : List Nat) (input : Input) (live : Live)
    (folder : Folder) (path : Path) (name : Option Str) (port : Option UInt16) :
    Kept folder.files
        (handleLinkProject toml boundPorts input live folder path name port).2
        (handleLinkProject toml boundPorts input live folder path name port).1 ↔
      ∀ root project yml, canonicalizeDir input.fs path = .ok root →
        folder.readToString = none →
        planLink live.config root name port none input.portIsFree =
          .ok (.link project (some yml)) →
        projectLoopRefusal project boundPorts = none →
        Harmless toml input live folder project yml := by
  cases hroot : canonicalizeDir input.fs path with
  | error e =>
    simp only [handleLinkProject, hroot]
    exact iff_of_true (kept_of_unchanged _ _) (by simp)
  | ok root =>
    cases hread : folder.readToString with
    | some raw =>
      refine iff_of_true ?_ (by simp)
      cases hparse : OrckerYml.parse raw with
      | error e =>
        have hexisting : folder.existing = .error e := by
          simp only [Folder.existing, hread, hparse, Except.map]
        simp only [handleLinkProject, hroot, hexisting]
        exact kept_of_unchanged _ _
      | ok yml =>
        have hexisting : folder.existing = .ok (some yml) := by
          simp only [Folder.existing, hread, hparse, Except.map]
        rw [handleLinkProject_of_existing hroot hexisting, linkExisting_files]
        · exact kept_of_unchanged _ _
        · -- A descriptor that was read is never written.
          intro project yml' hplan
          have hnew := (planned_of_planLink hplan).descriptor
          simp [newDescriptor] at hnew
    | none =>
      have hexisting : folder.existing = .ok none := by rw [Folder.existing, hread]
      rw [handleLinkProject_of_existing hroot hexisting]
      by_cases hwrites : ∃ project yml,
          planLink live.config root name port none input.portIsFree =
            .ok (.link project (some yml)) ∧ projectLoopRefusal project boundPorts = none
      · obtain ⟨project, yml, hplan, hloop⟩ := hwrites
        refine (kept_linkExisting_iff hplan hloop).trans ⟨?_, ?_⟩
        · rintro h root' project' yml' hroot' - hplan' -
          obtain rfl : root = root' := Except.ok.inj hroot'
          obtain ⟨rfl, rfl⟩ : project = project' ∧ yml = yml' := by
            simpa using hplan.symm.trans hplan'
          exact h
        · intro h
          exact h root project yml rfl rfl hplan hloop
      · rw [linkExisting_files fun project yml hplan hloop => hwrites ⟨project, yml, hplan, hloop⟩]
        refine iff_of_true (kept_of_unchanged _ _) ?_
        rintro root' project yml hroot' - hplan hloop
        obtain rfl : root = root' := Except.ok.inj hroot'
        exact absurd ⟨project, yml, hplan, hloop⟩ hwrites

def freshLive : Live := ⟨Config.default, (build Config.default []).router, none⟩

/-- A descriptor with a byte that is not UTF-8. -/
def strayFolder : Folder := ⟨(∅ : Dir).insert descriptorFile [255], true, .performed⟩

def emptyFolder : Folder := ⟨∅, true, .performed⟩

def sitesConfig : Config :=
  { Config.default with
    projects := (ContainerProject.new "sites" (.ofStr "/srv/sites".toList) 20000).toOption.toList }

/-- What is written when that project is all there is. -/
def sitesLines : List String :=
  parkedLines.dropLast ++
    ["paths = []",
     "",
     "[[projects]]",
     "name = \"sites\"",
     "root = \"/srv/sites\"",
     "port = 20000",
     "secure = false"]

def sitesToml : TomlCrate :=
  tomlOf [(textOf sitesLines, sitesConfig.document.toOption.getD (.table []))]

/-- The project is linked, and its descriptor is written over; and a request whose save fails leaves
a descriptor where there was none. -/
theorem descriptor_not_kept :
    strayFolder.files[descriptorFile]? = some [255] ∧
      (handleLinkProject sitesToml [80] parkInput freshLive strayFolder
        (.ofStr "/srv/sites".toList) none none).1.isError = false ∧
      (handleLinkProject sitesToml [80] parkInput freshLive strayFolder
          (.ofStr "/srv/sites".toList) none none).2[descriptorFile]? =
        some (utf8 (newYml "sites").render) ∧
      emptyFolder.files[descriptorFile]? = none ∧
      (handleLinkProject sitesToml [80] { parkInput with save := .error "disk full" } freshLive
        emptyFolder (.ofStr "/srv/sites".toList) none none).1.isError = true ∧
      (handleLinkProject sitesToml [80] { parkInput with save := .error "disk full" } freshLive
        emptyFolder (.ofStr "/srv/sites".toList) none none).2[descriptorFile]? =
          some (utf8 (newYml "sites").render) := by
  decide +kernel

end Orcker.Daemon.Commit
