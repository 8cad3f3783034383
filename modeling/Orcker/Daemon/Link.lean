import Orcker.Config.Schema

/-!
# Planning a project link

What registering a directory as a container project would do: the name it gets,
the loopback port it is given and the descriptor that is written when it ships
none.
-/

namespace Orcker.Daemon

open Base Orcker.Core Orcker.Schema

def firstProjectPort : UInt16 := 20000

def lastProjectPort : UInt16 := 29999

/-- The range projects are given ports from, in order. -/
def projectPorts : List UInt16 :=
  (List.range (lastProjectPort.toNat + 1 - firstProjectPort.toNat)).map fun i =>
    firstProjectPort + .ofNat i

/-- The lowest port that is neither allocated nor busy. -/
def allocatePort (taken : List UInt16) (isFree : UInt16 → Bool) : Except CoreError UInt16 :=
  match projectPorts.find? fun port => port ∉ taken && isFree port with
  | some port => .ok port
  | none => .error (.portRangeExhausted firstProjectPort lastProjectPort)

def takenPorts (cfg : Config) : List UInt16 := cfg.projects.map ContainerProject.port

/-- A project's descriptor. -/
structure OrckerYml where
  schemaVersion : Nat
  site : Str
  php : PhpVersion
  db : Str
  preset : Str
  deriving DecidableEq

namespace OrckerYml

def currentSchemaVersion : Nat := 1

def knownDbEngines : List Str := ["postgres", "mysql"]

def knownPresets : List Str := ["reference", "minimal"]

/-- The value is one of those allowed. -/
def oneOf (key value : Str) (allowed : List Str) : Except ConfigError Str :=
  if value ∈ allowed then .ok value else .error (.orckerYml (.invalidValue key value))

def validatedSite (site : Str) : Except ConfigError Str :=
  match normalizeSiteName site with
  | some name => .ok name
  | none => .error (.orckerYml (.invalidValue "site" site))

/-- A checked descriptor of the current version. -/
def new (site : Str) (php : PhpVersion) (db preset : Str) : Except ConfigError OrckerYml := do
  let site ← validatedSite site
  let db ← oneOf "db" db knownDbEngines
  let preset ← oneOf "preset" preset knownPresets
  return { schemaVersion := currentSchemaVersion, site, php, db, preset }

end OrckerYml

/-- A new project, with the descriptor to be written if it ships none, or one that is already there.
-/
inductive LinkPlan where
  | link (project : ContainerProject) (writeYml : Option OrckerYml)
  | alreadyLinked (project : ContainerProject)
  deriving DecidableEq

/-- Why a directory cannot be linked. -/
inductive LinkError where
  | core (e : CoreError)
  | config (e : ConfigError)
  | nameTaken (name : Str)
  | portOutOfRange (port first last : UInt16)
  | portTaken (port : UInt16) (owner : Str)
  | noName (root : Path)
  deriving DecidableEq

/-- The values a new descriptor starts with. -/
def descriptorPhp : PhpVersion := ⟨8, 4⟩

def descriptorDb : Str := "postgres"

def descriptorPreset : Str := "reference"

/-- The requested name, else the descriptor's, else the directory's own. -/
def deriveName (root : Path) (requested : Option Str) (existingYml : Option OrckerYml) :
    Option Str :=
  match requested, existingYml with
  | some requested, _ => normalizeSiteName requested
  | none, some yml => normalizeSiteName yml.site
  | none, none => (root.fileName.bind fromUtf8).bind slugifySiteName

/-- The requested port if it may be had, else a free one. -/
def choosePort (cfg : Config) (requested : Option UInt16) (isFree : UInt16 → Bool) :
    Except LinkError UInt16 :=
  match requested with
  | some port =>
    if port < firstProjectPort ∨ lastProjectPort < port then
      .error (.portOutOfRange port firstProjectPort lastProjectPort)
    else
      match cfg.projects.find? fun p => p.port = port with
      | some owner => .error (.portTaken port owner.name.text)
      | none => .ok port
  | none => (allocatePort (takenPorts cfg) isFree).mapError .core

/-- The descriptor to write, when the project ships none. -/
def newDescriptor (name : Str) (existingYml : Option OrckerYml) :
    Except LinkError (Option OrckerYml) :=
  match existingYml with
  | some _ => .ok none
  | none =>
    match OrckerYml.new name descriptorPhp descriptorDb descriptorPreset with
    | .ok yml => .ok (some yml)
    | .error e => .error (.config e)

/-- Decide what linking `root` does. Roots compare as paths. -/
def planLink (cfg : Config) (root : Path) (requestedName : Option Str)
    (requestedPort : Option UInt16) (existingYml : Option OrckerYml) (isFree : UInt16 → Bool) :
    Except LinkError LinkPlan :=
  match deriveName root requestedName existingYml with
  | none => .error (.noName root)
  | some name =>
    match cfg.projects.find? fun p => p.name.text = name with
    | some existing =>
      if existing.root.same root then .ok (.alreadyLinked existing) else .error (.nameTaken name)
    | none =>
      if (cfg.linked.any fun s => s.name.text = name) || cfg.proxies.any fun p => p.name.text = name
      then .error (.nameTaken name)
      else do
        let port ← choosePort cfg requestedPort isFree
        let writeYml ← newDescriptor name existingYml
        let project ← (ContainerProject.new name root port).mapError .core
        return .link project writeYml

end Orcker.Daemon
