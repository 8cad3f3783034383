import Orcker.Core.Detect
import Orcker.Daemon.Mutate

/-!
# Choosing a site's web root

A linked site stores the sub-path itself, a parked site pins it.
-/

namespace Base.Path

/-- What is left of a resolved path below another; resolved paths have single
separators, so the components determine the text. -/
def stripPrefix (p base : Path) : Option Path :=
  (p.components.dropPrefix? base.components).map fun rest =>
    ⟨List.intercalate [slash] (rest.filterMap fun
      | .normal name => some name
      | .parentDir => some [dot, dot]
      | .curDir => some [dot]
      | .rootDir => none)⟩

end Base.Path

namespace Orcker.Daemon

open Base Orcker.Core Orcker.Schema

inductive WebRootError where
  | notFound (e : MutateError)
  | cannotResolve (p : Path)
  | notDirectory (p : Path)
  | outside (root : Path)

section WebRoot

variable (fs : Fs) (gatherProjectSignals : Path → ProjectSignals)

/-- What a reset detects. -/
def detectWebSubpath (docRoot : Path) : Str :=
  (detect (gatherProjectSignals docRoot)).subpath.toStringLossy

/-- The sub-path of `docRoot` that `input` names. -/
def resolveWebRootWithin (docRoot : Path) (input : Str) : Except WebRootError Str :=
  let candidate :=
    if (Path.ofStr input).isAbsolute then .ofStr input else docRoot.join (.ofStr input)
  match fs.canonicalize candidate with
  | none => .error (.cannotResolve candidate)
  | some canonCandidate =>
    if !fs.isDir canonCandidate then .error (.notDirectory canonCandidate)
    else
      match fs.canonicalize docRoot with
      | none => .error (.cannotResolve docRoot)
      | some canonRoot =>
        match canonCandidate.stripPrefix canonRoot with
        | none => .error (.outside canonRoot)
        | some rel => .ok rel.toStringLossy

/-- The chosen sub-path, or the detected one. -/
def chooseSubpath (docRoot : Path) (path : Option Str) : Except WebRootError Str :=
  match path with
  | some p => resolveWebRootWithin fs docRoot p
  | none => .ok (detectWebSubpath gatherProjectSignals docRoot)

def webRootSummary (name rel : Str) : Str :=
  if rel.isEmpty then name ++ " now served from its project root"
  else name ++ " now served from " ++ rel

/-- The entry goes when neither a version nor a secure flag is pinned. -/
def clearWebRoot (cfg : Config) (key : Str) : Config :=
  match cfg.overrides[key]? with
  | none => cfg
  | some ov =>
    if ov.php.isNone && ov.secure.isNone then { cfg with overrides := cfg.overrides.erase key }
    else { cfg with overrides := cfg.overrides.insert key { ov with webRoot := none } }

/-- The one mutation that reads the filesystem: a chosen path is resolved and must stay inside the
document root, and a reset detects again. -/
def resolveWebRootMutation (cfg : Config) (router : SiteRouter) (name : Str) (path : Option Str) :
    Except WebRootError (Config × Applied) :=
  let nameLc := lower name
  match cfg.linked.find? fun s => s.name.text = nameLc with
  | some site => do
    let rel ← chooseSubpath fs gatherProjectSignals site.documentRoot path
    return ({ cfg with
      linked := (updateFirst (fun s : Site => s.name.text = nameLc)
        (·.set (.webSubpath (.ofStr rel))) cfg.linked).getD cfg.linked },
      ⟨webRootSummary nameLc rel⟩)
  | none =>
    match router.sites[nameLc]? with
    | none => .error (.notFound (notFoundSite cfg nameLc))
    | some parked =>
      match path with
      | some p => do
        let rel ← resolveWebRootWithin fs parked.documentRoot p
        return (editOverride cfg (overrideKey parked) fun ov => { ov with webRoot := some rel },
          ⟨webRootSummary nameLc rel⟩)
      | none =>
        .ok (clearWebRoot cfg (overrideKey parked), ⟨nameLc ++ " web root reset to auto-detect"⟩)

end WebRoot

end Orcker.Daemon
