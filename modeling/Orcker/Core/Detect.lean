import Orcker.Base.Path
import Orcker.Base.Map

/-!
# Web-root detection

Which subdirectory of a project is served, decided from signals an I/O layer
gathered. The first rule that matches wins.
-/

namespace Orcker.Core

open Base

/-- The directories looked into when no framework is recognised. -/
def webDirCandidates : List Str := ["public", "web", "webroot", "pub"]

/-- Files and directories whose presence is a sign of a framework. -/
def rootMarkers : List Str :=
  ["artisan", "wp-config.php", "wp-load.php", "bin/console", "spark", "bin/cake", "bin/magento",
    "yii", "index.php", "core"]

/-- What the I/O layer gathered about a project. -/
structure ProjectSignals where
  composerRequires : StrSet
  markers : StrSet
  webDirsWithIndex : StrSet

/-- The sub-path to serve, and whether it was found with confidence. -/
structure Detection where
  subpath : Path
  resolved : Bool
  deriving DecidableEq

namespace Detection

/-- A subdirectory is served. -/
def sub (dir : Str) : Detection := ⟨.ofStr dir, true⟩

def root : Detection := ⟨⟨[]⟩, true⟩

/-- Nothing matched; the project itself is served. -/
def unresolved : Detection := ⟨⟨[]⟩, false⟩

end Detection

/-- A framework with a fixed web root; an empty marker matches by package only. -/
structure FrameworkRule where
  package : Str
  marker : Str
  webDir : Str

def publicFrameworks : List FrameworkRule :=
  [⟨"laravel/framework", "artisan", "public"⟩,
   ⟨"symfony/framework-bundle", "bin/console", "public"⟩,
   ⟨"codeigniter4/framework", "spark", "public"⟩,
   ⟨"cakephp/cakephp", "bin/cake", "webroot"⟩]

def otherFrameworks : List FrameworkRule :=
  [⟨"yiisoft/yii2", "", "web"⟩,
   ⟨"magento/product-community-edition", "bin/magento", "pub"⟩]

/-- Either signal will do, if the web directory has an index. -/
def FrameworkRule.matches_ (sig : ProjectSignals) (r : FrameworkRule) : Bool :=
  (r.package ∈ sig.composerRequires || (!r.marker.isEmpty && r.marker ∈ sig.markers)) &&
    r.webDir ∈ sig.webDirsWithIndex

def matchFramework (sig : ProjectSignals) (rules : List FrameworkRule) : Option Detection :=
  (rules.find? (FrameworkRule.matches_ sig)).map fun r => .sub r.webDir

def detectDrupal (sig : ProjectSignals) : Option Detection :=
  if !sig.composerRequires.toList.any fun p => "drupal/core".toList.isPrefixOf p then none
  else if "web".toList ∈ sig.webDirsWithIndex then some (.sub "web")
  else if "index.php".toList ∈ sig.markers ∧ "core".toList ∈ sig.markers then some .root
  else none

def detectPlain (sig : ProjectSignals) : Detection :=
  if "wp-config.php".toList ∈ sig.markers ∨ "wp-load.php".toList ∈ sig.markers then .root
  else
    match webDirCandidates.find? fun dir => dir ∈ sig.webDirsWithIndex with
    | some dir => .sub dir
    | none => if "index.php".toList ∈ sig.markers then .root else .unresolved

/-- The frameworks in their order, and then the layout. -/
def detect (sig : ProjectSignals) : Detection :=
  ((matchFramework sig publicFrameworks).or ((detectDrupal sig).or
    (matchFramework sig otherFrameworks))).getD (detectPlain sig)

end Orcker.Core
