import StagedBuild.Invocation
import StagedBuild.Text.Blank

/-!
# Manifests

A manifest names the toolchain, the output directory and the targets of a project.  A manifest is
accepted when it declares at least one target, names a tool, and when every target has a name of its
own and every name that becomes a file name is plain.
-/

namespace StagedBuild

/-- A target as a manifest declares it. -/
structure TargetEntry where
  name : String
  kind : TargetKind
  sourceRoot : Path
  /-- The name of its artifact, if it is not the name of the target. -/
  outputName : Option String
  /-- The directory to run the tool in, if it is not the project root. -/
  workingDir : Option Path
  extraArgs : List String
  deriving DecidableEq, Repr

namespace TargetEntry

def defaultSourceRoot : Path := ⟨"."⟩

/-- A target that gives nothing but its name and kind. -/
def minimal (name : String) (kind : TargetKind) : TargetEntry :=
  ⟨name, kind, defaultSourceRoot, none, none, []⟩

def target (entry : TargetEntry) : Target where
  name := entry.name
  kind := entry.kind
  sourceRoot := entry.sourceRoot
  outputName := entry.outputName.getD entry.name
  extraArgs := entry.extraArgs
  workingDir := entry.workingDir

end TargetEntry

/-- The configuration of a project. -/
structure Manifest where
  toolchain : Toolchain
  /-- Where artifacts are installed, from the project root. -/
  outDir : Path
  targets : List TargetEntry
  deriving DecidableEq, Repr

inductive ManifestProblem where
  | noTargets
  | blankTool
  | blankTargetName
  | duplicateTarget (name : String)
  /-- A name that becomes a file name is blank. -/
  | blankName (field : String)
  | notPlain (field value : String)
  deriving DecidableEq, Repr

namespace ManifestProblem

def message : ManifestProblem → String
  | noTargets => "no targets declared"
  | blankTool => "toolchain.tool must not be empty"
  | blankTargetName => "target names must not be empty"
  | duplicateTarget name => "duplicate target `" ++ name ++ "`"
  | blankName field => "target " ++ field ++ " must not be empty"
  | notPlain field value =>
      "target " ++ field ++ " `" ++ value
        ++ "` must be a plain file name without path separators"

end ManifestProblem

structure UnknownTarget where
  name : String
  available : List String
  deriving DecidableEq, Repr

namespace UnknownTarget

def message (problem : UnknownTarget) : String :=
  "no target named `" ++ problem.name ++ "`; available targets: "
    ++ String.intercalate ", " problem.available

end UnknownTarget

namespace Manifest

def fileName : String := "Kiln.toml"

/-- The targets of a project without a manifest: a library, and the executable that uses it. -/
def defaultTargets : List TargetEntry :=
  [{ TargetEntry.minimal "DSL_BUILD_SYS" .library with workingDir := some ⟨"BuildSystem"⟩ },
    TargetEntry.minimal "dieselc" .executable]

def defaultOutDir : Path := ⟨"bin"⟩

def default : Manifest := ⟨.odin, defaultOutDir, defaultTargets⟩

/-- The character separates directories on some platform. -/
def isSeparator (char : Char) : Bool :=
  char == '/' || char == '\\'

/-- A name that becomes a file name must not be able to point anywhere else. -/
def checkName (field value : String) : Except ManifestProblem Unit :=
  if Text.isBlank value then .error (.blankName field)
  else if value == "." || value == ".." || value.toList.any isSeparator then
    .error (.notPlain field value)
  else .ok ()

/-- Check one target, given the names of the targets before it. -/
def checkTarget (earlier : List String) (entry : TargetEntry) : Except ManifestProblem Unit := do
  if Text.isBlank entry.name then .error .blankTargetName
  else if earlier.contains entry.name then .error (.duplicateTarget entry.name)
  else
    checkName "name" entry.name
    match entry.outputName with
    | some outputName => checkName "output-name" outputName
    | none => .ok ()

def checkTargets : List String → List TargetEntry → Except ManifestProblem Unit
  | _, [] => .ok ()
  | earlier, entry :: rest => do
      checkTarget earlier entry
      checkTargets (entry.name :: earlier) rest

/-- Accept a manifest, or report its first problem. -/
def validate (manifest : Manifest) : Except ManifestProblem Unit :=
  if manifest.targets.isEmpty then .error .noTargets
  else if Text.isBlank manifest.toolchain.tool then .error .blankTool
  else checkTargets [] manifest.targets

def allTargets (manifest : Manifest) : List Target :=
  manifest.targets.map TargetEntry.target

def names (manifest : Manifest) : List String :=
  manifest.targets.map TargetEntry.name

/-- The named targets in declared order; no names at all stand for every target. -/
def select (manifest : Manifest) (wanted : List String) :
    Except UnknownTarget (List Target) :=
  if wanted.isEmpty then .ok manifest.allTargets
  else
    match wanted.find? fun name => !manifest.names.contains name with
    | some name => .error ⟨name, manifest.names⟩
    | none =>
        .ok ((manifest.targets.filter fun entry => wanted.contains entry.name).map
          TargetEntry.target)

/--
The toolchain of a project.  A tool of more than one path component is taken from the project root,
so that it does not move with the working directories of targets.
-/
def toolchainAt (manifest : Manifest) (projectRoot : Path) : Toolchain :=
  let tool := manifest.toolchain.tool
  if 1 < (Path.mk tool).components.length then
    { manifest.toolchain with tool := (projectRoot.join tool).text }
  else manifest.toolchain

end Manifest
end StagedBuild
