import StagedBuild.Path

/-!
# Targets

A target is one call of the toolchain that produces one artifact, a dynamic library or an
executable.  The file name of the artifact is its output name followed by the suffix that the
platform gives to its kind.
-/

namespace StagedBuild

/-- Families of platforms that agree on file suffixes. -/
inductive Platform where
  | windows
  | darwin
  | unix
  deriving DecidableEq, Repr

inductive TargetKind where
  | library
  | executable
  deriving DecidableEq, Repr

namespace Platform

/-- The family of an operating system; whatever is not known otherwise counts as Unix. -/
def ofSystem (system : String) : Platform :=
  if system == "windows" then .windows
  else if system == "macos" || system == "ios" || system == "darwin" then .darwin
  else .unix

def name : Platform → String
  | windows => "windows"
  | darwin => "darwin"
  | unix => "unix"

def all : List Platform := [windows, darwin, unix]

end Platform

namespace TargetKind

/-- The suffix of an artifact, with its dot. -/
def suffix : TargetKind → Platform → String
  | library, .windows => ".dll"
  | library, .darwin => ".dylib"
  | library, .unix => ".so"
  | executable, .windows => ".exe"
  | executable, .darwin => ""
  | executable, .unix => ""

def fileName (kind : TargetKind) (name : String) (platform : Platform) : String :=
  name ++ kind.suffix platform

def isLibrary : TargetKind → Bool
  | library => true
  | executable => false

def name : TargetKind → String
  | library => "library"
  | executable => "executable"

def libraryWords : List String := ["dylib", "lib", "library", "shared"]

def executableWords : List String := ["bin", "exe", "executable"]

def ofWord? (word : String) : Option TargetKind :=
  if word ∈ libraryWords then some .library
  else if word ∈ executableWords then some .executable
  else none

end TargetKind

structure Target where
  name : String
  kind : TargetKind
  /-- Where the sources are, for the tool to interpret. -/
  sourceRoot : Path
  /-- The name of the artifact without its suffix. -/
  outputName : String
  extraArgs : List String := []
  /-- The directory to run the tool in, from the project root. -/
  workingDir : Option Path := none
  deriving DecidableEq, Repr

namespace Target

/-- A target whose artifact is named after it. -/
def named (name : String) (kind : TargetKind) (sourceRoot : Path) : Target :=
  { name := name, kind := kind, sourceRoot := sourceRoot, outputName := name }

def withOutputName (target : Target) (outputName : String) : Target :=
  { target with outputName := outputName }

def withExtraArgs (target : Target) (args : List String) : Target :=
  { target with extraArgs := target.extraArgs ++ args }

def withWorkingDir (target : Target) (directory : Path) : Target :=
  { target with workingDir := some directory }

def fileName (target : Target) (platform : Platform) : String :=
  target.kind.fileName target.outputName platform

end Target
end StagedBuild
