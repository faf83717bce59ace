import StagedBuild.Build.Artifact

/-!
# Building targets in order

Targets are attempted one after the other in the order given, and the first failure ends the run.
An attempt prepares the place of the artifact, runs the tool through a runner, and then either
installs what was staged or removes it.  The runner may do anything to the file tree; it answers
with a result and adds its own events.
-/

namespace StagedBuild

structure RunnerReport where
  result : BuildResult
  tree : FileTree
  events : List ToolEvent := []

/-- Runs a tool for a target; the answer may depend on everything that happened before. -/
structure Runner where
  run : World → Target → Invocation → RunnerReport

structure Observer where
  /-- Called once the place of an artifact is prepared, before the tool runs. -/
  onStart : Target → Path → List StatusLine
  onFinish : BuildResult → List StatusLine

namespace Observer

def silent : Observer := ⟨fun _ _ => [], fun _ => []⟩

end Observer

structure BuildStatus where
  succeeded : Bool
  /-- One result for each attempted target, in order. -/
  results : List BuildResult
  state : BuildState
  deriving DecidableEq, Repr

namespace BuildStatus

def failed? (status : BuildStatus) : Option BuildResult :=
  status.results.find? fun result => !result.succeeded

/-- The exit code of the process: that of the failed target when a process can have it, else one. -/
def exitCode (status : BuildStatus) : Int :=
  match status.failed? with
  | none => 0
  | some result => if 1 ≤ result.exitCode ∧ result.exitCode ≤ 255 then result.exitCode else 1

end BuildStatus

/-- Everything that a run needs apart from its targets. -/
structure Build where
  runner : Runner
  platform : Platform
  toolchain : Toolchain
  /-- Where working directories start. -/
  projectRoot : Path
  outDir : Path
  observer : Observer

namespace Build

/-- The usual build of a project: the Odin toolchain, installing into `bin`. -/
def ofRoot (runner : Runner) (platform : Platform) (projectRoot : Path) : Build where
  runner := runner
  platform := platform
  toolchain := .odin
  projectRoot := projectRoot
  outDir := projectRoot.join "bin"
  observer := .silent

def withToolchain (build : Build) (toolchain : Toolchain) : Build :=
  { build with toolchain := toolchain }

/-- The build with an output directory, taken from the project root when it is relative. -/
def withOutDir (build : Build) (outDir : Path) : Build :=
  { build with outDir := build.projectRoot.join outDir.text }

def withObserver (build : Build) (observer : Observer) : Build :=
  { build with observer := observer }

def workingDir (build : Build) (target : Target) : Path :=
  match target.workingDir with
  | some directory => build.projectRoot.join directory.text
  | none => build.projectRoot

def invocation (build : Build) (target : Target) (artifact : StagedArtifact) : Invocation :=
  build.toolchain.invocation target artifact.stagingPath (build.workingDir target)

/-- The invocations of a run in which no target fails. -/
def plan (build : Build) (targets : List Target) : List Invocation :=
  targets.map fun target =>
    build.invocation target (StagedArtifact.locate build.platform build.outDir target)

def call (build : Build) (target : Target) (invocation : Invocation) (world : World) :
    BuildResult × World :=
  let world := world.emit [.called target invocation]
  let report := build.runner.run world target invocation
  (report.result, { world with tree := report.tree }.emit (report.events.map .tool))

def attempt (build : Build) (target : Target) (world : World) : BuildResult × World :=
  match StagedArtifact.prepare build.platform build.outDir target world with
  | (.error error, world) => (.ofError target error 0, world)
  | (.ok artifact, world) =>
      let world := world.emit
        (.started target artifact.path
          :: (build.observer.onStart target artifact.path).map .status)
      match build.call target (build.invocation target artifact) world with
      | (result, world) =>
          if !result.succeeded then (result, artifact.discard world)
          else
            match artifact.commit world with
            | (.ok (), world) => (result, world)
            | (.error error, world) => (.ofError target error result.milliseconds, world)

def transition (before after : BuildState) (world : World) : World :=
  world.emit [.state before after]

/-- Attempt the targets that are left, the first of which has the given index. -/
def runFrom (build : Build) : Nat → BuildState → List Target → World →
    List BuildResult × Bool × BuildState × World
  | _, state, [], world => ([], true, .succeeded, transition state .succeeded world)
  | index, state, target :: rest, world =>
      match build.attempt target (transition state (.running index) world) with
      | (result, world) =>
          let world := world.emit
            (.finished result :: (build.observer.onFinish result).map .status)
          if !result.succeeded then
            ([result], false, .failed index,
              transition (.running index) (.failed index) world)
          else
            match build.runFrom (index + 1) (.running index) rest world with
            | (results, succeeded, state, world) => (result :: results, succeeded, state, world)

/-- Attempt the targets in order, up to the first failure. -/
def runAll (build : Build) (targets : List Target) (world : World) : BuildStatus × World :=
  match build.runFrom 0 .pending targets world with
  | (results, succeeded, state, world) => (⟨succeeded, results, state⟩, world)

end Build
end StagedBuild
