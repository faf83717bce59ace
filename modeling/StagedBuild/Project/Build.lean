import StagedBuild.Console.Shell
import StagedBuild.Duration
import StagedBuild.Project.Basic
import StagedBuild.Build.Run

/-!
# Building and planning a project

A build attempts the selected targets in order and reports its progress in status lines.  A plan
prints the commands that such a build would run.  Both act on nothing when a target is not declared.
-/

namespace StagedBuild
namespace Project

def toBuild (project : Project) (runner : Runner) (platform : Platform) : Build :=
  ((Build.ofRoot runner platform project.root).withToolchain project.toolchain).withOutDir
    project.outDir

def caption (target : Target) : String :=
  target.name ++ " (" ++ target.kind.name ++ ")"

/-- The status line about the start of an attempt; the artifact is shown from the project root. -/
def buildingLine (root : Path) (target : Target) (artifact : Path) : StatusLine :=
  ⟨.building, caption target ++ " -> " ++ ((artifact.stripBase? root).getD artifact).text⟩

def elapsed (milliseconds : Nat) : String :=
  (Duration.ofMilliseconds milliseconds).text

/-- The status line about the success of an attempt. -/
def builtLine (result : BuildResult) : StatusLine :=
  ⟨.built, result.target.name ++ " in " ++ elapsed result.milliseconds⟩

def observer (root : Path) : Observer where
  onStart target artifact := [buildingLine root target artifact]
  onFinish result := if result.succeeded then [builtLine result] else []

def failedLine (result : BuildResult) : StatusLine :=
  ⟨.error, "target `" ++ result.target.name ++ "` failed: "
    ++ result.diagnostic?.getD "unknown error"⟩

def totalMilliseconds (results : List BuildResult) : Nat :=
  results.foldl (fun total result => total + result.milliseconds) 0

def finishedLine (results : List BuildResult) : StatusLine :=
  ⟨.finished, toString results.length ++ " target(s) in "
    ++ elapsed (totalMilliseconds results)⟩

/-- The last status line of a build. -/
def closingLine (status : BuildStatus) : StatusLine :=
  match status.failed? with
  | some result => failedLine result
  | none => finishedLine status.results

/-- Build the named targets, or all, and answer with the exit code. -/
def build (project : Project) (runner : Runner) (platform : Platform) (names : List String)
    (world : World) : Except UnknownTarget Int × World :=
  match project.manifest.select names with
  | .error problem => (.error problem, world)
  | .ok targets =>
      let build := (project.toBuild runner platform).withObserver (observer project.root)
      let (status, world) := build.runAll targets world
      (.ok status.exitCode, world.emit [.status (closingLine status)])

def planLines (target : Target) (invocation : Invocation) : List String :=
  ["# " ++ caption target, "cd " ++ invocation.cwd.text ++ " && " ++ invocation.display]

/-- Print the invocations of a build of the named targets, or of all. -/
def plan (project : Project) (runner : Runner) (platform : Platform) (names : List String)
    (world : World) : Except UnknownTarget Int × World :=
  match project.manifest.select names with
  | .error problem => (.error problem, world)
  | .ok targets =>
      let invocations := (project.toBuild runner platform).plan targets
      let lines := (targets.zip invocations).flatMap fun item => planLines item.1 item.2
      (.ok 0, world.emit (lines.map .printed))

end Project
end StagedBuild
