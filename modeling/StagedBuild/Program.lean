import StagedBuild.CommandLine.Request
import StagedBuild.Console.Transcript
import StagedBuild.Process.Execute
import StagedBuild.Project.Clean

/-!
# The program

A run of the program reads its command line, finds the project, and lets the command act on it.  A
run is a function from the surroundings and a world to an exit code and the world afterwards; what
the user sees is read off the events of that world.
-/

namespace StagedBuild

/-- What a run is given besides the files. -/
structure Surroundings where
  words : List String
  tool : Option String := none
  platform : Platform := .unix
  /-- Standard error is a terminal. -/
  terminal : Bool := false

inductive ProgramError where
  | project (error : ProjectError)
  | selection (problem : UnknownTarget)
  | clean (error : CleanError)

namespace ProgramError

def message : ProgramError → String
  | project error => error.message
  | selection problem => problem.message
  | clean error => error.message

def exitCode : Int := 1

end ProgramError

inductive Outcome where
  | refused (error : CommandLine.UsageError)
  /-- The run came to an end with an exit code. -/
  | ended (exitCode : Int) (console : Console) (world : World)

namespace Program

open CommandLine (Options Action Request)

def versionText : String := "kiln 0.1.0"

def console (options : Options) (terminal : Bool) : Console where
  shell := Shell.ofChoice options.quiet (options.color.getD .auto) terminal
  verbose := options.verbose

/-- The project that the options and the environment ask for. -/
def project (options : Options) (tool : Option String) (world : World) :
    Except ProjectError Project × World :=
  match Project.discover options.manifestPath world with
  | (result, world) =>
      (result.map fun project =>
        (project.withTool (options.tool <|> tool)).withOutDir options.outDir, world)

def perform (action : Action) (project : Project) (runner : Runner) (platform : Platform)
    (world : World) : Except ProgramError Int × World :=
  match action with
  | .build targets =>
      let (result, world) := project.build runner platform targets world
      (result.mapError .selection, world)
  | .plan targets =>
      let (result, world) := project.plan runner platform targets world
      (result.mapError .selection, world)
  | .clean =>
      let (result, world) := project.clean runner platform world
      (result.mapError .clean, world)

/-- Find the project and let an action act on it. -/
def act (surroundings : Surroundings) (options : Options) (action : Action) (runner : Runner)
    (world : World) : Except ProgramError Int × World :=
  match project options surroundings.tool world with
  | (.error error, world) => (.error (.project error), world)
  | (.ok project, world) => perform action project runner surroundings.platform world

/-- Close a command: one that was given up says why. -/
def conclude : Except ProgramError Int × World → Int × World
  | (.ok code, world) => (code, world)
  | (.error error, world) => (ProgramError.exitCode, world.emit [.gaveUp error.message])

def run (surroundings : Surroundings) (runner : Runner) (world : World) : Outcome :=
  match Request.ofWords surroundings.words with
  | .error error => .refused error
  | .ok .version => .ended 0 {} (world.emit [.printed versionText])
  | .ok (.act options action) =>
      let (code, world) := conclude (act surroundings options action runner world)
      .ended code (console options surroundings.terminal) world

end Program
end StagedBuild
