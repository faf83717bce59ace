import StagedBuild.Project.Build

/-!
# Cleaning a project

Cleaning removes the artifact and the companion files of every declared target, and then the staging
directory.  Everything else in the output directory stays.
-/

namespace StagedBuild

/-- Why cleaning stopped. -/
inductive CleanError where
  | file (path : Path) (error : IoError)
  | directory (path : Path) (error : IoError)
  deriving DecidableEq, Repr

namespace CleanError

def message : CleanError → String
  | file path error => "failed to remove " ++ path.text ++ ": " ++ error.message
  | directory path error =>
      "failed to remove directory: " ++ path.text ++ ": " ++ error.message

end CleanError

namespace Project

def removedLine (path : Path) : StatusLine :=
  ⟨.removed, path.text⟩

/-- Remove installed files, up to the first that cannot be removed. -/
def removeFiles : List Path → World → Except CleanError Unit × World
  | [], world => (.ok (), world)
  | path :: rest, world =>
      match world.removeFileIfExists path with
      | (.error error, world) => (.error (.file path error), world)
      | (.ok removed, world) =>
          removeFiles rest (if removed then world.emit [.status (removedLine path)] else world)

def removeStaging (path : Path) (world : World) : Except CleanError Unit × World :=
  match world.removeDirectoryIfExists path with
  | (.error error, world) => (.error (.directory path error), world)
  | (.ok removed, world) =>
      (.ok (), if removed then world.emit [.status (removedLine path)] else world)

/-- All files that builds of the project install, target by target. -/
def installedFiles (project : Project) (build : Build) : List Path :=
  project.manifest.allTargets.flatMap fun target =>
    (StagedArtifact.locate build.platform build.outDir target).installedFiles

/-- Remove what builds of the project have installed, and answer with the exit code. -/
def clean (project : Project) (runner : Runner) (platform : Platform) (world : World) :
    Except CleanError Int × World :=
  let build := project.toBuild runner platform
  match removeFiles (project.installedFiles build) world with
  | (.error error, world) => (.error error, world)
  | (.ok (), world) =>
      match removeStaging (StagedArtifact.stagingOf build.outDir) world with
      | (.error error, world) => (.error error, world)
      | (.ok (), world) => (.ok 0, world)

end Project
end StagedBuild
