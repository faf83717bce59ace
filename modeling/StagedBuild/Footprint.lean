import StagedBuild.Program

/-!
# The places that a run looks at

A run sees only the files that its world holds.  These are the paths that have to be in the world
for a run to answer as it would with all files there, and the way to put what is found at a path
into a tree.
-/

namespace StagedBuild

namespace FileTree

/-- The locations that the prefixes of a path lead to, the shortest prefix first. -/
def prefixPlaces (cwd : Location) (path : Path) : List Location :=
  let step (done : List Location × Location) (segment : String) : List Location × Location :=
    let place :=
      if Path.isTrivial segment then done.2
      else if segment == ".." then done.2.dropLast
      else done.2 ++ [segment]
    (place :: done.1, place)
  (path.segments.foldl step ([], origin cwd path)).1.reverse

/-- Put an entry at the place of a path, and directories on the way to it. -/
def note (tree : FileTree) (cwd : Location) (path : Path) (entry : Entry) : FileTree :=
  match (prefixPlaces cwd path).reverse with
  | [] => tree
  | last :: before =>
      let put (tree : FileTree) (place : Location) (entry : Entry) : FileTree :=
        if place.isEmpty then tree else tree.insert place entry
      put (before.reverse.foldl (fun tree place => put tree place .directory) tree) last entry

end FileTree

namespace Project

/-- The paths of a target that a build or a cleaning looks at. -/
def targetPaths (build : Build) (searchPath : SearchPath) (target : Target) : List Path :=
  let artifact := StagedArtifact.locate build.platform build.outDir target
  let staged := StagedArtifact.companionExtensions.map fun suffix =>
    artifact.stagingDir.join (StagedArtifact.companionName artifact.outputName suffix)
  let tools := Tool.candidates searchPath (build.workingDir target) build.toolchain.tool
  build.workingDir target :: artifact.stagingPath :: artifact.installedFiles ++ staged ++ tools

def paths (project : Project) (build : Build) (searchPath : SearchPath) : List Path :=
  build.outDir :: StagedArtifact.stagingOf build.outDir ::
    project.manifest.allTargets.flatMap (targetPaths build searchPath)

end Project

namespace Program

open CommandLine (Options Action Request)

/-- The path of the manifest that the options ask for. -/
def manifestPath (options : Options) (world : World) : Path :=
  match options.manifestPath with
  | some path => (Path.absoluteFrom world.cwdPath path).toOption.getD path
  | none => world.cwdPath.join Manifest.fileName

/-- The path that a run looks at to find its project. -/
def firstPaths (surroundings : Surroundings) (world : World) : List Path :=
  match Request.ofWords surroundings.words with
  | .ok (.act options _) => [manifestPath options world]
  | _ => []

/-- The paths that a run looks at once its manifest is known. -/
def laterPaths (surroundings : Surroundings) (searchPath : SearchPath) (runner : Runner)
    (world : World) : List Path :=
  match Request.ofWords surroundings.words with
  | .ok (.act options _) =>
      match (project options surroundings.tool world).1 with
      | .ok project => project.paths (project.toBuild runner surroundings.platform) searchPath
      | .error _ => []
  | _ => []

end Program
end StagedBuild
