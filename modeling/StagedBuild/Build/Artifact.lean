import StagedBuild.Build.Event

/-!
# Staged artifacts

A tool never writes to the final place of an artifact.  It writes into a staging directory inside
the output directory, and only after it has reported success are the artifact and the companion
files that it wrote beside it moved into place, the artifact last.
-/

namespace StagedBuild

/-- The places of an artifact. -/
structure StagedArtifact where
  path : Path
  stagingPath : Path
  outputName : String
  deriving DecidableEq, Repr

namespace StagedArtifact

def stagingName : String := ".kiln-staging"

/-- The extensions of companion files: import libraries, export files and debug information. -/
def companionExtensions : List String := ["lib", "exp", "pdb"]

def stagingOf (outDir : Path) : Path :=
  outDir.join stagingName

def locate (platform : Platform) (outDir : Path) (target : Target) : StagedArtifact where
  path := outDir.join (target.fileName platform)
  stagingPath := (stagingOf outDir).join (target.fileName platform)
  outputName := target.outputName

def outDir (artifact : StagedArtifact) : Path :=
  artifact.path.directory

def stagingDir (artifact : StagedArtifact) : Path :=
  artifact.stagingPath.directory

def companionName (outputName suffix : String) : String :=
  outputName ++ "." ++ suffix

/-- The artifact and every companion it may have where it is installed. -/
def installedFiles (artifact : StagedArtifact) : List Path :=
  artifact.path ::
    companionExtensions.map fun suffix =>
      artifact.outDir.join (companionName artifact.outputName suffix)

/--
Prepare the staging directory: create it, and remove what an earlier attempt left at the place where
the tool will write.  A file name that is not plain is refused before anything is touched.
-/
def prepare (platform : Platform) (outDir : Path) (target : Target) (world : World) :
    Except BuildError StagedArtifact × World :=
  let fileName := target.fileName platform
  if !Path.isPlainName fileName then
    (.error (.io ("artifact name `" ++ fileName ++ "` of target `" ++ target.name
        ++ "` is not a plain file name") (.bare .invalidInput)), world)
  else
    match Path.absoluteFrom world.cwdPath outDir with
    | .error error =>
        (.error (.io ("failed to resolve output directory `" ++ outDir.text ++ "`") error), world)
    | .ok outDir =>
        let artifact := locate platform outDir target
        let staging := stagingOf outDir
        match world.ensureDirectory staging with
        | (.error error, world) =>
            (.error (.io ("failed to create directory `" ++ staging.text ++ "`") error), world)
        | (.ok (), world) =>
            match world.removeFileIfExists artifact.stagingPath with
            | (.error error, world) =>
                (.error (.io ("failed to remove stale staged artifact `"
                  ++ artifact.stagingPath.text ++ "`") error), world)
            | (.ok _, world) => (.ok artifact, world)

def isCompanionName (outputName fileName : String) : Bool :=
  match FileName.stemAndExtension fileName with
  | (stem, some suffix) => stem == outputName && companionExtensions.contains suffix
  | (_, none) => false

/-- The companion files that are staged beside the artifact, sorted. -/
def companions (artifact : StagedArtifact) (tree : FileTree) (cwd : Location) :
    Except IoError (List Path) := do
  let directory := artifact.stagingDir
  let names ← tree.readDirectory cwd directory
  let chosen := names.filter fun name =>
    let path := directory.join name
    !path.sameComponents artifact.stagingPath && tree.isFileAt cwd path
      && isCompanionName artifact.outputName name
  .ok ((chosen.mergeSort fun left right => !decide (right < left)).map directory.join)

def promote (artifact : StagedArtifact) (staged : Path) (world : World) :
    Except BuildError Unit × World :=
  match staged.fileName? with
  | none => (.ok (), world)
  | some name =>
      let destination := artifact.outDir.join name
      match world.moveFile staged destination with
      | (.ok (), world) => (.ok (), world)
      | (.error error, world) =>
          (.error (.io ("failed to move `" ++ staged.text ++ "` to `" ++ destination.text ++ "`")
            error), world)

/-- Move staged files to where they are installed, up to the first that fails. -/
def promoteAll (artifact : StagedArtifact) : List Path → World → Except BuildError Unit × World
  | [], world => (.ok (), world)
  | staged :: rest, world =>
      match artifact.promote staged world with
      | (.ok (), world) => artifact.promoteAll rest world
      | (.error error, world) => (.error error, world)

/-- Move the companions and then the artifact to where they are installed. -/
def commit (artifact : StagedArtifact) (world : World) : Except BuildError Unit × World :=
  if !world.tree.isFileAt world.cwd artifact.stagingPath then
    (.error (.io ("toolchain reported success but wrote no artifact at `"
      ++ artifact.stagingPath.text ++ "`") (.bare .notFound)), world)
  else
    match artifact.companions world.tree world.cwd with
    | .error error =>
        (.error (.io ("failed to read directory `" ++ artifact.stagingDir.text ++ "`") error),
          world)
    | .ok companions =>
        match artifact.promoteAll (companions ++ [artifact.stagingPath]) world with
        | (.ok (), world) => (.ok (), world.debug ("committed " ++ artifact.path.text))
        | (.error error, world) => (.error error, world)

def discardOne (world : World) (path : Path) : World :=
  match world.removeFileIfExists path with
  | (.ok _, world) => world
  | (.error error, world) =>
      world.emit [.log .warn ("failed to remove " ++ path.text ++ ": " ++ error.message)]

/-- Remove what a failed attempt left in staging: the companions and the artifact. -/
def discard (artifact : StagedArtifact) (world : World) : World :=
  let companions := (artifact.companions world.tree world.cwd).toOption.getD []
  (companions ++ [artifact.stagingPath]).foldl discardOne world

end StagedArtifact
end StagedBuild
