import StagedBuild.Footprint

/-!
# The command line

The outer layer looks at the files that a run needs, lets the run happen on them, and then carries
out its changes and shows its outputs.  It starts no processes, so a build ends where its first tool
would be launched.
-/

namespace StagedBuild
namespace Main

/-- The runner of this layer: it finds tools but starts none. -/
def runner (searchPath : SearchPath) : ProcessRunner where
  searchPath := searchPath
  launcher := ⟨fun _ _ _ => .error (.custom .other "starting processes is not supported")⟩
  sink := .accepting

def probe (path : Path) : IO (Option Entry) := do
  try
    let bytes ← IO.FS.readBinFile path.text
    return some (.file ⟨bytes.toList, true⟩)
  catch error =>
    match error with
    | .inappropriateType .. => return some .directory
    | _ => return none

/-- The world with what is at some paths. -/
def observe (world : World) (paths : List Path) : IO World := do
  let mut tree := world.tree
  for path in paths do
    match ← probe path with
    | some entry => tree := tree.note world.cwd path entry
    | none => pure ()
  return { world with tree := tree }

/-- A location as the system takes it. -/
def placeText (place : Location) : String :=
  "/" ++ String.intercalate "/" place

/-- Carry out a change. -/
def carryOut : Change → IO Unit
  | .createdDirectory place => IO.FS.createDir (placeText place)
  | .removedFile place => IO.FS.removeFile (placeText place)
  | .movedFile source destination => IO.FS.rename (placeText source) (placeText destination)
  | .removedDirectory place => IO.FS.removeDirAll (placeText place)
  | .emptiedDirectory place => do
      IO.FS.removeDirAll (placeText place)
      IO.FS.createDir (placeText place)

def put (stream : IO.FS.Stream) (bytes : Bytes) : IO Unit := do
  stream.write (ByteArray.mk bytes.toArray)
  stream.flush

/-- Show the outputs of a run and carry out its changes. -/
def finish (console : Console) (world : World) : IO Unit := do
  for event in world.trace do
    match event with
    | .changed change => carryOut change
    | _ => pure ()
  put (← IO.getStdout) (Console.stdout world.trace)
  put (← IO.getStderr) (console.stderr world.trace)

/-- The world of a process in a directory, with nothing in it yet. -/
def emptyWorld (directory : String) : World :=
  let place := (Path.mk directory).segments.filter (· != "")
  { tree := FileTree.empty.note [] ⟨directory⟩ .directory, cwd := place }

end Main
end StagedBuild

open StagedBuild in
def main (words : List String) : IO UInt32 := do
  let searchPath : SearchPath :=
    { text := (← IO.getEnv "PATH").getD "", home := (← IO.getEnv "HOME").map StagedBuild.Path.mk }
  let surroundings : Surroundings := { words := words, tool := ← IO.getEnv "KILN_TOOL" }
  let runner := (Main.runner searchPath).toRunner
  let world := Main.emptyWorld (toString (← IO.currentDir))
  let world ← Main.observe world (Program.firstPaths surroundings world)
  let world ← Main.observe world (Program.laterPaths surroundings searchPath runner world)
  match Program.run surroundings runner world with
  | .refused error =>
      Main.put (← IO.getStderr) (Utf8.encode ("error: " ++ error.message ++ "\n"))
      return UInt32.ofNat CommandLine.UsageError.exitCode.toNat
  | .ended code console world =>
      Main.finish console world
      return UInt32.ofNat code.toNat
