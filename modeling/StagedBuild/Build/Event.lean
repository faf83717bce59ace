import StagedBuild.Build.Result
import StagedBuild.FileTree.Change
import StagedBuild.Invocation
import StagedBuild.Process.Relay

/-!
# Events and worlds

Whatever a run does leaves an event, in order: log messages, steps of the build, what happened
around a tool, changes to files, and lines for the user.  A world is a file tree with the current
directory and the events so far; what a user sees and what a run touched are both read off the
events.
-/

namespace StagedBuild

inductive LogLevel where
  | debug
  | warn
  deriving DecidableEq, Repr

inductive Status where
  | built
  | finished
  | removed
  | building
  | error
  deriving DecidableEq, Repr

structure StatusLine where
  status : Status
  message : String
  deriving DecidableEq, Repr

inductive BuildState where
  | pending
  | running (index : Nat)
  | failed (index : Nat)
  | succeeded
  deriving DecidableEq, Repr

namespace BuildState

def isTerminal : BuildState → Bool
  | failed _ | succeeded => true
  | _ => false

def label : BuildState → String
  | pending => "Pending"
  | running index => "Running(" ++ toString index ++ ")"
  | failed index => "Failed(" ++ toString index ++ ")"
  | succeeded => "Succeeded"

end BuildState

/-- What happens around one run of a tool. -/
inductive ToolEvent where
  | log (level : LogLevel) (message : String)
  | resolved (tool : String) (program : Option Path)
  | launched (program : Path) (started : Bool)
  | line (stream : Stream) (bytes : Bytes)
  | relayed (stream : Stream) (outcome : RelayOutcome)
  /-- The process was told to stop, and may have been beyond reach. -/
  | killed (reached : Bool)
  | waited
  deriving DecidableEq, Repr

/-- What happens in a run of the program. -/
inductive Event where
  | log (level : LogLevel) (message : String)
  | state (before after : BuildState)
  /-- An artifact is in place to be built. -/
  | started (target : Target) (artifact : Path)
  | called (target : Target) (invocation : Invocation)
  | tool (event : ToolEvent)
  | finished (result : BuildResult)
  /-- The program itself changed a file. -/
  | changed (change : Change)
  | status (line : StatusLine)
  | printed (text : String)
  | gaveUp (message : String)
  deriving DecidableEq, Repr

def Event.isLineOf (stream : Stream) : Event → Bool
  | .tool (.line other _) => other == stream
  | _ => false

/-- A file tree with the events so far. -/
structure World where
  tree : FileTree
  cwd : Location
  trace : List Event := []

namespace World

def cwdPath (world : World) : Path :=
  ⟨"/" ++ String.intercalate "/" world.cwd⟩

/-- How many lines of a stream were taken so far. -/
def linesTaken (world : World) (stream : Stream) : Nat :=
  (world.trace.filter (Event.isLineOf stream)).length

def emit (world : World) (events : List Event) : World :=
  { world with trace := world.trace ++ events }

def debug (world : World) (message : String) : World :=
  world.emit [.log .debug message]

def change (world : World) (tree : FileTree) (changes : List Change) : World :=
  { world with tree := tree, trace := world.trace ++ changes.map .changed }

/-- Create a directory and the missing ones above it. -/
def ensureDirectory (world : World) (path : Path) : Except IoError Unit × World :=
  match world.tree.ensureDirectory world.cwd path with
  | (tree, changes, result) => (result, world.change tree changes)

/-- Remove a file if it is there, and say whether it was. -/
def removeFileIfExists (world : World) (path : Path) : Except IoError Bool × World :=
  match world.tree.removeFile world.cwd path with
  | .ok (tree, place) => (.ok true, world.change tree [.removedFile place])
  | .error error =>
      if error.kind == .notFound then (.ok false, world) else (.error error, world)

/-- Remove a directory with everything in it if it is there, and say whether it was. -/
def removeDirectoryIfExists (world : World) (path : Path) : Except IoError Bool × World :=
  match world.tree.removeDirectory world.cwd path with
  | (tree, changes, .ok ()) => (.ok true, world.change tree changes)
  | (tree, changes, .error error) =>
      if error.kind == .notFound then (.ok false, world.change tree changes)
      else (.error error, world.change tree changes)

def moveFile (world : World) (source destination : Path) : Except IoError Unit × World :=
  match world.tree.moveFile world.cwd source destination with
  | .ok (tree, sourcePlace, targetPlace) =>
      (.ok (), world.change tree [.movedFile sourcePlace targetPlace])
  | .error error => (.error error, world)

end World
end StagedBuild
