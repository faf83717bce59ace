import StagedBuild.Build.Run
import StagedBuild.Process.Resolve

/-!
# Running a tool

A tool is looked up, launched once, relayed to its end on both streams, and then awaited exactly
once.  If reading a stream failed, the process is told to stop before it is awaited, since it may be
blocked on a pipe that nobody reads.  Every failure is folded into the result of the attempt.
-/

namespace StagedBuild

inductive ExitStatus where
  | exited (code : Nat)
  /-- It was ended by a signal, and may have left a core dump. -/
  | signalled (signal : Nat) (coreDumped : Bool := false)
  deriving DecidableEq, Repr

structure Command where
  program : Path
  args : List String
  cwd : Path
  deriving DecidableEq, Repr

/-- A launched process, as far as the one who launched it can tell. -/
structure Child where
  stdout : Option Pipe
  stderr : Option Pipe
  /-- The order in which the lines of both streams arrive. -/
  schedule : List Stream := []
  kill : Except IoError Unit := .ok ()
  /-- What awaiting it answers, given whether it was told to stop. -/
  wait : Bool → Except IoError ExitStatus
  milliseconds : Nat := 0

/-- Starts processes: the answer is a child and the file tree that it leaves, or an error. -/
structure Launcher where
  launch : FileTree → Location → Command → Except IoError (Child × FileTree)

/-- Runs tools as processes. -/
structure ProcessRunner where
  searchPath : SearchPath
  launcher : Launcher
  sink : Sink

namespace ProcessRunner

structure Execution where
  outcome : Except BuildError Unit
  tree : FileTree
  events : List ToolEvent
  milliseconds : Nat := 0

def announcement (invocation : Invocation) (program : Path) : String :=
  "running `" ++ invocation.display ++ "` in " ++ invocation.cwd.text
    ++ " (resolved to " ++ program.text ++ ")"

/-- The exit code that stands for the end by a signal. -/
def signalCode (signal : Nat) : Int := 128 + signal

def signalDetail (signal : Nat) (coreDumped : Bool) : String :=
  "signal " ++ toString signal ++ if coreDumped then ", core dumped" else ""

/-- The error of a relay that could not read its stream; only the kind of the cause is kept. -/
def readError (program : String) (stream : Stream) (error : IoError) : BuildError :=
  .io ("failed to read " ++ stream.name ++ " of `" ++ program ++ "`") (.bare error.kind)

def writeError (program : String) (stream : Stream) (error : IoError) : BuildError :=
  .io ("failed to relay " ++ stream.name ++ " of `" ++ program ++ "`") error

/-- The first relay that could not read its stream, standard output first. -/
def readFailure? (out err : RelayOutcome) : Option (Stream × IoError) :=
  match out.readFailure? with
  | some error => some (.stdout, error)
  | none => err.readFailure?.map (Prod.mk .stderr)

def writeFailure? (out err : RelayOutcome) : Option (Stream × IoError) :=
  match out.writeFailure? with
  | some error => some (.stdout, error)
  | none => err.writeFailure?.map (Prod.mk .stderr)

/--
The outcome of a process whose relays have ended: an error of waiting comes first, then a failed
read, then how the process ended, and last a refused line.
-/
def conclude (program : String) (out err : RelayOutcome) (status : Except IoError ExitStatus) :
    Except BuildError Unit :=
  match status with
  | .error error => .error (.io ("failed to wait for `" ++ program ++ "`") error)
  | .ok status =>
      match readFailure? out err with
      | some (stream, error) => .error (readError program stream error)
      | none =>
          match status with
          | .signalled signal coreDumped =>
              .error (.crashed program (signalCode signal) (signalDetail signal coreDumped))
          | .exited (code + 1) => .error (.toolExitedNonZero program (code + 1 : Nat))
          | .exited 0 =>
              match writeFailure? out err with
              | some (stream, error) => .error (writeError program stream error)
              | none => .ok ()

def attend (runner : ProcessRunner) (program : String) (child : Child) :
    Except BuildError Unit × List ToolEvent :=
  let (outLines, out) := Relay.run runner.sink .stdout child.stdout
  let (errLines, err) := Relay.run runner.sink .stderr child.stderr
  let killed := (readFailure? out err).isSome
  (conclude program out err (child.wait killed),
    (interleave child.schedule outLines errLines).map (fun (stream, line) => .line stream line)
      ++ [.relayed .stdout out, .relayed .stderr err]
      ++ (if killed then [.killed child.kill.isOk] else []) ++ [.waited])

def execute (runner : ProcessRunner) (tree : FileTree) (cwd : Location) (invocation : Invocation) :
    Execution :=
  match Tool.resolve runner.searchPath tree cwd invocation.program invocation.cwd with
  | none =>
      { outcome := .error (.toolNotFound invocation.program), tree := tree
        events := [.resolved invocation.program none] }
  | some program =>
      let before : List ToolEvent :=
        [.resolved invocation.program (some program),
          .log .debug (announcement invocation program)]
      match runner.launcher.launch tree cwd ⟨program, invocation.args, invocation.cwd⟩ with
      | .error error =>
          { outcome := .error (.spawnFailed invocation.program error), tree := tree
            events := before ++ [.launched program false] }
      | .ok (child, tree) =>
          let (outcome, events) := runner.attend invocation.program child
          { outcome := outcome, tree := tree
            events := before ++ .launched program true :: events
            milliseconds := child.milliseconds }

def run (runner : ProcessRunner) (tree : FileTree) (cwd : Location) (target : Target)
    (invocation : Invocation) : RunnerReport :=
  let execution := runner.execute tree cwd invocation
  match execution.outcome with
  | .ok () =>
      { result := .success target execution.milliseconds, tree := execution.tree
        events := execution.events }
  | .error error =>
      { result := .ofError target error execution.milliseconds, tree := execution.tree
        events := execution.events
          ++ [.log .debug ("target `" ++ target.name ++ "` failed: " ++ error.message)] }

/-- The runner with its sink as it stands after the lines that were taken so far. -/
def inWorld (runner : ProcessRunner) (world : World) : ProcessRunner :=
  { runner with sink := runner.sink.later (world.linesTaken .stdout) (world.linesTaken .stderr) }

/-- The runner of a build that runs its tools as processes, with one sink for all of them. -/
def toRunner (runner : ProcessRunner) : Runner where
  run world target invocation :=
    (runner.inWorld world).run world.tree world.cwd target invocation

end ProcessRunner
end StagedBuild
