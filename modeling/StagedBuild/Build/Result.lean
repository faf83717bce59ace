import StagedBuild.IoError.Basic
import StagedBuild.Target

/-!
# Results of attempts

An attempt at a target succeeds or fails for one of five kinds of reasons.  A failure keeps its
cause until it is folded into a result, where the kind, a diagnostic and an exit code remain.
-/

namespace StagedBuild

inductive FailureKind where
  | toolNotFound
  | spawnFailed
  /-- Files or pipes around the tool failed. -/
  | io
  | toolExitedNonZero
  | crashed
  deriving DecidableEq, Repr

namespace FailureKind

def name : FailureKind → String
  | toolNotFound => "tool-not-found"
  | spawnFailed => "spawn-failed"
  | io => "io"
  | toolExitedNonZero => "tool-exited-non-zero"
  | crashed => "crashed"

end FailureKind

/-- Why a target failed. -/
inductive BuildError where
  | toolNotFound (tool : String)
  | spawnFailed (program : String) (source : IoError)
  | io (context : String) (source : IoError)
  | toolExitedNonZero (program : String) (code : Int)
  | crashed (program : String) (code : Int) (detail : String)
  deriving DecidableEq, Repr

namespace BuildError

/-- The exit code of a failure without one of its own. -/
def noExitCode : Int := -1

def kind : BuildError → FailureKind
  | toolNotFound _ => .toolNotFound
  | spawnFailed _ _ => .spawnFailed
  | io _ _ => .io
  | toolExitedNonZero _ _ => .toolExitedNonZero
  | crashed _ _ _ => .crashed

/-- The exit code recorded for a failure. -/
def exitCode : BuildError → Int
  | toolExitedNonZero _ code => code
  | crashed _ code _ => code
  | _ => noExitCode

def source? : BuildError → Option IoError
  | spawnFailed _ source => some source
  | io _ source => some source
  | _ => none

def message : BuildError → String
  | toolNotFound tool => "`" ++ tool ++ "` was not found; ensure it is installed and on PATH"
  | spawnFailed program source => "failed to spawn `" ++ program ++ "`: " ++ source.message
  | io context source => context ++ ": " ++ source.message
  | toolExitedNonZero program code => "`" ++ program ++ "` failed with exit code " ++ toString code
  | crashed program _ detail => "`" ++ program ++ "` terminated abnormally (" ++ detail ++ ")"

end BuildError

/-- What remains of a failure in a result. -/
structure BuildFailure where
  kind : FailureKind
  diagnostic : String
  deriving DecidableEq, Repr

/-- The outcome of one attempt at a target. -/
structure BuildResult where
  target : Target
  /-- Zero, the exit code of the tool, or a code that stands for none. -/
  exitCode : Int
  succeeded : Bool
  milliseconds : Nat
  failure : Option BuildFailure
  deriving DecidableEq, Repr

namespace BuildResult

def success (target : Target) (milliseconds : Nat) : BuildResult :=
  ⟨target, 0, true, milliseconds, none⟩

def ofError (target : Target) (error : BuildError) (milliseconds : Nat) : BuildResult :=
  ⟨target, error.exitCode, false, milliseconds, some ⟨error.kind, error.message⟩⟩

def kind? (result : BuildResult) : Option FailureKind :=
  result.failure.map BuildFailure.kind

def diagnostic? (result : BuildResult) : Option String :=
  result.failure.map BuildFailure.diagnostic

end BuildResult
end StagedBuild
