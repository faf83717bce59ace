import StagedBuild.FileTree.Change
import StagedBuild.Process.Execute

/-!
# Scripted tools

A scripted tool writes lines, touches files and ends in a fixed way, all depending on its arguments
and on the directory it is started in.  Operations on files that fail are passed over, as by a tool
that does not check.
-/

namespace StagedBuild
namespace Rehearsal

/-- One step of a scripted tool. -/
inductive Step where
  | print (stream : Stream) (bytes : Bytes)
  /-- Write every argument in brackets on a line of its own. -/
  | printArgs (stream : Stream)
  | printDirectory (stream : Stream)
  /-- Write a line that says that standard input is at its end. -/
  | printInput (stream : Stream)
  | printLines (stream : Stream) (count : Nat) (text : String)
  | writeArtifact (content : Bytes)
  /-- Create a directory in place of the artifact. -/
  | makeArtifactDirectory
  | writeCompanion (name : String) (content : Bytes)
  | writeFile (path : Path) (content : Bytes)
  | removeArtifact
  /-- End with the exit code that the first `-fail:` argument asks for, if there is one. -/
  | failIfAsked
  | ifArgument (argument : String) (steps : List Step)
  | signal (number : Nat)
  | exit (code : Int)
  deriving Inhabited

structure Start where
  args : List String
  directory : Location

namespace Start

/-- The path that the last output argument names, empty without one. -/
def output (start : Start) : Path :=
  ⟨(Invocation.valueOf? Toolchain.outputFlag start.args.reverse).getD ""⟩

def directoryText (start : Start) : String :=
  "/" ++ String.intercalate "/" start.directory

end Start

/-- What a running script has done so far. -/
structure Progress where
  tree : FileTree
  /-- What was written, the newest first. -/
  written : List (Stream × Bytes) := []

namespace Progress

def write (progress : Progress) (stream : Stream) (bytes : Bytes) : Progress :=
  { progress with written := (stream, bytes) :: progress.written }

def writeLine (stream : Stream) (progress : Progress) (text : String) : Progress :=
  progress.write stream (Utf8.encode (text ++ "\n"))

/-- Take over a change to the files; one that fails leaves them as they are. -/
def change (progress : Progress) (tree? : Except IoError FileTree) : Progress :=
  match tree? with
  | .ok tree => { progress with tree := tree }
  | .error _ => progress

end Progress

def failFlag : String := "-fail:"

def exitCode (code : Int) : ExitStatus :=
  .exited (code % 256).toNat

/-- Signals that a process does not notice unless it asks to. -/
def ignoredSignals : List Nat := [17, 18, 23, 28]

def lastSignal : Nat := 64

def isFatal (number : Nat) : Bool :=
  decide (1 ≤ number ∧ number ≤ lastSignal) && !ignoredSignals.contains number

mutual

/-- Run one step; a status is the end of the script. -/
def Step.run (start : Start) (progress : Progress) : Step → Progress × Option ExitStatus
  | .print stream bytes => (progress.write stream bytes, none)
  | .printArgs stream =>
      ((start.args.map fun argument => "[" ++ argument ++ "]").foldl
        (Progress.writeLine stream) progress, none)
  | .printDirectory stream => (progress.writeLine stream start.directoryText, none)
  | .printInput stream => (progress.writeLine stream "eof", none)
  | .printLines stream count text =>
      (((List.range count).map fun index => text ++ " " ++ toString index).foldl
        (Progress.writeLine stream) progress, none)
  | .writeArtifact content =>
      (progress.change (progress.tree.writeFile start.directory start.output content), none)
  | .makeArtifactDirectory =>
      (progress.change
        ((progress.tree.makeDirectory start.directory start.output).map Prod.fst), none)
  | .writeCompanion name content =>
      (progress.change
        (progress.tree.writeFile start.directory (start.output.directory.join name) content),
        none)
  | .writeFile path content =>
      (progress.change (progress.tree.writeFile start.directory path content), none)
  | .removeArtifact =>
      (progress.change
        ((progress.tree.removeFile start.directory start.output).map Prod.fst), none)
  | .failIfAsked =>
      (progress,
        (Invocation.valueOf? failFlag start.args).map fun value => exitCode (value.toInt?.getD 0))
  | .ifArgument argument steps =>
      if start.args.contains argument then runSteps start progress steps else (progress, none)
  | .signal number => (progress, if isFatal number then some (.signalled number) else none)
  | .exit code => (progress, some (exitCode code))

def runSteps (start : Start) (progress : Progress) :
    List Step → Progress × Option ExitStatus
  | [] => (progress, none)
  | step :: rest =>
      match step.run start progress with
      | (progress, some status) => (progress, some status)
      | (progress, none) => runSteps start progress rest

end

/-- Run a whole script; one that does not end by itself ends in success. -/
def runScript (start : Start) (tree : FileTree) (steps : List Step) : Progress × ExitStatus :=
  match runSteps start { tree := tree } steps with
  | (progress, status) => (progress, status.getD (.exited 0))

end Rehearsal
end StagedBuild
