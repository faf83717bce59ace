import StagedBuild.Rehearsal.Script

/-!
# Launching scripted tools

A stage knows the scripts of tools by the contents of their files.  Launching a command on it checks
what the system checks when it starts a program, runs the script to its end, and hands over pipes
that hold everything the script has written.
-/

namespace StagedBuild
namespace Rehearsal

/-- What the launcher hands over of a stream. -/
inductive PipeMode where
  | connected
  | missing
  /-- A pipe from which nothing can be read. -/
  | unreadable
  deriving DecidableEq, Repr

/-- A place where scripted tools are launched. -/
structure Stage where
  scripts : List (Bytes × List Step)
  /-- The error with which every launch is refused, if it is. -/
  refusal : Option IoError := none
  mode : Stream → PipeMode := fun _ => .connected

namespace Stage

def interpreterMark : Bytes := Utf8.encode "#!"

/-- The script that a file stands for; the interpreters of other files do not exist. -/
def script? (stage : Stage) (content : Bytes) : Except Errno (List Step) :=
  match stage.scripts.find? fun item => item.1 == content with
  | some (_, steps) => .ok steps
  | none => .error (if interpreterMark.isPrefixOf content then .noEntry else .badExecutable)

def hasNul (text : String) : Bool :=
  text.toList.contains (Char.ofNat 0)

/-- The script that a command starts, and the directory it starts in. -/
def checkStart (stage : Stage) (tree : FileTree) (cwd : Location) (command : Command) :
    Except IoError (List Step × Location) := do
  if (command.program.text :: command.cwd.text :: command.args).any hasNul then
    .error .nulInCommand
  else
    let directory ← tree.locate cwd command.cwd
    if !tree.isDirectory directory then .error (.system .notDirectory)
    else
      let place ← tree.locate directory command.program
      match tree.file? place with
      | none => .error (.system .noPermission)
      | some file =>
          if !file.executable then .error (.system .noPermission)
          else
            let steps ← (stage.script? file.content).mapError .system
            .ok (steps, directory)

def piecesOf (stream : Stream) (written : List (Stream × Bytes)) : List PipeRead :=
  written.filterMap fun piece => if piece.1 == stream then some (.chunk piece.2) else none

def pipe? (stage : Stage) (stream : Stream) (written : List (Stream × Bytes)) : Option Pipe :=
  match stage.mode stream with
  | .connected => some { reads := piecesOf stream written }
  | .missing => none
  | .unreadable => some { reads := [], failure := some (.system .isDirectory) }

/-- The streams of the lines that were completed, in order. -/
def schedule (written : List (Stream × Bytes)) : List Stream :=
  written.flatMap fun piece =>
    List.replicate (piece.2.count Lines.newline) piece.1

/-- The child of a script that has ended. -/
def child (stage : Stage) (progress : Progress) (status : ExitStatus) : Child :=
  let written := progress.written.reverse
  { stdout := stage.pipe? .stdout written
    stderr := stage.pipe? .stderr written
    schedule := schedule written
    wait := fun _ => .ok status }

def launch (stage : Stage) (tree : FileTree) (cwd : Location) (command : Command) :
    Except IoError (Child × FileTree) :=
  match stage.refusal with
  | some error => .error error
  | none => do
      let (steps, directory) ← stage.checkStart tree cwd command
      let (progress, status) := runScript ⟨command.args, directory⟩ tree steps
      .ok (stage.child progress status, progress.tree)

def launcher (stage : Stage) : Launcher := ⟨stage.launch⟩

end Stage
end Rehearsal
end StagedBuild
