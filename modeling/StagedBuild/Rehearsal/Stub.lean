import StagedBuild.Build.Run

/-!
# Stubs for runners

A stub stands for the run of a tool without any process: it leaves some files where the tool would,
removes others, and answers with a result that is fixed for each target.
-/

namespace StagedBuild
namespace Rehearsal

/-- What a stub leaves in place of the artifact. -/
inductive StubArtifact where
  | absent
  | directory
  | file
  deriving DecidableEq, Repr

/-- A stub for one target. -/
structure Stub where
  companions : List (String × Bytes) := []
  removals : List Path := []
  artifact : StubArtifact := .file
  error : Option BuildError := none

namespace Stub

/-- The path that the first output argument names, empty without one. -/
def output (invocation : Invocation) : Path :=
  ⟨(Invocation.valueOf? Toolchain.outputFlag invocation.args).getD ""⟩

/-- The tree after a change, or as it was if the change failed. -/
def orUnchanged (tree : FileTree) (changed : Except IoError FileTree) : FileTree :=
  match changed with
  | .ok tree => tree
  | .error _ => tree

def remove (cwd : Location) (tree : FileTree) (path : Path) : FileTree :=
  match tree.removeFile cwd path with
  | .ok (tree, _) => tree
  | .error _ => (tree.removeDirectory cwd path).1

def leaveArtifact (stub : Stub) (cwd : Location) (target : Target) (output : Path)
    (tree : FileTree) : FileTree :=
  match stub.artifact with
  | .absent => tree
  | .directory => orUnchanged tree ((tree.makeDirectory cwd output).map Prod.fst)
  | .file => orUnchanged tree (tree.writeFile cwd output (Utf8.encode target.name))

def effect (stub : Stub) (cwd : Location) (target : Target) (output : Path) (tree : FileTree) :
    FileTree :=
  let tree := stub.companions.foldl (fun tree companion =>
    orUnchanged tree (tree.writeFile cwd (output.directory.join companion.1) companion.2)) tree
  stub.leaveArtifact cwd target output (stub.removals.foldl (remove cwd) tree)

def result (stub : Stub) (target : Target) : BuildResult :=
  match stub.error with
  | some error => .ofError target error 0
  | none => .success target 0

end Stub

/-- The runner that looks up the stub of each target by name. -/
def stubRunner (stubs : List (String × Stub)) : Runner where
  run world target invocation :=
    let stub := ((stubs.find? fun item => item.1 == target.name).map Prod.snd).getD {}
    { result := stub.result target
      tree := stub.effect world.cwd target (Stub.output invocation) world.tree }

end Rehearsal
end StagedBuild
