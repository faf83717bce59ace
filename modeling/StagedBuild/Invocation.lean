import StagedBuild.Target

/-!
# Toolchain invocations

Every target is built by `tool subcommand source-root -out:artifact`, followed by the library
arguments of the toolchain if the target is a library, and by the arguments of the target.
-/

namespace StagedBuild

structure Invocation where
  /-- The program as it is named, before it is searched for. -/
  program : String
  args : List String
  cwd : Path
  deriving DecidableEq, Repr

namespace Invocation

/-- The command as it is shown: program and arguments separated by one space. -/
def display (invocation : Invocation) : String :=
  String.intercalate " " (invocation.program :: invocation.args)

def withArgs (invocation : Invocation) (args : List String) : Invocation :=
  { invocation with args := invocation.args ++ args }

/-- What follows `flag` in the first argument that starts with it. -/
def valueOf? (flag : String) (args : List String) : Option String :=
  args.findSome? fun argument =>
    if flag.toList.isPrefixOf argument.toList then
      some (String.ofList (argument.toList.drop flag.length))
    else none

end Invocation

structure Toolchain where
  /-- The tool, a name to search for or a path. -/
  tool : String
  subcommand : String
  libraryArgs : List String := []
  deriving DecidableEq, Repr

namespace Toolchain

def odin : Toolchain := ⟨"odin", "build", ["-build-mode:dynamic"]⟩

/-- What stands in front of the path that a tool is told to write. -/
def outputFlag : String := "-out:"

def invocation (toolchain : Toolchain) (target : Target) (output cwd : Path) : Invocation where
  program := toolchain.tool
  args :=
    [toolchain.subcommand, target.sourceRoot.text, outputFlag ++ output.text]
      ++ (if target.kind.isLibrary then toolchain.libraryArgs else [])
      ++ target.extraArgs
  cwd := cwd

end Toolchain
end StagedBuild
