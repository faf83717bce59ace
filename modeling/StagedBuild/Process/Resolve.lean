import StagedBuild.FileTree.Walk

/-!
# Finding a tool

A tool of more than one path component is taken from the working directory; any other is looked for
in the directories of the search path, in order.  An entry of the search path may begin with `~`,
which stands for the home directory there and nowhere else.  The first candidate that is an
executable file is the answer, and its text is not normalised any further.
-/

namespace StagedBuild

structure SearchPath where
  /-- The directories in order, with `:` between them. -/
  text : String
  home : Option Path := none
  deriving DecidableEq, Repr

namespace Tool

/-- The tool is given by a path and not by a bare name. -/
def isPath (tool : String) : Bool :=
  decide (1 < (Path.mk tool).components.length)

/-- A relative path taken from `cwd`, without the `.` in front of it. -/
def anchor (cwd : Path) (path : Path) : Path :=
  if path.isAbsolute then path
  else cwd.joinAll (path.components.dropWhile (· == .current))

end Tool

namespace SearchPath

def homeMark : Component := .name "~"

/-- An entry with the home directory in place of the mark in front of it. -/
def expandHome (home : Option Path) (entry : Path) : Path :=
  match home, entry.components with
  | some home, first :: rest => if first = homeMark then home.joinAll rest else entry
  | _, _ => entry

/-- The directories in which a tool that runs in `cwd` is looked for, in order. -/
def directories (searchPath : SearchPath) (cwd : Path) : List Path :=
  (Text.fields ':' searchPath.text).map fun entry =>
    Tool.anchor cwd (expandHome searchPath.home ⟨entry⟩)

end SearchPath

namespace Tool

def candidates (searchPath : SearchPath) (cwd : Path) (tool : String) : List Path :=
  if isPath tool then [anchor cwd ⟨tool⟩]
  else (searchPath.directories cwd).map (·.join tool)

def isExecutableAt (tree : FileTree) (cwd : Location) (path : Path) : Bool :=
  match tree.locate cwd path with
  | .ok place =>
      match tree.file? place with
      | some file => file.executable
      | none => false
  | .error _ => false

/-- Find a tool that runs in `cwd`, for a process whose current directory is `processCwd`. -/
def resolve (searchPath : SearchPath) (tree : FileTree) (processCwd : Location) (tool : String)
    (cwd : Path) : Option Path :=
  (candidates searchPath cwd tool).find? (isExecutableAt tree processCwd)

end Tool
end StagedBuild
