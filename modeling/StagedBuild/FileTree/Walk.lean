import StagedBuild.FileTree.Basic

/-!
# Following a path through a file tree

A path is followed segment by segment from the root or from the current directory.  Every step needs
a directory to start from; `..` goes to the directory above, whatever the text in front of it says.
Changes to a tree look at the last segment apart, because it need not exist yet.
-/

namespace StagedBuild
namespace FileTree

def nameLimit : Nat := 255

/-- The number of bytes that a path may not reach. -/
def pathLimit : Nat := 4096

def step (tree : FileTree) (place : Location) (segment : String) : Except Errno Location :=
  if !tree.isDirectory place then .error .notDirectory
  else if Path.isTrivial segment then .ok place
  else if segment == ".." then .ok place.dropLast
  else if nameLimit < Utf8.size segment then .error .nameTooLong
  else if (tree.entry? (place ++ [segment])).isSome then .ok (place ++ [segment])
  else .error .noEntry

def walk (tree : FileTree) : Location → List String → Except Errno Location
  | place, [] => .ok place
  | place, segment :: rest => do tree.walk (← tree.step place segment) rest

/-- Refuse the paths that the system does not read. -/
def admissible (path : Path) : Except IoError Unit :=
  if path.text.toList.contains (Char.ofNat 0) then .error .nulInPath
  else if path.text == "" then .error (.system .noEntry)
  else if pathLimit ≤ Utf8.size path.text then .error (.system .nameTooLong)
  else .ok ()

def origin (cwd : Location) (path : Path) : Location :=
  if path.isAbsolute then [] else cwd

/-- The existing location that a path leads to. -/
def locate (tree : FileTree) (cwd : Location) (path : Path) : Except IoError Location := do
  admissible path
  (tree.walk (origin cwd path) path.segments).mapError .system

/-- The last segment of a path, apart from separators at the end. -/
inductive Last where
  | root
  | current
  | above
  /-- A name, with separators behind it or not. -/
  | name (segment : String) (separated : Bool)
  deriving DecidableEq, Repr

/-- The segments in front of the last one, and the last one. -/
def splitLast (path : Path) : List String × Last :=
  let reversed := path.segments.reverse.dropWhile (· == "")
  let separated := path.endsInSeparator
  match reversed with
  | [] => ([], .root)
  | last :: before =>
      (before.reverse,
        if last == "." then .current
        else if last == ".." then .above
        else .name last separated)

/-- The directory in which the last segment of a path is looked up, and that segment. -/
def locateLast (tree : FileTree) (cwd : Location) (path : Path) :
    Except IoError (Location × Last) := do
  admissible path
  let (before, last) := splitLast path
  let place ← (tree.walk (origin cwd path) before).mapError .system
  if tree.isDirectory place then .ok (place, last) else .error (.system .notDirectory)

def isFileAt (tree : FileTree) (cwd : Location) (path : Path) : Bool :=
  match tree.locate cwd path with
  | .ok place => (tree.file? place).isSome
  | .error _ => false

def isDirectoryAt (tree : FileTree) (cwd : Location) (path : Path) : Bool :=
  match tree.locate cwd path with
  | .ok place => tree.isDirectory place
  | .error _ => false

def readFile (tree : FileTree) (cwd : Location) (path : Path) : Except IoError Bytes := do
  let place ← tree.locate cwd path
  match tree.file? place with
  | some file => .ok file.content
  | none => .error (.system .isDirectory)

def readText (tree : FileTree) (cwd : Location) (path : Path) : Except IoError String := do
  let bytes ← tree.readFile cwd path
  match Utf8.decode? bytes with
  | some text => .ok text
  | none => .error .notUtf8

def readDirectory (tree : FileTree) (cwd : Location) (path : Path) :
    Except IoError (List String) := do
  let place ← tree.locate cwd path
  if tree.isDirectory place then .ok (tree.names place) else .error (.system .notDirectory)

end FileTree
end StagedBuild
