import StagedBuild.FileTree.Walk

/-!
# Changes to a file tree

Each operation either changes the tree as a whole or refuses with the error of the first check that
fails.  `Change` records what an operation did, so that a run can be asked afterwards which places
it touched.
-/

namespace StagedBuild

/-- An effect on a file tree. -/
inductive Change where
  | createdDirectory (place : Location)
  | removedFile (place : Location)
  /-- A file was moved, replacing a file at its destination. -/
  | movedFile (source destination : Location)
  | removedDirectory (place : Location)
  /-- A directory lost everything in it, but stays. -/
  | emptiedDirectory (place : Location)
  deriving DecidableEq, Repr

namespace FileTree

/-- The location of a last segment inside its directory, if its length is allowed. -/
def placeOfName (directory : Location) (segment : String) : Except IoError Location :=
  if nameLimit < Utf8.size segment then .error (.system .nameTooLong)
  else .ok (directory ++ [segment])

def makeDirectory (tree : FileTree) (cwd : Location) (path : Path) :
    Except IoError (FileTree × Location) := do
  let (directory, last) ← tree.locateLast cwd path
  match last with
  | .name segment _ =>
      let place ← placeOfName directory segment
      if (tree.entry? place).isSome then .error (.system .alreadyExists)
      else .ok (tree.insert place .directory, place)
  | _ => .error (.system .alreadyExists)

def removeFile (tree : FileTree) (cwd : Location) (path : Path) :
    Except IoError (FileTree × Location) := do
  let (directory, last) ← tree.locateLast cwd path
  match last with
  | .name segment separated =>
      let place ← placeOfName directory segment
      match tree.entry? place with
      | none => .error (.system .noEntry)
      | some .directory => .error (.system .isDirectory)
      | some (.file _) =>
          if separated then .error (.system .notDirectory) else .ok (tree.erase place, place)
  | _ => .error (.system .isDirectory)

/-- Move a regular file, replacing the file at the destination if there is one. -/
def moveFile (tree : FileTree) (cwd : Location) (source destination : Path) :
    Except IoError (FileTree × Location × Location) := do
  let (sourceDirectory, sourceLast) ← tree.locateLast cwd source
  let (targetDirectory, targetLast) ← tree.locateLast cwd destination
  match sourceLast, targetLast with
  | .name sourceName sourceSeparated, .name targetName targetSeparated =>
      let sourcePlace ← placeOfName sourceDirectory sourceName
      match tree.entry? sourcePlace with
      | none => .error (.system .noEntry)
      | some .directory => .error (.system .isDirectory)
      | some (.file file) =>
          let targetPlace ← placeOfName targetDirectory targetName
          if sourceSeparated || targetSeparated then .error (.system .notDirectory)
          else if targetPlace.isPrefixOf sourceDirectory then .error (.system .notEmpty)
          else if tree.isDirectory targetPlace then .error (.system .isDirectory)
          else
            .ok ((tree.erase sourcePlace).insert targetPlace (.file file),
              sourcePlace, targetPlace)
  | _, _ => .error (.system .busy)

/-- Write a file, replacing the content of an existing one and keeping its permission. -/
def writeFile (tree : FileTree) (cwd : Location) (path : Path) (content : Bytes) :
    Except IoError FileTree := do
  let (directory, last) ← tree.locateLast cwd path
  match last with
  | .name segment separated =>
      if separated then .error (.system .isDirectory)
      else
        let place ← placeOfName directory segment
        match tree.entry? place with
        | some .directory => .error (.system .isDirectory)
        | some (.file old) => .ok (tree.insert place (.file { old with content := content }))
        | none => .ok (tree.insert place (.file ⟨content, false⟩))
  | _ => .error (.system .isDirectory)

/--
Remove a directory with everything in it.  The entries go first, so a path whose last segment is `.`
or `..` empties the directory and is refused only then; and a path that leads through one of these
entries leads nowhere once they are gone, which counts as success.
-/
def removeDirectory (tree : FileTree) (cwd : Location) (path : Path) :
    FileTree × List Change × Except IoError Unit :=
  match tree.locate cwd path with
  | .error error => (tree, [], .error error)
  | .ok place =>
      if !tree.isDirectory place then (tree, [], .error (.system .notDirectory))
      else
        let emptied (result : Except IoError Unit) :
            FileTree × List Change × Except IoError Unit :=
          (tree.clear place, [.emptiedDirectory place], result)
        match (tree.clear place).locateLast cwd path with
        | .error error =>
            emptied (if error.kind == .notFound then .ok () else .error error)
        | .ok (_, .name _ _) => (tree.eraseBelow place, [.removedDirectory place], .ok ())
        | .ok (_, .current) => emptied (.error (.system .invalidArgument))
        | .ok (_, .above) => emptied (.error (.system .notEmpty))
        | .ok (_, .root) => emptied (.error (.system .busy))

/-- The paths from `path` up to the nearest one that has no parent to try, `path` first. -/
def ancestors (path : Path) : Nat → List Path
  | 0 => []
  | bound + 1 =>
      if path.text == "" then []
      else path :: (match path.parent? with
        | some parent => ancestors parent bound
        | none => [])

/-- Create a directory, or accept that it is there. -/
def makeOrAccept (tree : FileTree) (cwd : Location) (path : Path) :
    Except IoError (FileTree × List Change) :=
  match tree.makeDirectory cwd path with
  | .ok (tree, place) => .ok (tree, [.createdDirectory place])
  | .error error => if tree.isDirectoryAt cwd path then .ok (tree, []) else .error error

/-- Create the directories of a path, given from the innermost outwards. -/
def makeChain (tree : FileTree) (cwd : Location) :
    List Path → FileTree × List Change × Except IoError Unit
  | [] => (tree, [], .ok ())
  | path :: outer =>
      match tree.makeDirectory cwd path with
      | .ok (tree, place) => (tree, [.createdDirectory place], .ok ())
      | .error error =>
          if error.kind == .notFound then
            match tree.makeChain cwd outer with
            | (tree, changes, .error error) => (tree, changes, .error error)
            | (tree, changes, .ok ()) =>
                match tree.makeOrAccept cwd path with
                | .ok (tree, more) => (tree, changes ++ more, .ok ())
                | .error error => (tree, changes, .error error)
          else if tree.isDirectoryAt cwd path then (tree, [], .ok ())
          else (tree, [], .error error)

/-- Create a directory and the missing ones above it. -/
def ensureDirectory (tree : FileTree) (cwd : Location) (path : Path) :
    FileTree × List Change × Except IoError Unit :=
  tree.makeChain cwd (ancestors path (path.text.length + 1))

end FileTree
end StagedBuild
