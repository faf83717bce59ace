import StagedBuild.Build.Event
import StagedBuild.Manifest.Schema
import StagedBuild.Toml.Document

/-!
# Projects

A project is a directory with a manifest.  It is found by the path of its manifest, which must then
exist, or as the current directory, where the manifest may be missing.  There the default manifest
takes the place of one that is missing and of one whose path the system does not take, since neither
is seen as a file; a manifest that is seen but cannot be accepted is never replaced.
-/

namespace StagedBuild

inductive ProjectError where
  | unreadable (path : Path) (error : IoError)
  /-- The manifest is not a document; the place is a line and a column. -/
  | malformed (path : Path) (line column : Nat)
  /-- The manifest is a document of another content. -/
  | unfit (path : Path) (problem : SchemaProblem)
  | invalid (path : Path) (problem : ManifestProblem)
  /-- The path of the manifest has no absolute form. -/
  | badPath (path : Path) (error : IoError)
  /-- The path of the manifest has nothing above it. -/
  | noDirectory (path : Path)

namespace ProjectError

/-- What was being done when the error came up. -/
def context : ProjectError → String
  | unreadable path _ => "failed to read file: " ++ path.text
  | malformed path _ _ | unfit path _ => "failed to parse config: " ++ path.text
  | invalid path _ => "invalid config: " ++ path.text
  | badPath path _ => "invalid manifest path: " ++ path.text
  | noDirectory path => "manifest has no parent directory: " ++ path.text

def atPlace (place : String) : String :=
  "TOML parse error at " ++ place

def cause? : ProjectError → Option String
  | unreadable _ error | badPath _ error => some error.message
  | malformed _ line column =>
      some (atPlace ("line " ++ toString line ++ ", column " ++ toString column))
  | unfit _ problem => some (atPlace ("an entry: " ++ problem.message))
  | invalid _ problem => some problem.message
  | noDirectory _ => none

def message (error : ProjectError) : String :=
  match error.cause? with
  | some cause => error.context ++ ": " ++ cause
  | none => error.context

end ProjectError

namespace Manifest

def ofText (path : Path) (text : String) : Except ProjectError Manifest := do
  let table ← (Toml.parse text).mapError fun error =>
    let (line, column) := error.position text
    .malformed path line column
  let manifest ← (Schema.decode table).mapError (.unfit path)
  manifest.validate.mapError (.invalid path)
  .ok manifest

def load (tree : FileTree) (cwd : Location) (path : Path) : Except ProjectError Manifest := do
  let text ← (tree.readText cwd path).mapError (.unreadable path)
  ofText path text

/-- The manifest of a directory: the one in it if there is a file, else the default one. -/
def discover (root : Path) (world : World) : Except ProjectError Manifest × World :=
  let path := root.join fileName
  if world.tree.isFileAt world.cwd path then
    (load world.tree world.cwd path, world.debug ("loading config from " ++ path.text))
  else
    (.ok .default, world.debug ("no " ++ fileName ++ " in " ++ root.text ++ ", using defaults"))

end Manifest

/-- A project that was found, with its configuration. -/
structure Project where
  root : Path
  manifest : Manifest
  deriving DecidableEq, Repr

namespace Project

def inDirectory (root : Path) (world : World) : Except ProjectError Project × World :=
  match Manifest.discover root world with
  | (manifest, world) => (manifest.map (Project.mk root), world)

def ofManifest (path : Path) (world : World) : Except ProjectError Project := do
  let path ← (Path.absoluteFrom world.cwdPath path).mapError (.badPath path)
  let manifest ← Manifest.load world.tree world.cwd path
  match path.parent? with
  | some root => .ok ⟨root, manifest⟩
  | none => .error (.noDirectory path)

/-- The project with the given manifest, or else the one in the current directory. -/
def discover (manifest : Option Path) (world : World) : Except ProjectError Project × World :=
  match manifest with
  | some path => (ofManifest path world, world)
  | none => inDirectory world.cwdPath world

def withTool (project : Project) (tool : Option String) : Project :=
  match tool with
  | some tool =>
      { project with
        manifest.toolchain := { project.manifest.toolchain with tool := tool } }
  | none => project

def withOutDir (project : Project) (outDir : Option Path) : Project :=
  match outDir with
  | some outDir => { project with manifest.outDir := outDir }
  | none => project

def outDir (project : Project) : Path :=
  project.root.join project.manifest.outDir.text

def toolchain (project : Project) : Toolchain :=
  project.manifest.toolchainAt project.root

end Project
end StagedBuild
