import StagedBuild.IoError.Basic
import StagedBuild.Text.Fields

/-!
# Paths

A path is kept as it is written.  Its components ignore repeated separators and inner `.` segments,
while joining, taking the parent and making absolute say exactly what happens to the text.  Nothing
here looks at a file tree, so `..` is never resolved.

The text of a path is UTF-8.  Other bytes do not occur in paths, so a path is shown as it is and
nothing is lost.
-/

namespace StagedBuild

/-- A path as it is written. -/
structure Path where
  text : String
  deriving DecidableEq, Repr, Inhabited

inductive Component where
  | root
  /-- A `.` at the start of a relative path. -/
  | current
  | parent
  | name (segment : String)
  deriving DecidableEq, Repr

namespace Path

def segments (path : Path) : List String :=
  Text.fields '/' path.text

def isAbsolute (path : Path) : Bool :=
  path.text.toList.head? == some '/'

def endsInSeparator (path : Path) : Bool :=
  path.text.toList.getLast? == some '/'

/-- A segment that names no place of its own. -/
def isTrivial (segment : String) : Bool :=
  segment == "" || segment == "."

def bodyComponent (segment : String) : Option Component :=
  if isTrivial segment then none
  else if segment == ".." then some .parent
  else some (.name segment)

/-- The component in front of the segments: the root, a leading `.`, or nothing. -/
def leading (path : Path) : List Component :=
  if path.isAbsolute then [.root]
  else if path.segments.head? == some "." then [.current]
  else []

def components (path : Path) : List Component :=
  path.leading ++ path.segments.filterMap bodyComponent

/-- The segments after the root or the leading `.`. -/
def body (path : Path) : List String :=
  if path.leading.isEmpty then path.segments else path.segments.tail

def ofBody (lead : List Component) (body : List String) : Path :=
  match lead with
  | .root :: _ => ⟨"/" ++ String.intercalate "/" body⟩
  | .current :: _ => ⟨String.intercalate "/" ("." :: body)⟩
  | _ => ⟨String.intercalate "/" body⟩

def trimEnd (segments : List String) : List String :=
  (segments.reverse.dropWhile isTrivial).reverse

/-- `path` followed by `other`; an absolute `other` replaces `path`. -/
def join (path : Path) (other : String) : Path :=
  if (Path.mk other).isAbsolute then ⟨other⟩
  else if path.text == "" || path.endsInSeparator then ⟨path.text ++ other⟩
  else ⟨path.text ++ "/" ++ other⟩

/-- The path without its last component, unless it has none to lose. -/
def parent? (path : Path) : Option Path :=
  match path.components.getLast? with
  | none => none
  | some .root => none
  | some .current => some ⟨""⟩
  | some _ => some (ofBody path.leading (trimEnd (trimEnd path.body).dropLast))

/-- The directory part of a path, empty when the path has no parent. -/
def directory (path : Path) : Path :=
  path.parent?.getD ⟨""⟩

def fileName? (path : Path) : Option String :=
  match path.components.getLast? with
  | some (.name segment) => some segment
  | _ => none

/-- The text is one plain file name: it neither leaves nor enters a directory. -/
def isPlainName (text : String) : Bool :=
  match (Path.mk text).components with
  | [.name _] => true
  | _ => false

/-- Drop as many meaningful segments as given, and trivial ones around them. -/
def skip : Nat → List String → List String
  | 0, segments => segments.dropWhile isTrivial
  | _ + 1, [] => []
  | count + 1, segment :: rest =>
      if isTrivial segment then skip (count + 1) rest else skip count rest

/-- What follows `base` in `path`, when the components of `path` start with those of `base`. -/
def stripBase? (path base : Path) : Option Path :=
  if base.components.isPrefixOf path.components then
    if base.components.isEmpty then some path
    else
      some (ofBody []
        (trimEnd (skip (base.components.length - path.leading.length) path.body)))
  else none

def componentText : Component → String
  | .root => "/"
  | .current => "."
  | .parent => ".."
  | .name segment => segment

def joinAll (path : Path) (parts : List Component) : Path :=
  parts.foldl (fun path part => path.join (componentText part)) path

/-- The path has exactly two separators in front, which are kept when it is made absolute. -/
def hasDoubleRoot (path : Path) : Bool :=
  match path.text.toList with
  | '/' :: '/' :: '/' :: _ => false
  | '/' :: '/' :: _ => true
  | _ => false

/--
A path made absolute against `cwd`: repeated separators and `.` segments disappear, while `..`
segments and a final separator stay.  The empty path is refused.
-/
def absoluteFrom (cwd path : Path) : Except IoError Path :=
  if path.text == "" then .error .emptyPath
  else
    let parts := path.components.filter fun part => part != .root && part != .current
    let base : Path :=
      if path.hasDoubleRoot then ⟨"//"⟩ else if path.isAbsolute then ⟨"/"⟩ else cwd
    let result := base.joinAll parts
    .ok (if path.endsInSeparator then result.join "" else result)

def sameComponents (left right : Path) : Bool :=
  left.components == right.components

end Path

namespace FileName

def splitLastDot (name : String) : Option (String × String) :=
  let reversed := name.toList.reverse
  match reversed.dropWhile (· != '.') with
  | [] => none
  | _ :: before =>
      some (String.ofList before.reverse,
        String.ofList (reversed.takeWhile (· != '.')).reverse)

/-- A file name cut at its last dot; a dot in front or the name `..` is not a cut. -/
def stemAndExtension (name : String) : String × Option String :=
  if name == ".." then (name, none)
  else
    match splitLastDot name with
    | none => (name, none)
    | some (before, after) => if before == "" then (name, none) else (before, some after)

end FileName
end StagedBuild
