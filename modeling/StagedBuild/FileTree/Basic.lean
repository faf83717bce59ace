import StagedBuild.Path
import StagedBuild.Text.Utf8

/-!
# File trees

A tree maps locations to directories and files.  It is kept as a list of distinct locations, and the
order of the list is the order in which a directory is listed, so nothing may depend on it.  The
view of a tree is `entry?`; the root is always a directory.

There are no symbolic links, so a place has one name, and no permissions apart from the one to
execute a file, so nothing is refused for lack of them.
-/

namespace StagedBuild

/-- A place in a file tree: the names on the way from the root. -/
abbrev Location := List String

structure File where
  content : Bytes
  executable : Bool := false
  deriving DecidableEq, Repr

inductive Entry where
  | directory
  | file (file : File)
  deriving DecidableEq, Repr

/-- The files and directories of a machine. -/
structure FileTree where
  entries : List (Location × Entry)
  distinct : (entries.map Prod.fst).Nodup
  deriving DecidableEq

namespace FileTree

def empty : FileTree := ⟨[], List.Pairwise.nil⟩

def entry? (tree : FileTree) (place : Location) : Option Entry :=
  if place = [] then some .directory
  else (tree.entries.find? fun item => item.1 == place).map Prod.snd

def isDirectory (tree : FileTree) (place : Location) : Bool :=
  tree.entry? place == some .directory

def file? (tree : FileTree) (place : Location) : Option File :=
  match tree.entry? place with
  | some (.file file) => some file
  | _ => none

def keep (tree : FileTree) (test : Location → Bool) : FileTree where
  entries := tree.entries.filter fun item => test item.1
  distinct :=
    List.Pairwise.sublist (List.Sublist.map Prod.fst List.filter_sublist) tree.distinct

/-- Remove what a location holds, but nothing below it. -/
def erase (tree : FileTree) (place : Location) : FileTree :=
  tree.keep fun other => other != place

/-- Put an entry at a location, in place of what was there. -/
def insert (tree : FileTree) (place : Location) (entry : Entry) : FileTree where
  entries := (tree.erase place).entries ++ [(place, entry)]
  distinct := by
    rw [List.map_append, List.nodup_append]
    refine ⟨(tree.erase place).distinct, by simp, ?_⟩
    intro other other_mem last last_mem other_eq
    simp only [List.map_cons, List.map_nil, List.mem_singleton] at last_mem
    subst last_mem other_eq
    simp [erase, keep] at other_mem

def eraseBelow (tree : FileTree) (place : Location) : FileTree :=
  tree.keep fun other => !place.isPrefixOf other

/-- Remove everything below a location, but not the location itself. -/
def clear (tree : FileTree) (place : Location) : FileTree :=
  tree.keep fun other => !place.isPrefixOf other || other == place

/-- The first location comes before the second one, or they are the same. -/
def precedes : Location → Location → Bool
  | [], _ => true
  | _ :: _, [] => false
  | left :: lefts, right :: rights =>
      if left == right then precedes lefts rights else decide (left < right)

/-- Everything below a location, each directory followed by what it holds, names in order. -/
def below (tree : FileTree) (place : Location) : List (Location × Entry) :=
  (tree.entries.filter fun item => place.isPrefixOf item.1 && item.1 != place).mergeSort
    fun left right => precedes left.1 right.1

def nameIn? (place other : Location) : Option String :=
  match other.getLast? with
  | some name => if other.dropLast == place then some name else none
  | none => none

/-- The names in a directory, in listing order. -/
def names (tree : FileTree) (place : Location) : List String :=
  tree.entries.filterMap fun item => nameIn? place item.1

end FileTree
end StagedBuild
