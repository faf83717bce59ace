import StagedBuild.Toml.Value

/-!
# Tables under construction

While a document is read, every table remembers how it came about, because that decides what may be
added to it later: a table from a header or an inline table is never defined again, a table implied
by a longer header may still get a header of its own, and a table from dotted keys may only grow by
dotted keys.
-/

namespace StagedBuild
namespace Toml

/-- How a table came about. -/
inductive Origin where
  /-- A header names it. -/
  | headed
  /-- A header of one of its parts implies it. -/
  | implied
  /-- A dotted key implies it. -/
  | dotted
  deriving DecidableEq, Repr

inductive Node where
  | value (value : Value)
  /-- A table that may still grow. -/
  | table (origin : Origin) (entries : List (String × Node))
  /-- An array of tables, of which the last may still grow. -/
  | tables (items : List (List (String × Node)))

abbrev Section := List (String × Node)

namespace Section

def find? (entries : Section) (key : String) : Option Node :=
  (List.find? (fun entry => entry.1 == key) entries).map Prod.snd

def replace (entries : Section) (key : String) (node : Node) : Section :=
  entries.map fun entry => if entry.1 == key then (key, node) else entry

def forget (entries : Section) (key : String) : Section :=
  entries.filter fun entry => entry.1 != key

/--
Change the table that a path of keys leads to, creating missing tables on the way.  The way may be
written with dots; then it must not pass through a table that has a header.
-/
def change (byDots : Bool) (action : Origin → Section → Option Section) :
    List String → Origin → Section → Option Section
  | [], origin, entries => action origin entries
  | key :: path, _, entries =>
      match find? entries key with
      | none => do
          let origin : Origin := if byDots then .dotted else .implied
          let child ← change byDots action path origin []
          some (entries ++ [(key, .table origin child)])
      | some (.value _) => none
      | some (.tables items) => do
          let last ← items.getLast?
          let child ← change byDots action path .headed last
          some (replace entries key (.tables (items.dropLast ++ [child])))
      | some (.table origin child) =>
          if byDots && origin == .headed then none
          else do
            let child ← change byDots action path origin child
            some (replace entries key (.table origin child))

/-- Define a key of a table, reached over dots from the table that is being written. -/
def define (entries : Section) (path : List String) (key : String) (value : Value) :
    Option Section :=
  change true
    (fun origin entries =>
      if (origin == .dotted) == path.isEmpty then none
      else if (find? entries key).isSome then none
      else some (entries ++ [(key, .value value)]))
    path .headed entries

def openTable (root : Section) (path : List String) (key : String) : Option Section :=
  change false
    (fun _ entries =>
      match find? entries key with
      | none => some (entries ++ [(key, .table .headed [])])
      | some (.table .implied child) =>
          some (forget entries key ++ [(key, .table .headed child)])
      | some _ => none)
    path .headed root

/-- Open a new table at the end of an array of tables. -/
def openItem (root : Section) (path : List String) (key : String) : Option Section :=
  change false
    (fun _ entries =>
      match find? entries key with
      | none => some (entries ++ [(key, .tables [[]])])
      | some (.tables items) => some (replace entries key (.tables (items ++ [[]])))
      | some _ => none)
    path .headed root

end Section

mutual

def Node.finish : Node → Value
  | .value content => content
  | .table _ entries => .table (Node.finishEntries entries)
  | .tables items => .tables (Node.finishItems items)

def Node.finishEntries : List (String × Node) → Table
  | [] => []
  | (key, node) :: rest => (key, node.finish) :: Node.finishEntries rest

def Node.finishItems : List (List (String × Node)) → List Table
  | [] => []
  | entries :: rest => Node.finishEntries entries :: Node.finishItems rest

end

end Toml
end StagedBuild
