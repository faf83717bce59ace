import StagedBuild.Toml.Scalar
import StagedBuild.Toml.Section

/-!
# Documents

A document is a sequence of lines: blanks and comments, headers of tables and of items of arrays of
tables, and keys with their values.  Values may hold arrays and inline tables up to a fixed depth.
-/

namespace StagedBuild
namespace Toml

mutual

/-- A value; `depth` bounds how deep it is nested and `bound` the steps that reading takes. -/
def readValue : Nat → Nat → Reader Value
  | 0, _, chars => refuse chars
  | bound + 1, depth, chars =>
      match chars with
      | '[' :: rest =>
          match depth with
          | 0 => refuse rest
          | depth + 1 => readItems bound depth [] rest
      | '\x7b' :: rest =>
          match depth with
          | 0 => refuse rest
          | depth + 1 =>
              match skipSpace rest with
              | '\x7d' :: rest => .ok (.table [], rest)
              | rest => readPairs bound depth [] rest
      | chars => readScalar chars

/-- The rest of an array; `items` holds what was read, the newest first. -/
def readItems : Nat → Nat → List Value → Reader Value
  | 0, _, _, chars => refuse chars
  | bound + 1, depth, items, chars =>
      match skipBlank chars with
      | ']' :: rest => .ok (.array items.reverse, rest)
      | chars => do
          let (item, rest) ← readValue bound depth chars
          match skipBlank rest with
          | ',' :: rest => readItems bound depth (item :: items) rest
          | ']' :: rest => .ok (.array (item :: items).reverse, rest)
          | rest => refuse rest

/-- The rest of an inline table with at least one more key. -/
def readPairs : Nat → Nat → Section → Reader Value
  | 0, _, _, chars => refuse chars
  | bound + 1, depth, entries, chars => do
      let (keys, rest) ← readKeys chars
      let ((), rest) ← readChar '=' rest
      let (value, rest) ← readValue bound depth (skipSpace rest)
      match Section.define entries keys.dropLast (keys.getLastD "") value with
      | none => refuse rest
      | some entries =>
          match skipSpace rest with
          | ',' :: rest => readPairs bound depth entries rest
          | '\x7d' :: rest => .ok (.table (Node.finishEntries entries), rest)
          | rest => refuse rest

end

/-- A document that has been read in part. -/
structure Draft where
  root : Section := []
  /-- The path of the last header, none at the beginning. -/
  header : List String := []

namespace Draft

def define (draft : Draft) (keys : List String) (value : Value) : Option Draft := do
  let root ← Section.change false
    (fun _ entries => Section.define entries keys.dropLast (keys.getLastD "") value)
    draft.header .headed draft.root
  some { draft with root := root }

def openTable (draft : Draft) (keys : List String) : Option Draft := do
  let root ← Section.openTable draft.root keys.dropLast (keys.getLastD "")
  some ⟨root, keys⟩

/-- Go on under the header of an item of an array of tables. -/
def openItem (draft : Draft) (keys : List String) : Option Draft := do
  let root ← Section.openItem draft.root keys.dropLast (keys.getLastD "")
  some ⟨root, keys⟩

end Draft

/-- Take over a change to a draft, or fail at the characters that are left. -/
def accept (draft? : Option Draft) (rest : List Char) : Except SyntaxError Draft :=
  match draft? with
  | some draft => .ok draft
  | none => refuse rest

def valueDepth : Nat := depthLimit - 1

/-- A key with its value, up to the end of the line. -/
def readKeyValue (draft : Draft) (chars : List Char) : Except SyntaxError (Draft × List Char) := do
  let (keys, rest) ← readKeys chars
  let ((), rest) ← readChar '=' rest
  let (value, rest) ← readValue (2 * rest.length + 2) valueDepth (skipSpace rest)
  let rest ← lineEnd rest
  .ok (← accept (draft.define keys value) rest, rest)

/-- A header behind its opening brackets, up to the end of the line. -/
def readHeader (draft : Draft) (item : Bool) (chars : List Char) :
    Except SyntaxError (Draft × List Char) := do
  let (keys, rest) ← readKeys chars
  let ((), rest) ← readChar ']' rest
  let rest ← if item then (readChar ']' rest).map Prod.snd else .ok rest
  let rest ← lineEnd rest
  let draft? := if item then draft.openItem keys else draft.openTable keys
  .ok (← accept draft? rest, rest)

def readLine (draft : Draft) (chars : List Char) : Except SyntaxError (Draft × List Char) :=
  match chars with
  | '#' :: _ => (lineEnd chars).map (Prod.mk draft)
  | '\n' :: _ => (lineEnd chars).map (Prod.mk draft)
  | '\r' :: _ => (lineEnd chars).map (Prod.mk draft)
  | '[' :: '[' :: rest => readHeader draft true rest
  | '[' :: rest => readHeader draft false rest
  | chars => readKeyValue draft chars

/-- The lines that are left, at most as many as `bound`. -/
def readLines : Nat → Draft → List Char → Except SyntaxError Draft
  | 0, _, chars => refuse chars
  | bound + 1, draft, chars =>
      match skipSpace chars with
      | [] => .ok draft
      | chars => do
          let (draft, rest) ← readLine draft chars
          readLines bound draft rest

def byteOrderMark : Char := Char.ofNat 0xFEFF

/-- The characters of a document without the mark in front of it. -/
def documentChars (text : String) : List Char :=
  match text.toList with
  | char :: rest => if char == byteOrderMark then rest else char :: rest
  | [] => []

def parse (text : String) : Except SyntaxError Table := do
  let chars := documentChars text
  let draft ← readLines (chars.length + 1) {} chars
  .ok (Node.finishEntries draft.root)

/-- The line and the column of a place in a document, both counted from one. -/
def SyntaxError.position (error : SyntaxError) (text : String) : Nat × Nat :=
  let chars := documentChars text
  let before := chars.take (chars.length - error.remaining)
  ((before.filter (· == '\n')).length + 1,
    (before.reverse.takeWhile (· != '\n')).length + 1)

end Toml
end StagedBuild
