import StagedBuild.Toml.Value

/-!
# Reading the smallest parts of a document

Blanks, comments, line ends, keys and quoted strings.  A reader takes the characters that are left
and answers with what it read and what is left then; where it fails, the count of characters left
tells the place of the error.
-/

namespace StagedBuild
namespace Toml

/-- A place where a document breaks the rules of its format. -/
structure SyntaxError where
  /-- How many characters were left. -/
  remaining : Nat
  deriving DecidableEq, Repr

/-- Reads a value off the front of the characters that are left. -/
abbrev Reader (α : Type) := List Char → Except SyntaxError (α × List Char)

/-- Fail at the characters that are left. -/
def refuse {α : Type} (rest : List Char) : Except SyntaxError α :=
  .error ⟨rest.length⟩

def isSpace (char : Char) : Bool :=
  char == ' ' || char == '\t'

def isTextChar (char : Char) : Bool :=
  char == '\t' || (0x20 ≤ char.toNat && char.toNat != 0x7F)

/-- A character that stands for itself between double quotes. -/
def isBasicChar (char : Char) : Bool :=
  isTextChar char && char != '"' && char != '\\'

/-- A character that may stand between single quotes. -/
def isLiteralChar (char : Char) : Bool :=
  isTextChar char && char != '\''

def isBareKeyChar (char : Char) : Bool :=
  char.isAlphanum || char == '_' || char == '-'

def skipSpace (chars : List Char) : List Char :=
  chars.dropWhile isSpace

def skipComment : List Char → List Char
  | '#' :: rest => rest.dropWhile isTextChar
  | chars => chars

def newline? : List Char → Option (List Char)
  | '\n' :: rest => some rest
  | '\r' :: '\n' :: rest => some rest
  | _ => none

/-- Skip the end of a line: blanks, a comment, and a line end or the end of the document. -/
def lineEnd (chars : List Char) : Except SyntaxError (List Char) :=
  let rest := skipComment (skipSpace chars)
  if rest.isEmpty then .ok []
  else
    match newline? rest with
    | some rest => .ok rest
    | none => refuse rest

/--
Skip blanks, comments and line ends.  Inside a comment the second argument keeps the characters from
its start, where reading goes on if the comment does not end in a line end.
-/
def skipBlankFrom : List Char → Option (List Char) → List Char
  | [], none => []
  | [], some start => start
  | char :: rest, none =>
      if isSpace char || char == '\n' then skipBlankFrom rest none
      else if char == '\r' && rest.head? == some '\n' then skipBlankFrom rest none
      else if char == '#' then skipBlankFrom rest (some (char :: rest))
      else char :: rest
  | char :: rest, some start =>
      if isTextChar char then skipBlankFrom rest (some start)
      else if char == '\n' || (char == '\r' && rest.head? == some '\n') then
        skipBlankFrom rest none
      else start

def skipBlank (chars : List Char) : List Char :=
  skipBlankFrom chars none

def hexDigit? (char : Char) : Option Nat :=
  if '0' ≤ char ∧ char ≤ '9' then some (char.toNat - '0'.toNat)
  else if 'a' ≤ char ∧ char ≤ 'f' then some (char.toNat - 'a'.toNat + 10)
  else if 'A' ≤ char ∧ char ≤ 'F' then some (char.toNat - 'A'.toNat + 10)
  else none

def codePoint? (digits : List Char) : Option Char := do
  let values ← digits.mapM hexDigit?
  let code := values.foldl (fun code digit => code * 16 + digit) 0
  if code.isValidChar then some (Char.ofNat code) else none

/-- The character that a short escape stands for. -/
def shortEscape? : Char → Option Char
  | 'b' => some (Char.ofNat 0x08)
  | 't' => some '\t'
  | 'n' => some '\n'
  | 'f' => some (Char.ofNat 0x0C)
  | 'r' => some '\r'
  | '"' => some '"'
  | '\\' => some '\\'
  | _ => none

/-- The rest of a string between double quotes; `read` holds what was read, the newest first. -/
def basicBody (read : List Char) : Reader String
  | '"' :: rest => .ok (String.ofList read.reverse, rest)
  | '\\' :: 'u' :: a :: b :: c :: d :: rest =>
      match codePoint? [a, b, c, d] with
      | some char => basicBody (char :: read) rest
      | none => refuse rest
  | '\\' :: 'U' :: a :: b :: c :: d :: e :: f :: g :: h :: rest =>
      match codePoint? [a, b, c, d, e, f, g, h] with
      | some char => basicBody (char :: read) rest
      | none => refuse rest
  | '\\' :: escape :: rest =>
      match shortEscape? escape with
      | some char => basicBody (char :: read) rest
      | none => refuse rest
  | char :: rest =>
      if isBasicChar char then basicBody (char :: read) rest else refuse (char :: rest)
  | [] => refuse []

def literalBody (read : List Char) : Reader String
  | '\'' :: rest => .ok (String.ofList read.reverse, rest)
  | char :: rest =>
      if isLiteralChar char then literalBody (char :: read) rest else refuse (char :: rest)
  | [] => refuse []

/-- A backslash with only blanks behind it joins two lines. -/
def joinsLines (rest : List Char) : Bool :=
  (newline? (skipSpace rest)).isSome

/--
The rest of a string between three double quotes.  Up to two quotes may stand in front of the
closing ones.  While `joining` is set, blanks and line ends are skipped.
-/
def multilineBasicBody (read : List Char) (joining : Bool) : Reader String
  | '"' :: '"' :: '"' :: '"' :: '"' :: rest =>
      .ok (String.ofList ('"' :: '"' :: read).reverse, rest)
  | '"' :: '"' :: '"' :: '"' :: rest => .ok (String.ofList ('"' :: read).reverse, rest)
  | '"' :: '"' :: '"' :: rest => .ok (String.ofList read.reverse, rest)
  | '"' :: rest => multilineBasicBody ('"' :: read) false rest
  | '\r' :: '\n' :: rest =>
      if joining then multilineBasicBody read true rest
      else multilineBasicBody ('\n' :: read) false rest
  | '\n' :: rest =>
      if joining then multilineBasicBody read true rest
      else multilineBasicBody ('\n' :: read) false rest
  | '\\' :: 'u' :: a :: b :: c :: d :: rest =>
      match codePoint? [a, b, c, d] with
      | some char => multilineBasicBody (char :: read) false rest
      | none => refuse rest
  | '\\' :: 'U' :: a :: b :: c :: d :: e :: f :: g :: h :: rest =>
      match codePoint? [a, b, c, d, e, f, g, h] with
      | some char => multilineBasicBody (char :: read) false rest
      | none => refuse rest
  | '\\' :: next :: rest =>
      if joinsLines (next :: rest) then multilineBasicBody read true (next :: rest)
      else
        match shortEscape? next with
        | some char => multilineBasicBody (char :: read) false rest
        | none => refuse rest
  | char :: rest =>
      if joining && isSpace char then multilineBasicBody read true rest
      else if isBasicChar char then multilineBasicBody (char :: read) false rest
      else refuse (char :: rest)
  | [] => refuse []

def multilineLiteralBody (read : List Char) : Reader String
  | '\'' :: '\'' :: '\'' :: '\'' :: '\'' :: rest =>
      .ok (String.ofList ('\'' :: '\'' :: read).reverse, rest)
  | '\'' :: '\'' :: '\'' :: '\'' :: rest => .ok (String.ofList ('\'' :: read).reverse, rest)
  | '\'' :: '\'' :: '\'' :: rest => .ok (String.ofList read.reverse, rest)
  | '\'' :: rest => multilineLiteralBody ('\'' :: read) rest
  | '\r' :: '\n' :: rest => multilineLiteralBody ('\n' :: read) rest
  | '\n' :: rest => multilineLiteralBody ('\n' :: read) rest
  | char :: rest =>
      if isLiteralChar char then multilineLiteralBody (char :: read) rest
      else refuse (char :: rest)
  | [] => refuse []

def skipNewline (chars : List Char) : List Char :=
  (newline? chars).getD chars

def readString : Reader String
  | '"' :: '"' :: '"' :: rest => multilineBasicBody [] false (skipNewline rest)
  | '\'' :: '\'' :: '\'' :: rest => multilineLiteralBody [] (skipNewline rest)
  | '"' :: rest => basicBody [] rest
  | '\'' :: rest => literalBody [] rest
  | chars => refuse chars

/-- One key, quoted or not. -/
def readSimpleKey : Reader String
  | '"' :: rest => basicBody [] rest
  | '\'' :: rest => literalBody [] rest
  | chars =>
      let key := chars.takeWhile isBareKeyChar
      if key.isEmpty then refuse chars
      else .ok (String.ofList key, chars.dropWhile isBareKeyChar)

/-- How deep keys, arrays and inline tables may be nested. -/
def depthLimit : Nat := 80

/-- The keys of a dotted key, each of which may have blanks around it. -/
def readKeysFrom : Nat → Reader (List String)
  | 0, chars => refuse chars
  | bound + 1, chars => do
      let (key, rest) ← readSimpleKey (skipSpace chars)
      match skipSpace rest with
      | '.' :: rest => do
          let (keys, rest) ← readKeysFrom bound rest
          .ok (key :: keys, rest)
      | rest => .ok ([key], rest)

def readKeys : Reader (List String) :=
  readKeysFrom (depthLimit - 1)

end Toml
end StagedBuild
