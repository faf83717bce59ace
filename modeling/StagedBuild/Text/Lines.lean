import StagedBuild.Text.Utf8

/-!
# Lines of a byte stream

A stream is cut after every newline byte, so the lines concatenate to the stream and only the last
one may lack its newline.
-/

namespace StagedBuild
namespace Lines

def newline : UInt8 := 0x0A

def cons (byte : UInt8) : List Bytes → List Bytes
  | [] => [[byte]]
  | line :: rest => if byte = newline then [byte] :: line :: rest else (byte :: line) :: rest

/-- The lines of `bytes`, each with its newline if it has one. -/
def split (bytes : Bytes) : List Bytes :=
  bytes.foldr cons []

def isTerminated (line : Bytes) : Bool :=
  line.getLast? == some newline

/-- The line with a newline at its end, added if it was missing. -/
def terminate (line : Bytes) : Bytes :=
  if isTerminated line then line else line ++ [newline]

/-- The text without the newlines and carriage returns at its end. -/
def stripEnd (text : String) : String :=
  String.ofList
    (text.toList.reverse.dropWhile fun char => char == '\n' || char == '\r').reverse

/-- The text of a captured line: malformed bytes replaced and the terminator removed. -/
def captured (line : Bytes) : String :=
  stripEnd (Utf8.decodeLossy line)

end Lines
end StagedBuild
