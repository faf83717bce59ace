import StagedBuild.Text.Invisible

/-!
# Quoted text

A text in a message stands between double quotes.  Quotes, backslashes and the usual controls get
short escapes, and every other character without a picture of its own is written by its code point.
-/

namespace StagedBuild
namespace Text

/-- The escape of a character that is written by its code point. -/
def codePointEscape (char : Char) : List Char :=
  ['\\', 'u', '\x7b'] ++ Nat.toDigits 16 char.toNat ++ ['\x7d']

/-- A character inside quotes. -/
def quotedChar (char : Char) : List Char :=
  if char = Char.ofNat 0 then ['\\', '0']
  else if char = '\t' then ['\\', 't']
  else if char = '\r' then ['\\', 'r']
  else if char = '\n' then ['\\', 'n']
  else if char = '\\' then ['\\', '\\']
  else if char = '"' then ['\\', '"']
  else if isInvisible char then codePointEscape char
  else [char]

/-- A text between quotes. -/
def quoted (text : String) : String :=
  String.ofList (['"'] ++ text.toList.flatMap quotedChar ++ ['"'])

end Text
end StagedBuild
