import StagedBuild.Toml.Reader

/-!
# Numbers, dates and times

Integers are decimal, or hexadecimal, octal or binary behind a lower-case mark, and fit in 64 bits
with sign.  Underscores may stand between digits.  Dates and times are checked against the calendar
and the clock, and keep their text.
-/

namespace StagedBuild
namespace Toml

/-- More digits, where a single underscore may stand in front of each; `read` is newest first. -/
def moreDigits (isDigit : Char → Bool) (read : List Char) : Reader (List Char)
  | '_' :: digit :: rest =>
      if isDigit digit then moreDigits isDigit (digit :: read) rest
      else refuse (digit :: rest)
  | digit :: rest =>
      if isDigit digit then moreDigits isDigit (digit :: read) rest
      else if digit == '_' then refuse rest
      else .ok (read.reverse, digit :: rest)
  | [] => .ok (read.reverse, [])

def readDigits (isDigit : Char → Bool) : Reader (List Char)
  | digit :: rest =>
      if isDigit digit then moreDigits isDigit [digit] rest else refuse (digit :: rest)
  | [] => refuse []

def digitsValue (base : Nat) (digits : List Char) : Nat :=
  digits.foldl (fun value digit => value * base + (hexDigit? digit).getD 0) 0

def leastInteger : Int := -9223372036854775808

def greatestInteger : Int := 9223372036854775807

/-- An integer that fits. -/
def integerValue (value : Int) (rest : List Char) : Except SyntaxError (Value × List Char) :=
  if leastInteger ≤ value ∧ value ≤ greatestInteger then .ok (.integer value, rest)
  else refuse rest

def isDecimal (char : Char) : Bool := char.isDigit

def isDigitOf (base : Nat) (char : Char) : Bool :=
  match hexDigit? char with
  | some value => value < base
  | none => false

/-- An integer in another base, behind its mark. -/
def readInBase (base : Nat) : Reader Value := fun chars => do
  let (digits, rest) ← readDigits (isDigitOf base) chars
  integerValue (digitsValue base digits) rest

/-- The digits in front of the point: a zero alone, or digits that do not start with zero. -/
def readWhole : Reader (List Char)
  | '0' :: rest => .ok (['0'], rest)
  | chars => readDigits isDecimal chars

def readExponent : Reader Int
  | '+' :: rest => do
      let (digits, rest) ← readDigits isDecimal rest
      .ok (digitsValue 10 digits, rest)
  | '-' :: rest => do
      let (digits, rest) ← readDigits isDecimal rest
      .ok (-(digitsValue 10 digits : Int), rest)
  | chars => do
      let (digits, rest) ← readDigits isDecimal chars
      .ok (digitsValue 10 digits, rest)

def isExponentMark (char : Char) : Bool :=
  char == 'e' || char == 'E'

/-- A finite value from its digits; one that is too large is refused unless it is negative. -/
def floatValue (negative : Bool) (digits : List Char) (exponent : Int) (rest : List Char) :
    Except SyntaxError (Value × List Char) :=
  match (Number.Decimal.mk (digitsValue 10 digits) exponent).toBinary64? with
  | some magnitude => .ok (.float (.finite negative magnitude), rest)
  | none => if negative then .ok (.float (.infinite true), rest) else refuse rest

def readDecimal (negative : Bool) : Reader Value := fun chars => do
  let (whole, rest) ← readWhole chars
  match rest with
  | '.' :: rest => do
      let (fraction, rest) ← readDigits isDecimal rest
      let places : Int := fraction.length
      match rest with
      | mark :: after =>
          if isExponentMark mark then do
            let (exponent, rest) ← readExponent after
            floatValue negative (whole ++ fraction) (exponent - places) rest
          else floatValue negative (whole ++ fraction) (-places) rest
      | [] => floatValue negative (whole ++ fraction) (-places) []
  | mark :: after =>
      if isExponentMark mark then do
        let (exponent, rest) ← readExponent after
        floatValue negative whole exponent rest
      else
        let value : Int := digitsValue 10 whole
        integerValue (if negative then -value else value) rest
  | [] =>
      let value : Int := digitsValue 10 whole
      integerValue (if negative then -value else value) rest

/-- A number after its sign, which may also be an infinity or no number. -/
def readSigned (negative : Bool) : Reader Value
  | 'i' :: 'n' :: 'f' :: rest => .ok (.float (.infinite negative), rest)
  | 'n' :: 'a' :: 'n' :: rest => .ok (.float .nan, rest)
  | chars => readDecimal negative chars

def readNumber : Reader Value
  | '+' :: rest => readSigned false rest
  | '-' :: rest => readSigned true rest
  | '0' :: 'x' :: rest => readInBase 16 rest
  | '0' :: 'o' :: rest => readInBase 8 rest
  | '0' :: 'b' :: rest => readInBase 2 rest
  | chars => readDecimal false chars

/-- A fixed count of decimal digits whose value lies between two bounds. -/
def readBetween (count least greatest : Nat) : Reader Nat := fun chars =>
  let digits := chars.take count
  let value := digitsValue 10 digits
  if digits.length == count && digits.all isDecimal && least ≤ value && value ≤ greatest then
    .ok (value, chars.drop count)
  else refuse chars

def readChar (expected : Char) : Reader Unit
  | char :: rest => if char == expected then .ok ((), rest) else refuse (char :: rest)
  | [] => refuse []

/-- A fraction of a second, if there is one. -/
def skipFraction (chars : List Char) : List Char :=
  match chars with
  | '.' :: digit :: rest => if isDecimal digit then rest.dropWhile isDecimal else chars
  | _ => chars

def skipTime (chars : List Char) : Except SyntaxError (List Char) := do
  let (_, rest) ← readBetween 2 0 23 chars
  let ((), rest) ← readChar ':' rest
  let (_, rest) ← readBetween 2 0 59 rest
  let ((), rest) ← readChar ':' rest
  let (_, rest) ← readBetween 2 0 60 rest
  .ok (skipFraction rest)

/-- The distance from universal time, if there is one. -/
def skipOffset : List Char → Except SyntaxError (List Char)
  | [] => .ok []
  | char :: rest =>
      if char == 'Z' || char == 'z' then .ok rest
      else if char == '+' || char == '-' then do
        let (_, rest) ← readBetween 2 0 23 rest
        let ((), rest) ← readChar ':' rest
        let (_, rest) ← readBetween 2 0 59 rest
        .ok rest
      else .ok (char :: rest)

def isLeapYear (year : Nat) : Bool :=
  year % 4 == 0 && (year % 100 != 0 || year % 400 == 0)

def daysInMonth (year month : Nat) : Nat :=
  if month == 2 then (if isLeapYear year then 29 else 28)
  else if month == 4 || month == 6 || month == 9 || month == 11 then 30
  else 31

def skipDate (chars : List Char) : Except SyntaxError (List Char) := do
  let (year, rest) ← readBetween 4 0 9999 chars
  let ((), rest) ← readChar '-' rest
  let (month, rest) ← readBetween 2 1 12 rest
  let ((), rest) ← readChar '-' rest
  let (_, rest) ← readBetween 2 1 (daysInMonth year month) rest
  .ok rest

/-- The characters start like a date: four digits and a dash. -/
def startsDate (chars : List Char) : Bool :=
  (chars.take 4).length == 4 && (chars.take 4).all isDecimal && chars[4]? == some '-'

/-- The characters start like a time: two digits and a colon. -/
def startsTime (chars : List Char) : Bool :=
  (chars.take 2).length == 2 && (chars.take 2).all isDecimal && chars[2]? == some ':'

/-- A date that may be followed by a time and its distance from universal time. -/
def skipDateTime (chars : List Char) : Except SyntaxError (List Char) := do
  let rest ← skipDate chars
  match rest with
  | [] => .ok []
  | delimiter :: after =>
      if (delimiter == 'T' || delimiter == 't' || delimiter == ' ') && startsTime after then do
        skipOffset (← skipTime after)
      else .ok rest

/-- The characters of `chars` in front of `rest`. -/
def textBefore (chars rest : List Char) : String :=
  String.ofList (chars.take (chars.length - rest.length))

def readDateOrNumber : Reader Value := fun chars => do
  if startsDate chars then do
    let rest ← skipDateTime chars
    .ok (.datetime (textBefore chars rest), rest)
  else if startsTime chars then do
    let rest ← skipTime chars
    .ok (.datetime (textBefore chars rest), rest)
  else readNumber chars

/-- A value without parts that are values. -/
def readScalar : Reader Value
  | 't' :: 'r' :: 'u' :: 'e' :: rest => .ok (.boolean true, rest)
  | 'f' :: 'a' :: 'l' :: 's' :: 'e' :: rest => .ok (.boolean false, rest)
  | 'i' :: 'n' :: 'f' :: rest => .ok (.float (.infinite false), rest)
  | 'n' :: 'a' :: 'n' :: rest => .ok (.float .nan, rest)
  | chars =>
      match chars with
      | char :: _ =>
          if char == '"' || char == '\'' then do
            let (text, rest) ← readString chars
            .ok (.string text, rest)
          else if char == '+' || char == '-' || isDecimal char then readDateOrNumber chars
          else refuse chars
      | [] => refuse []

end Toml
end StagedBuild
