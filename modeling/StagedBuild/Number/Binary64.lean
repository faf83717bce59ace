/-!
# Binary floating-point numbers

A nonnegative number of the 64-bit binary format is a significand times a power of two, counted in
units of `2 ^ -1074`.  Every operation is the exact rational result followed by one rounding to the
nearest number, where a tie goes to the even significand.
-/

namespace StagedBuild
namespace Number

/-- The quotient rounded to the nearest natural number, a tie to the even one. -/
def roundDiv (numerator denominator : Nat) : Nat :=
  let quotient := numerator / denominator
  let twice := 2 * (numerator % denominator)
  if denominator < twice || (twice == denominator && quotient % 2 == 1) then quotient + 1
  else quotient

def twoTo (exponent : Nat) : Nat := Nat.pow 2 exponent

def tenTo (exponent : Nat) : Nat := Nat.pow 10 exponent

/-- A nonnegative finite number of the format: a significand below `2 ^ 53` times a power of two, in
units of the least positive number. -/
structure Binary64 where
  significand : Nat
  power : Nat
  deriving DecidableEq, Repr

namespace Binary64

def scale : Nat := twoTo 1074

def units (value : Binary64) : Nat :=
  value.significand * twoTo value.power

def zero : Binary64 := ⟨0, 0⟩

/-- The number of the format nearest to a quotient, unless it is too large. -/
def ofRatio? (numerator denominator : Nat) : Option Binary64 :=
  let scaled := numerator * scale
  let power := (scaled / denominator).log2 - 52
  let significand := roundDiv scaled (denominator * twoTo power)
  let result : Binary64 :=
    if significand == twoTo 53 then ⟨twoTo 52, power + 1⟩ else ⟨significand, power⟩
  if twoTo 1024 * scale ≤ result.units then none else some result

/-- The number of the format nearest to a quotient, or the largest one. -/
def ofRatio (numerator denominator : Nat) : Binary64 :=
  (ofRatio? numerator denominator).getD ⟨twoTo 53 - 1, 2045⟩

def add (left right : Binary64) : Binary64 :=
  ofRatio (left.units + right.units) scale

/-- The quotient by a natural number that the format holds exactly, rounded once. -/
def divNat (value : Binary64) (divisor : Nat) : Binary64 :=
  ofRatio value.units (divisor * scale)

/-- The number with a fixed count of decimal places, a tie going to the even last digit. -/
def fixed (value : Binary64) (places : Nat) : String :=
  let rounded := roundDiv (value.units * tenTo places) scale
  let fraction := toString (rounded % tenTo places)
  toString (rounded / tenTo places) ++ "."
    ++ String.ofList (List.replicate (places - fraction.length) '0') ++ fraction

end Binary64
end Number
end StagedBuild
