import StagedBuild.Number.Binary64

/-!
# Shortest decimal texts

The text of a number has the fewest digits that read back as the same number, and among these the
digits nearest to it.  For every count of digits the two neighbours of the number on that decimal
grid are tried, so the first hit decides.
-/

namespace StagedBuild
namespace Number

/-- A decimal number `digits * 10 ^ exponent`. -/
structure Decimal where
  digits : Nat
  exponent : Int
  deriving DecidableEq, Repr

namespace Binary64

/-- The exponent `e` with `10 ^ (e - 1) ≤ value < 10 ^ e`, for a positive value. -/
def magnitude (value : Binary64) : Int :=
  if scale ≤ value.units then ((toString (value.units / scale)).length : Int)
  else
    match (List.range 400).find? fun shift => scale ≤ value.units * tenTo shift with
    | some shift => 1 - (shift : Int)
    | none => 0

/-- A decimal on the grid of `unit` reads back as the number. -/
def readsBack (value : Binary64) (digits : Nat) (unit : Int) : Bool :=
  let up := tenTo unit.toNat
  let down := tenTo (-unit).toNat
  let gap := twoTo value.power * down
  let below := if value.significand == twoTo 52 && value.power != 0 then gap else 2 * gap
  let middle := 4 * value.units * down
  let candidate := 4 * digits * scale * up
  if value.significand % 2 == 0 then
    decide (middle ≤ candidate + below) && decide (candidate ≤ middle + 2 * gap)
  else decide (middle < candidate + below) && decide (candidate < middle + 2 * gap)

/-- The better neighbour of the number on the grid of `unit`, if one reads back. -/
def neighbour? (value : Binary64) (unit : Int) : Option Decimal :=
  let numerator := value.units * tenTo (-unit).toNat
  let denominator := scale * tenTo unit.toNat
  let floor := numerator / denominator
  let nearer := if 2 * (numerator % denominator) < denominator then floor else floor + 1
  let farther := if nearer == floor then floor + 1 else floor
  if value.readsBack nearer unit then some ⟨nearer, unit⟩
  else if value.readsBack farther unit then some ⟨farther, unit⟩
  else none

/-- The shortest decimal that reads back as the number. -/
def shortest (value : Binary64) : Decimal :=
  if value.significand == 0 then ⟨0, 0⟩
  else
    let magnitude := value.magnitude
    ((List.range 17).findSome? fun (count : Nat) =>
      value.neighbour? (magnitude - (count : Int) - 1)).getD ⟨0, 0⟩

end Binary64

namespace Decimal

/-- The decimal written without an exponent, with at least one place after the point. -/
def positional (decimal : Decimal) : String :=
  let places := (-decimal.exponent).toNat
  let scaled := decimal.digits * tenTo decimal.exponent.toNat
  let whole := scaled / tenTo places
  let fraction := (toString (scaled % tenTo places)).toList
  let padded := List.replicate (places - fraction.length) '0' ++ fraction
  let trimmed := (padded.reverse.dropWhile (· == '0')).reverse
  toString whole ++ "." ++ (if trimmed.isEmpty then "0" else String.ofList trimmed)

/-- Decimal powers beyond which every number is too large or rounds to zero. -/
def powerLimit : Nat := 1100

def toBinary64? (decimal : Decimal) : Option Binary64 :=
  if decimal.digits == 0 then some .zero
  else
    let magnitude : Int := (toString decimal.digits).length + decimal.exponent
    if (powerLimit : Int) < magnitude then none
    else if magnitude < -(powerLimit : Int) then some .zero
    else
      Binary64.ofRatio? (decimal.digits * tenTo decimal.exponent.toNat)
        (tenTo (-decimal.exponent).toNat)

end Decimal
end Number
end StagedBuild
