import StagedBuild.Number.Shortest

/-!
# Values of a configuration document

A document is a tree of tables, arrays and scalars.  The keys of a table keep the order in which
they were written, because problems are reported in that order.
-/

namespace StagedBuild
namespace Toml

inductive Real where
  | nan
  | infinite (negative : Bool)
  | finite (negative : Bool) (magnitude : Number.Binary64)
  deriving DecidableEq, Repr

namespace Real

/-- The text of a floating-point value: the shortest decimal, never with an exponent. -/
def text : Real → String
  | nan => "NaN"
  | infinite negative => if negative then "-inf" else "inf"
  | finite negative magnitude =>
      (if negative then "-" else "") ++ magnitude.shortest.positional

end Real

inductive Value where
  | string (text : String)
  | integer (value : Int)
  | float (value : Real)
  | boolean (value : Bool)
  /-- A date, a time, or both. -/
  | datetime (text : String)
  | array (items : List Value)
  | table (entries : List (String × Value))
  /-- An array of tables, of which each has a header of its own. -/
  | tables (items : List (List (String × Value)))
  deriving Repr

/-- The keys of a table with their values, in order. -/
abbrev Table := List (String × Value)

namespace Value

def typeName : Value → String
  | string _ => "string"
  | integer _ => "integer"
  | float _ => "float"
  | boolean _ => "boolean"
  | datetime _ => "datetime"
  | array _ => "array"
  | table _ => "table"
  | tables _ => "array of tables"

/-- The items of an array, however it is written. -/
def items? : Value → Option (List Value)
  | array items => some items
  | tables items => some (items.map table)
  | _ => none

end Value
end Toml
end StagedBuild
