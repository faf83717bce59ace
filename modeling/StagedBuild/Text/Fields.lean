/-!
# Separated fields

A text is cut at every separator, so `n` separators give `n + 1` fields, some of them possibly
empty.
-/

namespace StagedBuild
namespace Text

/-- Put a character in front of the fields that follow it. -/
def consField (separator char : Char) : List (List Char) → List (List Char)
  | [] => [[char]]
  | field :: rest => if char = separator then [] :: field :: rest else (char :: field) :: rest

/-- The texts between the separators, empty ones included. -/
def fields (separator : Char) (text : String) : List String :=
  (text.toList.foldr (consField separator) [[]]).map String.ofList

end Text
end StagedBuild
