/-!
# Blank text

The characters with the Unicode property `White_Space`, and the texts that hold no others.
-/

namespace StagedBuild
namespace Text

/-- First and last code points of the runs of blank characters. -/
def blankRuns : List (Nat × Nat) :=
  [(0x9, 0xD), (0x20, 0x20), (0x85, 0x85), (0xA0, 0xA0), (0x1680, 0x1680), (0x2000, 0x200A),
    (0x2028, 0x2029), (0x202F, 0x202F), (0x205F, 0x205F), (0x3000, 0x3000)]

/-- The character has the property `White_Space`. -/
def isBlankChar (char : Char) : Bool :=
  blankRuns.any fun (first, last) => first ≤ char.toNat && char.toNat ≤ last

def isBlank (text : String) : Bool :=
  text.toList.all isBlankChar

end Text
end StagedBuild
