/-!
# Ranges of characters

Character properties are tables of code point ranges, both ends included.
-/

namespace Docbase.Text

def inRanges (ranges : List (Nat × Nat)) (code : Nat) : Bool :=
  ranges.any fun (first, last) => first ≤ code && code ≤ last

end Docbase.Text
