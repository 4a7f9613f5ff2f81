import Docbase.Text.Range

/-!
# Blank characters

The characters that separate words: white space, line ends and the ASCII separators.
-/

namespace Docbase.Text

/-- The blank characters above ASCII (Unicode 14). -/
def blankRanges : List (Nat × Nat) := [
  (0x85, 0x85), (0xa0, 0xa0), (0x1680, 0x1680), (0x2000, 0x200a), (0x2028, 0x2029),
  (0x202f, 0x202f), (0x205f, 0x205f), (0x3000, 0x3000)]

def isBlank (c : Char) : Bool :=
  let code := c.toNat
  if code < 0x80 then (9 ≤ code && code ≤ 13) || (28 ≤ code && code ≤ 32)
  else inRanges blankRanges code

end Docbase.Text
