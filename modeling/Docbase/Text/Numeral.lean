import Docbase.Text.Blank
import Docbase.Text.Digit

/-!
# Integer numerals

A numeral is an optional sign and decimal digits of any script; single underscores may stand
between two digits, and blank space around the whole is ignored.
-/

namespace Docbase.Text

/-- Blank characters that may surround a numeral: all but the ASCII separators. -/
def isPadding (c : Char) : Bool := isBlank c && !(28 ≤ c.toNat && c.toNat ≤ 31)

/-- The value of a row of digits; `started` tells whether a digit stands right before the row. -/
def digitsValue? (value : Nat) (started : Bool) : List Char → Option Nat
  | [] => if started then some value else none
  | '_' :: rest => if started then digitsValue? value false rest else none
  | c :: rest => do digitsValue? (10 * value + (← decimalValue? c)) true rest

def readInt? (s : String) : Option Int :=
  let unpadded := ((s.toList.dropWhile isPadding).reverse.dropWhile isPadding).reverse
  match unpadded with
  | '-' :: digits => (digitsValue? 0 false digits).map fun n => -(n : Int)
  | '+' :: digits => (digitsValue? 0 false digits).map Int.ofNat
  | digits => (digitsValue? 0 false digits).map Int.ofNat

end Docbase.Text
