import Docbase.Double

/-!
# Reading doubles

The double that a decimal numeral stands for is the one nearest to it; of two that are equally near
it is the one with the even significand.
-/

namespace Docbase.Double

def roundedQuotient (n d : Nat) : Nat :=
  let q := n / d
  let twice := 2 * (n % d)
  if twice < d then q else if d < twice then q + 1 else q + q % 2

def ofScientific (negative : Bool) (digits : Nat) (exponent : Int) : Double :=
  let numerator := digits * Nat.pow 10 exponent.toNat * unitsPerOne
  let denominator := Nat.pow 10 (-exponent).toNat
  let whole := numerator / denominator
  let excess := if whole = 0 then 0 else whole.log2 + 1 - 53
  let step := Nat.pow 2 excess
  let units := roundedQuotient numerator (denominator * step) * step
  if Nat.pow 2 2098 ≤ units then .infinite negative else .finite negative units

def digitsValue (cs : List Char) : Nat :=
  cs.foldl (fun n c => n * 10 + (c.toNat - '0'.toNat)) 0

def exponentValue : List Char → Int
  | '-' :: cs => -(digitsValue cs : Int)
  | '+' :: cs => digitsValue cs
  | cs => digitsValue cs

def ofUnsigned (negative : Bool) (cs : List Char) : Double :=
  let mantissa := cs.takeWhile fun c => c != 'e' && c != 'E'
  let exponent := exponentValue (cs.drop (mantissa.length + 1))
  let whole := mantissa.takeWhile (· != '.')
  let fraction := mantissa.drop (whole.length + 1)
  ofScientific negative (digitsValue (whole ++ fraction)) (exponent - fraction.length)

def ofText (s : String) : Double :=
  let (negative, cs) := match s.toList with
    | '-' :: cs => (true, cs)
    | cs => (false, cs)
  if cs = "inf".toList then .infinite negative
  else if cs = "nan".toList then .nan 0
  else ofUnsigned negative cs

end Docbase.Double
