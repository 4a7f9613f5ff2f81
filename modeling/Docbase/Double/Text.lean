import Docbase.Double.Shortest

/-!
# The text of a double

The shortest digits of `Docbase.Double.shortest`, laid out by a `DoubleFormat`.
-/

namespace Docbase

structure DoubleFormat where
  positionalFrom : Int
  positionalBelow : Int
  wholeMark : String
  exponentMark : String
  exponentDigits : Nat
  infinity : String
  notANumber : String

namespace DoubleFormat

/-- Numbers from a ten-thousandth up to ten to the sixteenth are written without an exponent and
show at least one decimal; all others have an exponent of two digits or more. -/
def standard : DoubleFormat where
  positionalFrom := -4
  positionalBelow := 16
  wholeMark := ".0"
  exponentMark := "e"
  exponentDigits := 2
  infinity := "inf"
  notANumber := "nan"

def zeros (n : Nat) : String := String.ofList (List.replicate n '0')

def padded (width n : Nat) : String :=
  let digits := Nat.toDigits 10 n
  String.ofList (List.replicate (width - digits.length) '0' ++ digits)

def positional (f : DoubleFormat) (digits : List Char) (exponent : Int) : String :=
  let point : Int := digits.length + exponent
  if 0 ≤ exponent then String.ofList digits ++ zeros exponent.toNat ++ f.wholeMark
  else if 0 < point then
    String.ofList (digits.take point.toNat) ++ "." ++ String.ofList (digits.drop point.toNat)
  else "0." ++ zeros (-point).toNat ++ String.ofList digits

def scientific (f : DoubleFormat) (digits : List Char) (leading : Int) : String :=
  let mantissa := match digits with
    | first :: second :: rest => String.ofList [first] ++ "." ++ String.ofList (second :: rest)
    | few => String.ofList few
  let sign := if leading < 0 then "-" else "+"
  mantissa ++ f.exponentMark ++ sign ++ padded f.exponentDigits leading.natAbs

def magnitude (f : DoubleFormat) (units : Nat) : String :=
  if units = 0 then f.positional ['0'] 0
  else
    let d := Double.shortest units
    let digits := Nat.toDigits 10 d.digits
    let leading : Int := digits.length + d.exponent - 1
    if f.positionalFrom ≤ leading ∧ leading < f.positionalBelow then f.positional digits d.exponent
    else f.scientific digits leading

def text (f : DoubleFormat) : Double → String
  | .finite negative units => (if negative then "-" else "") ++ f.magnitude units
  | .infinite negative => (if negative then "-" else "") ++ f.infinity
  | .nan _ => f.notANumber

end DoubleFormat
end Docbase
