/-!
# Doubles

A binary64 number, kept as the number it stands for: a sign and a whole number of units of
2⁻¹⁰⁷⁴, the least positive double. Every finite double is such a multiple, so the order of two
doubles, and of a double and an integer of any size, is the order of two integers.
-/

namespace Docbase

def unitsPerOne : Nat := Nat.pow 2 1074

/-- A binary64 number. A NaN carries a mark that tells it from the others: two NaNs are the same
value only if their marks agree. -/
inductive Double
  | finite (negative : Bool) (units : Nat)
  | infinite (negative : Bool)
  | nan (mark : Nat)
  deriving DecidableEq, Repr, Inhabited

/-- A point of the line that runs from minus infinity over the whole multiples of 2⁻¹⁰⁷⁴ to plus
infinity. -/
inductive Place
  | bottom
  | units (n : Int)
  | top
  deriving DecidableEq, Repr

namespace Place

def compare : Place → Place → Ordering
  | .bottom, .bottom => .eq
  | .bottom, _ => .lt
  | _, .bottom => .gt
  | .top, .top => .eq
  | .top, _ => .gt
  | _, .top => .lt
  | .units a, .units b => Ord.compare a b

def ofInt (n : Int) : Place := .units (n * unitsPerOne)

end Place

namespace Double

def isNaN : Double → Bool
  | .nan _ => true
  | _ => false

def isZero : Double → Bool
  | .finite _ 0 => true
  | _ => false

def place? : Double → Option Place
  | .finite negative units => some (.units (if negative then -units else units))
  | .infinite negative => some (if negative then .bottom else .top)
  | .nan _ => none

def truncate? : Double → Option Int
  | .finite negative units =>
    let whole : Int := (units / unitsPerOne : Nat)
    some (if negative then -whole else whole)
  | _ => none

end Double
end Docbase
