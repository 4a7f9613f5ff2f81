import Docbase.Double

/-!
# Shortest decimals

The decimal with the fewest digits among those that round to a given double, and of these the
nearest one. A finite double other than zero is `m · 2^q` units with `m < 2^53`; the reals that
round to it reach half a unit in the last place to either side (a quarter below a power of two),
ends included if `m` is even. On the grid of `n` significant digits the two neighbours of the
value are tried; the first `n` with a hit is the fewest.

All of it is done in quarters of a unit, so that the ends of the interval are whole numbers.
-/

namespace Docbase.Double

/-- The reals that round to a double, in quarters of a unit. -/
structure Interval where
  low : Nat
  high : Nat
  closed : Bool

def interval (units : Nat) : Interval :=
  let q := Nat.log2 units - 52
  let step := Nat.pow 2 q
  let m := units / step
  let below := if m = Nat.pow 2 52 ∧ 0 < q then step else 2 * step
  { low := 4 * units - below, high := 4 * units + 2 * step, closed := m % 2 == 0 }

structure Decimal where
  digits : Nat
  exponent : Int
  deriving DecidableEq, Repr

namespace Decimal

def quarters (d : Decimal) : Nat × Nat :=
  match d.exponent with
  | .ofNat e => (d.digits * Nat.pow 10 e * (4 * unitsPerOne), 1)
  | .negSucc e => (d.digits * (4 * unitsPerOne), Nat.pow 10 (e + 1))

def inside (d : Decimal) (i : Interval) : Bool :=
  let (num, den) := d.quarters
  if i.closed then i.low * den ≤ num && num ≤ i.high * den
  else i.low * den < num && num < i.high * den

def distance (d : Decimal) (quarters : Nat) : Nat :=
  let (num, den) := d.quarters
  (num - quarters * den) + (quarters * den - num)

def trim (d : Decimal) : Nat → Decimal
  | 0 => d
  | fuel + 1 =>
    if d.digits ≠ 0 ∧ d.digits % 10 = 0 then trim ⟨d.digits / 10, d.exponent + 1⟩ fuel else d

end Decimal

def leadingExponent (units : Nat) : Int :=
  ((Nat.toDigits 10 (units * Nat.pow 10 400 / unitsPerOne)).length : Int) - 401

def gridFloor (units : Nat) : Int → Nat
  | .ofNat e => units / (Nat.pow 10 e * unitsPerOne)
  | .negSucc e => units * Nat.pow 10 (e + 1) / unitsPerOne

/-- The multiple of a power of ten that rounds to `units` units, if there is one: the nearer of the
value's two neighbours, and on a tie the even one. -/
def neighbour? (units : Nat) (exponent : Int) : Option Decimal :=
  let floor := gridFloor units exponent
  let below : Decimal := ⟨floor, exponent⟩
  let above : Decimal := ⟨floor + 1, exponent⟩
  let i := interval units
  match below.inside i, above.inside i with
  | true, true =>
    let a := below.distance (4 * units)
    let b := above.distance (4 * units)
    some (if a < b then below else if b < a then above else if floor % 2 = 0 then below else above)
  | true, false => some below
  | false, true => some above
  | false, false => none

def decimalOf? (units n : Nat) : Option Decimal :=
  neighbour? units (leadingExponent units - (n - 1))

/-- The shortest decimal that rounds to `units` units. Seventeen digits always suffice. -/
def shortest (units : Nat) : Decimal :=
  let found := (List.range 17).findSome? fun n => decimalOf? units (n + 1)
  (found.getD ⟨units, 0⟩).trim 17

end Docbase.Double
