/-!
# Timestamps

A calendar date with a time of day and, if it is known, an offset from universal time. Timestamps
with an offset are ordered by the instant they name, those without one by their calendar fields;
one of each kind cannot be ordered.
-/

namespace Docbase

/-- A date and time of day; `offset` is in seconds east of universal time. -/
structure Timestamp where
  year : Nat
  month : Nat
  day : Nat
  hour : Nat := 0
  minute : Nat := 0
  second : Nat := 0
  microsecond : Nat := 0
  offset : Option Int := none
  deriving DecidableEq, Repr, Inhabited

namespace Timestamp

/-- The number of days before a date, counted from the first of March of the year zero. -/
def dayNumber (year month day : Nat) : Int :=
  let shifted : Int := if month ≤ 2 then (year : Int) - 1 else year
  let fromMarch : Int := if month ≤ 2 then (month : Int) + 9 else (month : Int) - 3
  365 * shifted + shifted / 4 - shifted / 100 + shifted / 400 + (153 * fromMarch + 2) / 5
    + (day : Int) - 1

def clock (t : Timestamp) : Int :=
  ((dayNumber t.year t.month t.day * 24 + t.hour) * 60 + t.minute) * 60000000
    + t.second * 1000000 + t.microsecond

def instant (t : Timestamp) (seconds : Int) : Int := t.clock - seconds * 1000000

def compare? (a b : Timestamp) : Option Ordering :=
  match a.offset, b.offset with
  | none, none => some (Ord.compare a.clock b.clock)
  | some x, some y => some (Ord.compare (a.instant x) (b.instant y))
  | _, _ => none

def padded (width n : Nat) : String :=
  let digits := Nat.toDigits 10 n
  String.ofList (List.replicate (width - digits.length) '0' ++ digits)

def offsetText (seconds : Int) : String :=
  let n := seconds.natAbs
  let base := (if seconds < 0 then "-" else "+") ++ padded 2 (n / 3600) ++ ":"
    ++ padded 2 (n / 60 % 60)
  if n % 60 = 0 then base else base ++ ":" ++ padded 2 (n % 60)

def text (t : Timestamp) (separator : String) : String :=
  padded 4 t.year ++ "-" ++ padded 2 t.month ++ "-" ++ padded 2 t.day ++ separator
    ++ padded 2 t.hour ++ ":" ++ padded 2 t.minute ++ ":" ++ padded 2 t.second
    ++ (if t.microsecond = 0 then "" else "." ++ padded 6 t.microsecond)
    ++ (t.offset.map offsetText).getD ""

/-! ## Reading -/

def readNumber? (width : Nat) (cs : List Char) : Option (Nat × List Char) :=
  let digits := cs.take width
  if digits.length = width ∧ digits.all Char.isDigit then
    some (digits.foldl (fun n c => 10 * n + (c.toNat - 48)) 0, cs.drop width)
  else none

def readAfter? (mark : Char) (width : Nat) : List Char → Option (Nat × List Char)
  | c :: rest => if c = mark then readNumber? width rest else none
  | [] => none

/-- Decimals of a second as microseconds; digits beyond the sixth are dropped. -/
def readFraction (cs : List Char) : Nat × List Char :=
  match cs with
  | '.' :: rest | ',' :: rest =>
    let digits := rest.takeWhile Char.isDigit
    let six := (digits ++ List.replicate 6 '0').take 6
    (six.foldl (fun n c => 10 * n + (c.toNat - 48)) 0, rest.dropWhile Char.isDigit)
  | _ => (0, cs)

/-- Hour, minute, second and microsecond; minutes and seconds may be absent. -/
def readTime? (cs : List Char) : Option ((Nat × Nat × Nat × Nat) × List Char) := do
  let (hour, cs) ← readNumber? 2 cs
  match readAfter? ':' 2 cs with
  | none => return ((hour, 0, 0, 0), cs)
  | some (minute, cs) =>
    match readAfter? ':' 2 cs with
    | none => return ((hour, minute, 0, 0), cs)
    | some (second, cs) =>
      let (fraction, cs) := readFraction cs
      return ((hour, minute, second, fraction), cs)

def readOffset? : List Char → Option (Option Int)
  | [] => some none
  | ['Z'] => some (some 0)
  | sign :: cs => do
    let ((hour, minute, second, _), rest) ← readTime? cs
    let seconds : Int := hour * 3600 + minute * 60 + second
    if !rest.isEmpty then none
    else if sign = '+' then some (some seconds)
    else if sign = '-' then some (some (-seconds))
    else none

/-- Reads a date, alone or with a time of day after any one separator. -/
def ofText? (s : String) : Option Timestamp := do
  let (year, cs) ← readNumber? 4 s.toList
  let (month, cs) ← readAfter? '-' 2 cs
  let (day, cs) ← readAfter? '-' 2 cs
  match cs with
  | [] => return { year, month, day }
  | _ :: cs =>
    let ((hour, minute, second, microsecond), cs) ← readTime? cs
    let offset ← readOffset? cs
    return { year, month, day, hour, minute, second, microsecond, offset }

end Timestamp
end Docbase
