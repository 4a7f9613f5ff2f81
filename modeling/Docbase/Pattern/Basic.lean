import Docbase.Text.Blank
import Docbase.Text.Case
import Docbase.Text.Digit
import Docbase.Text.Word

/-!
# Regular expressions

The tree of a regular expression and where it matches. `Regex.ends` gives every position at which
a match that starts at a given position can end, so a match exists iff there is a start with an
end; which of several matches a backtracking search would prefer plays no part.
-/

namespace Docbase

structure PatternFlags where
  ignoreCase : Bool := false
  multiLine : Bool := false
  dotAll : Bool := false
  verbose : Bool := false
  deriving DecidableEq, Repr, Inhabited

inductive CharItem
  | char (c : Char)
  | range (first last : Char)
  | digit (negated : Bool)
  | blank (negated : Bool)
  | word (negated : Bool)
  deriving DecidableEq, Repr

inductive Regex
  | empty
  | anyChar
  | oneOf (negated : Bool) (items : List CharItem)
  | seq (first second : Regex)
  | alt (first second : Regex)
  /-- At least `least` times and, if there is a bound, at most `most` times. -/
  | rep (body : Regex) (least : Nat) (most : Option Nat)
  | lineStart
  | lineEnd
  | textStart
  | textEnd
  | wordBoundary (negated : Bool)
  | ahead (negated : Bool) (body : Regex)
  | behind (negated : Bool) (body : Regex)
  deriving Repr

namespace CharItem

def holds (ignoreCase : Bool) (item : CharItem) (c : Char) : Bool :=
  match item with
  | char d => c == d || (ignoreCase && Text.lower c == Text.lower d)
  | range first last =>
    let inside (d : Char) := first ≤ d && d ≤ last
    inside c || (ignoreCase && (inside (Text.lower c) || inside (Text.upper c)))
  | digit negated => Text.isDecimalDigit c != negated
  | blank negated => Text.isBlank c != negated
  | word negated => Text.isWord c != negated

end CharItem

namespace Regex

def exactly (step : Nat → List Nat) : Nat → List Nat → List Nat
  | 0, ps => ps
  | n + 1, ps => if ps.isEmpty then [] else exactly step n (ps.flatMap step).eraseDups

def within (step : Nat → List Nat) : Nat → List Nat → List Nat
  | 0, ps => ps
  | n + 1, ps =>
    if ps.isEmpty then [] else (ps ++ within step n (ps.flatMap step).eraseDups).eraseDups

def isBoundary (text : Array Char) (i : Nat) : Bool :=
  let wordAt (j : Nat) := (text[j]?.map Text.isWord).getD false
  (0 < i && wordAt (i - 1)) != wordAt i

def ends (flags : PatternFlags) (text : Array Char) : Regex → Nat → List Nat
  | empty, i => [i]
  | anyChar, i =>
    match text[i]? with
    | some c => if flags.dotAll || c != '\n' then [i + 1] else []
    | none => []
  | oneOf negated items, i =>
    match text[i]? with
    | some c => if (items.any fun item => item.holds flags.ignoreCase c) != negated then [i + 1]
      else []
    | none => []
  | seq first second, i => ((ends flags text first i).flatMap (ends flags text second)).eraseDups
  | alt first second, i => (ends flags text first i ++ ends flags text second i).eraseDups
  | rep body least most, i =>
    let step := ends flags text body
    let more := match most with
      | some m => m - least
      | none => text.size
    within step more (exactly step least [i])
  | lineStart, i =>
    if i = 0 || (flags.multiLine && text[i - 1]? == some '\n') then [i] else []
  | lineEnd, i =>
    if i = text.size || (i + 1 = text.size && text[i]? == some '\n') ||
      (flags.multiLine && text[i]? == some '\n') then [i] else []
  | textStart, i => if i = 0 then [i] else []
  | textEnd, i => if i = text.size then [i] else []
  | wordBoundary negated, i => if isBoundary text i != negated then [i] else []
  | ahead negated body, i => if (ends flags text body i).isEmpty == negated then [i] else []
  | behind negated body, i =>
    if ((List.range (i + 1)).any fun j => (ends flags text body j).contains i) != negated then [i]
    else []

def occursIn (r : Regex) (flags : PatternFlags) (text : String) : Bool :=
  let chars := text.toList.toArray
  (List.range (chars.size + 1)).any fun i => !(ends flags chars r i).isEmpty

end Regex
end Docbase
