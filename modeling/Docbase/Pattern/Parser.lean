import Docbase.Pattern.Basic

/-!
# Reading regular expressions

The written form: literals, `.`, classes, `^` and `$`, groups, alternatives, repetitions and
look-around. `Regex.parse?` refuses a text that is no pattern. Each function takes the characters
that are left and returns those that it has not used; a bound on the depth of the calls, taken
from the length of the pattern, is never reached.
-/

namespace Docbase.Regex

inductive Last
  | none
  | part (r : Regex)
  | fixed (r : Regex)

namespace Last

def close (before : Regex) : Last → Regex
  | .none => before
  | .part r | .fixed r => .seq before r

end Last

def decimal (digits : List Char) : Nat :=
  digits.foldl (fun n c => 10 * n + (c.toNat - 48)) 0

def hexValue? (c : Char) : Option Nat :=
  if c.isDigit then some (c.toNat - 48)
  else if 'a' ≤ c ∧ c ≤ 'f' then some (c.toNat - 87)
  else if 'A' ≤ c ∧ c ≤ 'F' then some (c.toNat - 55)
  else none

def hexChar? (width : Nat) (cs : List Char) : Option (Char × List Char) := do
  let digits := cs.take width
  if digits.length ≠ width then failure
  let code ← digits.foldlM (fun n c => do return 16 * n + (← hexValue? c)) 0
  if 0x110000 ≤ code then failure
  return (Char.ofNat code, cs.drop width)

def escapedChar? (c : Char) (rest : List Char) : Option (Char × List Char) :=
  match c with
  | 'n' => some ('\n', rest)
  | 't' => some ('\t', rest)
  | 'r' => some ('\r', rest)
  | 'f' => some ('\x0c', rest)
  | 'v' => some ('\x0b', rest)
  | 'a' => some ('\x07', rest)
  | '0' =>
    let digits := (rest.take 2).takeWhile fun d => '0' ≤ d ∧ d ≤ '7'
    let code := digits.foldl (fun n d => 8 * n + (d.toNat - 48)) 0
    some (Char.ofNat code, rest.drop digits.length)
  | 'x' => hexChar? 2 rest
  | 'u' => hexChar? 4 rest
  | 'U' => hexChar? 8 rest
  | _ => if c.isAlphanum then none else some (c, rest)

def escapedKind? : Char → Option CharItem
  | 'd' => some (.digit false)
  | 'D' => some (.digit true)
  | 's' => some (.blank false)
  | 'S' => some (.blank true)
  | 'w' => some (.word false)
  | 'W' => some (.word true)
  | _ => none

def classMember? : List Char → Option (CharItem × List Char)
  | '\\' :: c :: rest =>
    match escapedKind? c with
    | some item => some (item, rest)
    | none =>
      if c == 'b' then some (.char '\x08', rest)
      else (escapedChar? c rest).map fun (d, rest) => (.char d, rest)
  | ['\\'] => none
  | c :: rest => some (.char c, rest)
  | [] => none

def classItems? (items : List CharItem) : Nat → List Char → Option (List CharItem × List Char)
  | 0, _ => none
  | fuel + 1, cs =>
    match cs, items with
    | ']' :: rest, _ :: _ => some (items, rest)
    | _, _ => do
      let (first, cs) ← classMember? cs
      match cs with
      | '-' :: ']' :: rest => return (items ++ [first, .char '-'], rest)
      | '-' :: cs =>
        let (last, cs) ← classMember? cs
        match first, last with
        | .char a, .char b =>
          if b < a then failure else classItems? (items ++ [.range a b]) fuel cs
        | _, _ => failure
      | _ => classItems? (items ++ [first]) fuel cs

def bracedBounds? (cs : List Char) : Option ((Nat × Option Nat) × List Char) :=
  let low := cs.takeWhile Char.isDigit
  match cs.dropWhile Char.isDigit with
  | '\x7d' :: rest =>
    if low.isEmpty then none else some ((decimal low, some (decimal low)), rest)
  | ',' :: cs =>
    let high := cs.takeWhile Char.isDigit
    match cs.dropWhile Char.isDigit with
    | '\x7d' :: rest =>
      some ((decimal low, if high.isEmpty then none else some (decimal high)), rest)
    | _ => none
  | _ => none

def bounds? : List Char → Option ((Nat × Option Nat) × List Char)
  | '*' :: rest => some ((0, none), rest)
  | '+' :: rest => some ((1, none), rest)
  | '?' :: rest => some ((0, some 1), rest)
  | '\x7b' :: rest => bracedBounds? rest
  | _ => none

/-- Drops the mark that says which of several matches is preferred. -/
def dropPreference : List Char → List Char
  | '?' :: rest | '+' :: rest => rest
  | cs => cs

def isLayout (c : Char) : Bool := c == ' ' || (9 ≤ c.toNat && c.toNat ≤ 13)

mutual

def alternatives? (verbose : Bool) : Nat → List Char → Option (Regex × List Char)
  | 0, _ => none
  | fuel + 1, cs => do
    let (first, cs) ← sequence? verbose .empty .none fuel cs
    match cs with
    | '|' :: rest =>
      let (second, cs) ← alternatives? verbose fuel rest
      return (.alt first second, cs)
    | _ => return (first, cs)

def sequence? (verbose : Bool) (before : Regex) (last : Last) :
    Nat → List Char → Option (Regex × List Char)
  | 0, _ => none
  | fuel + 1, cs =>
    match cs with
    | [] | '|' :: _ | ')' :: _ => some (last.close before, cs)
    | c :: rest =>
      if verbose && isLayout c then sequence? verbose before last fuel rest
      else if verbose && c == '#' then
        sequence? verbose before last fuel (rest.dropWhile (· != '\n'))
      else match bounds? cs with
        | some ((least, most), cs) =>
          match last with
          | .part r =>
            if most.any (· < least) then none
            else sequence? verbose before (.fixed (.rep r least most)) fuel (dropPreference cs)
          | _ => none
        | none => do
          match ← part? verbose fuel c rest with
          | (.none, cs) => sequence? verbose before last fuel cs
          | (next, cs) => sequence? verbose (last.close before) next fuel cs

/-- The part that begins with the character `c`; a comment is none. -/
def part? (verbose : Bool) : Nat → Char → List Char → Option (Last × List Char)
  | 0, _, _ => none
  | fuel + 1, c, rest =>
    match c with
    | '.' => some (.part .anyChar, rest)
    | '^' => some (.fixed .lineStart, rest)
    | '$' => some (.fixed .lineEnd, rest)
    | '(' => group? verbose fuel rest
    | '[' => do
      let (negated, cs) := match rest with
        | '^' :: cs => (true, cs)
        | cs => (false, cs)
      let (items, cs) ← classItems? [] (cs.length + 1) cs
      return (.part (.oneOf negated items), cs)
    | '\\' =>
      match rest with
      | [] => none
      | 'A' :: cs => some (.fixed .textStart, cs)
      | 'Z' :: cs => some (.fixed .textEnd, cs)
      | 'b' :: cs => some (.fixed (.wordBoundary false), cs)
      | 'B' :: cs => some (.fixed (.wordBoundary true), cs)
      | d :: cs =>
        match escapedKind? d with
        | some item => some (.part (.oneOf false [item]), cs)
        | none => (escapedChar? d cs).map fun (e, cs) => (.part (.oneOf false [.char e]), cs)
    | _ => some (.part (.oneOf false [.char c]), rest)

def group? (verbose : Bool) : Nat → List Char → Option (Last × List Char)
  | 0, _ => none
  | fuel + 1, cs =>
    match cs with
    | '?' :: ':' :: cs => body? verbose fuel id cs
    | '?' :: '=' :: cs => body? verbose fuel (.ahead false) cs
    | '?' :: '!' :: cs => body? verbose fuel (.ahead true) cs
    | '?' :: '<' :: '=' :: cs => body? verbose fuel (.behind false) cs
    | '?' :: '<' :: '!' :: cs => body? verbose fuel (.behind true) cs
    | '?' :: 'P' :: '<' :: cs =>
      let name := cs.takeWhile Text.isWord
      match name, cs.dropWhile Text.isWord with
      | first :: _, '>' :: cs =>
        if Text.isDecimalDigit first then none else body? verbose fuel id cs
      | _, _ => none
    | '?' :: '#' :: cs =>
      match cs.dropWhile (· != ')') with
      | _ :: cs => some (.none, cs)
      | [] => none
    | '?' :: _ => none
    | cs => body? verbose fuel id cs

def body? (verbose : Bool) : Nat → (Regex → Regex) → List Char → Option (Last × List Char)
  | 0, _, _ => none
  | fuel + 1, wrap, cs => do
    let (r, cs) ← alternatives? verbose fuel cs
    match cs with
    | ')' :: cs => return (.part (wrap r), cs)
    | _ => failure

end

def leadingFlags? (flags : PatternFlags) : List Char → Option (PatternFlags × List Char)
  | 'i' :: cs => leadingFlags? { flags with ignoreCase := true } cs
  | 'm' :: cs => leadingFlags? { flags with multiLine := true } cs
  | 's' :: cs => leadingFlags? { flags with dotAll := true } cs
  | 'x' :: cs => leadingFlags? { flags with verbose := true } cs
  | 'u' :: cs => leadingFlags? flags cs
  | ')' :: cs => some (flags, cs)
  | _ => none

def parse? (flags : PatternFlags) (source : String) : Option (Regex × PatternFlags) := do
  let cs := source.toList
  let (flags, cs) := match cs with
    | '(' :: '?' :: c :: rest => (leadingFlags? flags (c :: rest)).getD (flags, cs)
    | _ => (flags, cs)
  let (r, rest) ← alternatives? flags.verbose (4 * cs.length + 8) cs
  if rest.isEmpty then return (r, flags) else failure

end Docbase.Regex
