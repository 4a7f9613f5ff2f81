import Docbase.Json.Basic

/-!
# Reading JSON

A reader for JSON texts. Escapes of UTF-16 units are joined to characters where they form pairs.
-/

namespace Docbase.Json

def isBlank (c : Char) : Bool := c == ' ' || c == '\n' || c == '\t' || c == '\r'

def isNumberPart (c : Char) : Bool := c.isDigit || ['+', '-', '.', 'e', 'E'].contains c

def hexValue (c : Char) : Nat :=
  if c.isDigit then c.toNat - '0'.toNat
  else if 'a' ≤ c ∧ c ≤ 'f' then c.toNat - 'a'.toNat + 10
  else c.toNat - 'A'.toNat + 10

def hexNumber (cs : List Char) : Nat := cs.foldl (fun n c => n * 16 + hexValue c) 0

def escapeValue : Char → Char
  | 'n' => '\n'
  | 't' => '\t'
  | 'r' => '\r'
  | 'b' => Char.ofNat 8
  | 'f' => Char.ofNat 12
  | c => c

def readUnits : List Char → Option (List Nat × List Char)
  | [] => none
  | '"' :: rest => some ([], rest)
  | '\\' :: 'u' :: a :: b :: c :: d :: rest => do
    let (units, rest) ← readUnits rest
    return (hexNumber [a, b, c, d] :: units, rest)
  | '\\' :: c :: rest => do
    let (units, rest) ← readUnits rest
    return ((escapeValue c).toNat :: units, rest)
  | c :: rest => do
    let (units, rest) ← readUnits rest
    return (c.toNat :: units, rest)

def joinUnits : List Nat → List Char
  | [] => []
  | [unit] => [Char.ofNat unit]
  | high :: low :: rest =>
    if 0xD800 ≤ high ∧ high < 0xDC00 ∧ 0xDC00 ≤ low ∧ low < 0xE000 then
      Char.ofNat (0x10000 + (high - 0xD800) * 0x400 + (low - 0xDC00)) :: joinUnits rest
    else Char.ofNat high :: joinUnits (low :: rest)

def readString (cs : List Char) : Option (String × List Char) := do
  let (units, rest) ← readUnits cs
  return (String.ofList (joinUnits units), rest)

def after? (word : String) (cs : List Char) : Option (List Char) :=
  if word.toList.isPrefixOf cs then some (cs.drop word.length) else none

mutual

def readValue : Nat → List Char → Option (Json × List Char)
  | 0, _ => none
  | fuel + 1, cs =>
    match cs.dropWhile isBlank with
    | 'n' :: rest => (after? "ull" rest).map (null, ·)
    | 't' :: rest => (after? "rue" rest).map (bool true, ·)
    | 'f' :: rest => (after? "alse" rest).map (bool false, ·)
    | '"' :: rest => (readString rest).map fun (s, rest) => (str s, rest)
    | '[' :: rest =>
      match rest.dropWhile isBlank with
      | ']' :: rest => some (array [], rest)
      | rest => (readItems fuel rest).map fun (items, rest) => (array items, rest)
    | '\x7b' :: rest =>
      match rest.dropWhile isBlank with
      | '\x7d' :: rest => some (object [], rest)
      | rest => (readFields fuel rest).map fun (fields, rest) => (object fields, rest)
    | rest =>
      let digits := rest.takeWhile isNumberPart
      if digits.isEmpty then none
      else some (number (String.ofList digits), rest.dropWhile isNumberPart)

def readItems : Nat → List Char → Option (List Json × List Char)
  | 0, _ => none
  | fuel + 1, cs => do
    let (item, rest) ← readValue fuel cs
    match rest.dropWhile isBlank with
    | ',' :: rest => do
      let (items, rest) ← readItems fuel rest
      return (item :: items, rest)
    | ']' :: rest => return ([item], rest)
    | _ => none

def readFields : Nat → List Char → Option (List (String × Json) × List Char)
  | 0, _ => none
  | fuel + 1, cs => do
    let rest ← after? "\"" (cs.dropWhile isBlank)
    let (key, rest) ← readString rest
    let rest ← after? ":" (rest.dropWhile isBlank)
    let (v, rest) ← readValue fuel rest
    match rest.dropWhile isBlank with
    | ',' :: rest => do
      let (fields, rest) ← readFields fuel rest
      return ((key, v) :: fields, rest)
    | '\x7d' :: rest => return ([(key, v)], rest)
    | _ => none

end

def ofText? (s : String) : Option Json := do
  let (j, rest) ← readValue (s.length + 1) s.toList
  if rest.all isBlank then return j else none

end Docbase.Json
