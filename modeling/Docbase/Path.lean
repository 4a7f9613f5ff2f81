import Docbase.Text.Digit
import Docbase.Text.Numeral
import Docbase.Value

/-!
# Field paths

A path names a field of a document, a field of that field and so on, with dots in between. Where
it meets a list, a part made of digits picks an item. Reading a path that leads nowhere gives
`missing`; writing one creates the documents on the way and replaces whatever else is there.
-/

namespace Docbase

namespace Path

def cut : List Char → List (List Char)
  | [] => [[]]
  | c :: rest =>
    match c, cut rest with
    | '.', parts => [] :: parts
    | _, [] => [[c]]
    | _, part :: parts => (c :: part) :: parts

def parts (path : String) : List String := (cut path.toList).map String.ofList

def isPosition (part : String) : Bool := !part.isEmpty && part.toList.all Text.isDigit

end Path

namespace Value

/-- One step of a path. A position spelled with digits that form no numeral is an error. -/
def step (v : Value) (part : String) : Except Misuse Value :=
  match v with
  | .doc fields => .ok (field part fields)
  | .list items =>
    if Path.isPosition part then
      match Text.digitsValue? 0 false part.toList with
      | some n => .ok (items[n]?.getD .missing)
      | none => .error .badValue
    else .ok .missing
  | _ => .ok .missing

def follow : List String → Value → Except Misuse Value
  | [], v => .ok v
  | part :: rest, v => do follow rest (← v.step part)

def get (v : Value) (path : String) : Except Misuse Value := follow (Path.parts path) v

end Value

namespace Document

def set : List String → Value → Document → Document
  | [], _, d => d
  | [key], v, d => Fields.set key v d
  | key :: rest, v, d =>
    let inner := match d.lookup key with
      | some (.doc fields) => fields
      | _ => []
    Fields.set key (.doc (set rest v inner)) d

/-- Removes what the parts of a path name; all of them but the last have to lead to documents. -/
def unset : List String → Document → Document
  | [], d => d
  | [key], d => Fields.erase key d
  | key :: rest, d =>
    match d.lookup key with
    | some (.doc fields) => Fields.set key (.doc (unset rest fields)) d
    | _ => d

end Document

namespace Value

def set (target : Value) (path : String) (v : Value) : Except Misuse Value :=
  match target, Path.parts path with
  | .doc fields, parts => .ok (.doc (Document.set parts v fields))
  | _, [_] => .error .wrongType
  | _, _ => .error .noSuchPart

def unset (target : Value) (path : String) : Except Misuse Value :=
  match target, Path.parts path with
  | .doc fields, parts => .ok (.doc (Document.unset parts fields))
  | .list _, [_] => .error .wrongType
  | _, _ => .error .noSuchPart

end Value
end Docbase
