import Docbase.Text.Quoted

/-!
# JSON

JSON values as texts give them: the fields of an object keep their order, and a number is the text
that it was written as.
-/

namespace Docbase

inductive Json
  | null
  | bool (b : Bool)
  | number (text : String)
  | str (s : String)
  | array (items : List Json)
  | object (fields : List (String × Json))
  deriving Inhabited

namespace Json

/-! ## Access -/

def field? (key : String) : Json → Option Json
  | object fields => fields.lookup key
  | _ => none

def field (key : String) (j : Json) : Json := (j.field? key).getD null

def text? : Json → Option String
  | str s => some s
  | _ => none

def items : Json → List Json
  | array items => items
  | _ => []

def fields : Json → List (String × Json)
  | object fields => fields
  | _ => []

def isTrue : Json → Bool
  | bool b => b
  | _ => false

def ofInt (n : Int) : Json := number (toString n)

def ofTexts (texts : List String) : Json := array (texts.map str)

def ofOption {α : Type} (f : α → Json) : Option α → Json
  | some a => f a
  | none => null

/-! ## Writing -/

def escaped (c : Char) : List Char :=
  if c = '"' then ['\\', '"']
  else if c = '\\' then ['\\', '\\']
  else if c.toNat < 32 then ['\\', 'u'] ++ Text.hex 4 c.toNat
  else [c]

def quoted (s : String) : String :=
  String.ofList ('"' :: s.toList.flatMap escaped ++ ['"'])

mutual

def text : Json → String
  | null => "null"
  | bool b => if b then "true" else "false"
  | number s => s
  | str s => quoted s
  | array items => "[" ++ ", ".intercalate (itemTexts items) ++ "]"
  | object fields =>
    let ordered := (fieldTexts fields).mergeSort fun a b => a.1 ≤ b.1
    "\x7b" ++ ", ".intercalate (ordered.map fun (key, s) => quoted key ++ ": " ++ s) ++ "\x7d"

def itemTexts : List Json → List String
  | [] => []
  | j :: rest => text j :: itemTexts rest

def fieldTexts : List (String × Json) → List (String × String)
  | [] => []
  | (key, j) :: rest => (key, text j) :: fieldTexts rest

end

end Json
end Docbase
