import Docbase.Double.Reading
import Docbase.Double.Text
import Docbase.Json.Parser
import Docbase.Query.Where

/-!
# Values as JSON

Values that JSON has no form for are objects with one field, whose name begins with two dollar
signs and says what they are. A number with a point or an exponent is a double, any other one an
integer; doubles whose text has an exponent or is no numeral, and negative zero, are tagged.
-/

namespace Docbase.Json

/-! ## Writing -/

def tagged (tag : String) (j : Json) : Json := object [(tag, j)]

def ofDouble (x : Double) : Json :=
  let s := DoubleFormat.standard.text x
  let isPlain := s.toList.all fun c => c.isDigit || c == '.' || c == '-'
  if isPlain && s != "-0.0" then number s else tagged "$$float" (str s)

def flagLetters (flags : PatternFlags) : String :=
  (if flags.ignoreCase then "i" else "") ++ (if flags.multiLine then "m" else "")
    ++ (if flags.dotAll then "s" else "") ++ (if flags.verbose then "x" else "")

mutual

def ofValue : Value → Json
  | .null => null
  | .missing => tagged "$$missing" (bool true)
  | .bool b => bool b
  | .int n => ofInt n
  | .double x => ofDouble x
  | .str s => str s
  | .bytes octets =>
    tagged "$$bytes" (str (String.ofList (octets.flatMap fun b => Text.hex 2 b.toNat)))
  | .timestamp t => tagged "$$datetime" (str (t.text "T"))
  | .objectId id => tagged "$$oid" (str id.text)
  | .pattern p => tagged "$$re" (array [str p.source, str (flagLetters p.flags)])
  | .tuple items => tagged "$$tuple" (array (ofItems items))
  | .list items => array (ofItems items)
  | .doc fields => object (ofFields fields)
  | .flat conditions => tagged "$$flat" (object (ofFields conditions))
  | .anyOf members => tagged "$$or" (array (ofItems members))
  | .allOf members => tagged "$$and" (array (ofItems members))
  | .joinTo collection select =>
    tagged "$$join" (object [("collection_name", ofValue collection), ("select", ofValue select)])

def ofItems : List Value → List Json
  | [] => []
  | v :: rest => ofValue v :: ofItems rest

def ofFields : List (String × Value) → List (String × Json)
  | [] => []
  | (key, v) :: rest => (key, ofValue v) :: ofFields rest

end

def ofDocument (d : Document) : Json := ofValue (.doc d)

def ofDocuments (documents : List Document) : Json := array (documents.map ofDocument)

/-! ## Marks of NaNs -/

mutual

/-- The same value with every tagged NaN under a mark of its own. -/
def marked : Json → StateM Nat Json
  | object [("$$float", str "nan")] => do
    let mark ← modifyGet fun next => (next, next + 1)
    return tagged "$$nan" (ofInt mark)
  | object fields => object <$> markedFields fields
  | array items => array <$> markedItems items
  | j => return j
termination_by structural j => j

def markedItems : List Json → StateM Nat (List Json)
  | [] => return []
  | j :: rest => do
    let j ← marked j
    return j :: (← markedItems rest)
termination_by structural items => items

def markedFields : List (String × Json) → StateM Nat (List (String × Json))
  | [] => return []
  | (key, j) :: rest => do
    let j ← marked j
    return (key, j) :: (← markedFields rest)
termination_by structural fields => fields

end

/-! ## Reading -/

def valueOfNumber (s : String) : Value :=
  if s.toList.any fun c => c == '.' || c == 'e' || c == 'E' then .double (Double.ofText s)
  else match s.toList with
    | '-' :: cs => .int (-(Double.digitsValue cs : Int))
    | cs => .int (Double.digitsValue cs)

def octets : List Char → List UInt8
  | a :: b :: rest => UInt8.ofNat (hexNumber [a, b]) :: octets rest
  | _ => []

def patternFlags (letters : String) : PatternFlags :=
  let has (c : Char) : Bool := letters.toList.contains c
  { ignoreCase := has 'i', multiLine := has 'm', dotAll := has 's', verbose := has 'x' }

def taggedScalar? (tag : String) (j : Json) : Option (Except Failure Value) :=
  let text := j.text?.getD ""
  match tag with
  | "$$float" => some (.ok (.double (Double.ofText text)))
  | "$$nan" =>
    match j with
    | number s => some (.ok (.double (.nan (Double.digitsValue s.toList))))
    | _ => none
  | "$$bytes" => some (.ok (.bytes (octets text.toList)))
  | "$$datetime" => some (match Timestamp.ofText? text with
      | some t => .ok (.timestamp t)
      | none => .error (.misuse .badValue))
  | "$$oid" => some (.ok (.objectId ⟨hexNumber text.toList⟩))
  | "$$missing" => some (.ok .missing)
  | "$$re" =>
    match j with
    | array [str source, str letters] =>
      some (match Pattern.compile? source (patternFlags letters) with
        | some p => .ok (.pattern p)
        | none => .error (.misuse .badPattern))
    | _ => none
  | _ => none

def itemsTag? : String → Option (List Value → Except Failure Value)
  | "$$tuple" => some fun items => .ok (.tuple items)
  | "$$or" => some fun items => do return (← Predicate.ofMembers .any items).toValue
  | "$$and" => some fun items => do return (← Predicate.ofMembers .all items).toValue
  | _ => none

def fieldsTag? : String → Option (Document → Except Failure Value)
  | "$$flat" => some fun fields => do return (← Predicate.ofConditions fields).toValue
  | "$$join" => some fun fields =>
    let part (key : String) : Value := (fields.lookup key).getD .null
    .ok (.joinTo (part "collection_name") (part "select"))
  | _ => none

mutual

def toValue : Json → Except Failure Value
  | null => .ok .null
  | bool b => .ok (.bool b)
  | number s => .ok (valueOfNumber s)
  | str s => .ok (.str s)
  | array items => do return .list (← toItems items)
  | object [(tag, j)] =>
    match taggedScalar? tag j, itemsTag? tag, fieldsTag? tag, j with
    | some result, _, _, _ => result
    | none, some build, _, array items => do build (← toItems items)
    | none, _, some build, object fields => do build (← toFields fields)
    | none, _, _, j => do return .doc [(tag, ← toValue j)]
  | object fields => do return .doc (← toFields fields)
termination_by structural j => j

def toItems : List Json → Except Failure (List Value)
  | [] => .ok []
  | j :: rest => do
    let v ← toValue j
    return v :: (← toItems rest)
termination_by structural items => items

def toFields : List (String × Json) → Except Failure (List (String × Value))
  | [] => .ok []
  | (key, j) :: rest => do
    let v ← toValue j
    return (key, v) :: (← toFields rest)
termination_by structural fields => fields

end

def toDocument (j : Json) : Except Failure Document := toFields j.fields

end Docbase.Json
