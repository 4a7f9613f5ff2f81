import Docbase.Double
import Docbase.Fields
import Docbase.Misuse
import Docbase.Pattern
import Docbase.Timestamp

/-!
# Values

What documents, filters and query descriptors are made of. A document keeps the order of its
fields. Values are trees: nothing in a document is shared with another part of it or with another
document. A pipeline, which can share parts of documents, works on drafts instead. Beside the data
that a store can hold there are values that only descriptors use: patterns, predicates that a caller
has put together, and join targets.
-/

namespace Docbase

/-- A twelve-byte object identifier, as a number. -/
structure ObjectId where
  number : Nat
  deriving DecidableEq, Repr, Inhabited

inductive Value
  | null
  /-- What an absent field reads as. -/
  | missing
  | bool (b : Bool)
  | int (n : Int)
  | double (x : Double)
  | str (s : String)
  | bytes (octets : List UInt8)
  | timestamp (t : Timestamp)
  | objectId (id : ObjectId)
  | pattern (p : Pattern)
  | tuple (items : List Value)
  | list (items : List Value)
  | doc (fields : List (String × Value))
  | flat (conditions : List (String × Value))
  | anyOf (members : List Value)
  | allOf (members : List Value)
  /-- A join target: a collection and the fields to keep, or null to keep none but the
  identifier. -/
  | joinTo (collection : Value) (select : Value)
  deriving Inhabited

abbrev Document := List (String × Value)

namespace Value

def ofNat (n : Nat) : Value := .int n

/-- The value of a field, or `missing`. -/
def field (key : String) (fields : Document) : Value := (fields.lookup key).getD .missing

def isMissing : Value → Bool
  | .missing => true
  | _ => false

def isNull : Value → Bool
  | .null => true
  | _ => false

def isContainer : Value → Bool
  | .list _ | .doc _ => true
  | _ => false

/-- Whether the value counts as true where a condition is expected: zero and everything empty do
not. -/
def truthy : Value → Bool
  | .null => false
  | .bool b => b
  | .int n => n != 0
  | .double x => !x.isZero
  | .str s => !s.isEmpty
  | .bytes octets => !octets.isEmpty
  | .tuple items | .list items => !items.isEmpty
  | .doc fields => !fields.isEmpty
  | _ => true

/-- What a walk over the value meets: the members of a list or tuple, the characters of a text, the
bytes of a byte string, the field names of a document. -/
def elements? : Value → Option (List Value)
  | .tuple items | .list items => some items
  | .str s => some (s.toList.map fun c => .str (String.singleton c))
  | .bytes octets => some (octets.map fun b => .int b.toNat)
  | .doc fields => some (fields.map fun field => .str field.1)
  | _ => none

def length? (v : Value) : Option Nat := v.elements?.map List.length

/-- The integer that a count or position stands for; a truth value counts as zero or one. -/
def index? : Value → Option Int
  | .int n => some n
  | .bool b => some (if b then 1 else 0)
  | _ => none

def path : Value → Except Misuse String
  | .str s => .ok s
  | .bytes _ => .error .wrongType
  | _ => .error .noSuchPart

def typeName : Value → String
  | .null => "NoneType"
  | .missing => "_Missing"
  | .bool _ => "bool"
  | .int _ => "int"
  | .double _ => "float"
  | .str _ => "str"
  | .bytes _ => "bytes"
  | .timestamp _ => "datetime"
  | .objectId _ => "ObjectId"
  | .pattern _ => "Pattern"
  | .tuple _ => "tuple"
  | .list _ => "list"
  | .doc _ => "dict"
  | .flat _ => "Flat"
  | .anyOf _ => "Or"
  | .allOf _ => "And"
  | .joinTo _ _ => "JoinOptions"

end Value
end Docbase
