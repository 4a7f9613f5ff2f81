import Docbase.Value.Equality
import Docbase.Value.Text

/-!
# Order of values

`Value.compare` is the order in which stores sort and in which range conditions compare: first by
rank (null and missing, numbers, texts, documents, lists, byte strings, truth values, timestamps,
and then everything else), and among values of one rank by content. Lists compare item by item and
documents field by field, a shorter one first.

Within a rank, and for the fields of documents, the plain order `Value.order?` decides. It is not
defined between values of unlike types; there the texts of the two values are compared instead.
-/

namespace Docbase.Value

def rank : Value → Nat
  | .null | .missing => 1
  | .int _ | .double _ => 2
  | .str _ => 3
  | .doc _ => 4
  | .list _ => 5
  | .bytes _ => 6
  | .bool _ => 8
  | .timestamp _ => 9
  | _ => 10

/-- The plain order of values that hold no other values. Nothing is above or below a NaN. -/
def orderScalar? : Value → Value → Option Ordering
  | .str a, .str b => some (Ord.compare a b)
  | .bytes a, .bytes b => some (Ord.compare a b)
  | .timestamp a, .timestamp b => a.compare? b
  | .objectId a, .objectId b => some (Ord.compare a.number b.number)
  | a, b =>
    match a.numeral?, b.numeral? with
    | some (.at p), some (.at q) => some (p.compare q)
    | some _, some _ => some .eq
    | _, _ => none

mutual

/-- The plain order: numbers, texts, byte strings, timestamps and object identifiers among
themselves, lists and tuples by the first items that differ. -/
def order? : Value → Value → Option Ordering
  | .tuple as, .tuple bs => orderItems? as bs
  | .list as, .list bs => orderItems? as bs
  | a, b => orderScalar? a b

def orderItems? : List Value → List Value → Option Ordering
  | [], [] => some .eq
  | [], _ :: _ => some .lt
  | _ :: _, [] => some .gt
  | a :: as, b :: bs => if same a b then orderItems? as bs else order? a b

end

/-- The order of two fields: by name, then by value, or else by their texts. -/
def compareField (a b : String × Value) : Ordering :=
  if a.1 ≠ b.1 then Ord.compare a.1 b.1
  else if same a.2 b.2 then .eq
  else match order? a.2 b.2 with
    | some o => o
    | none => Ord.compare (shown (.tuple [.str a.1, a.2])) (shown (.tuple [.str b.1, b.2]))

def compareFields : List (String × Value) → List (String × Value) → Ordering
  | [], [] => .eq
  | [], _ :: _ => .lt
  | _ :: _, [] => .gt
  | a :: as, b :: bs => (compareField a b).then (compareFields as bs)

def compareFlat (a b : Value) : Ordering :=
  if a.rank ≠ b.rank then Ord.compare a.rank b.rank
  else match a, b with
    | .doc as, .doc bs => compareFields as bs
    | a, b =>
      if a.rank = 1 then .eq
      else match order? a b with
        | some o => o
        | none => Ord.compare a.text b.text

mutual

def compare : Value → Value → Ordering
  | .list as, .list bs => compareItems as bs
  | a, b => compareFlat a b

def compareItems : List Value → List Value → Ordering
  | [], [] => .eq
  | [], _ :: _ => .lt
  | _ :: _, [] => .gt
  | a :: as, b :: bs => (compare a b).then (compareItems as bs)

end

end Docbase.Value
