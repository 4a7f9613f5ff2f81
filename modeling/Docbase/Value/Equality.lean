import Docbase.Value

/-!
# Equality of values

Numbers are equal if they are the same number, whatever their types; truth values count as zero
and one. Documents are equal if they have the same fields in any order. `Value.same` is equality
as containers test it, where a NaN is the same as itself; `Value.equals` is the comparison of two
values, where a NaN equals nothing.
-/

namespace Docbase

inductive Numeral
  | at (p : Place)
  | nan (mark : Nat)
  deriving DecidableEq, Repr

namespace Value

def numeral? : Value → Option Numeral
  | .bool b => some (.at (.ofInt (if b then 1 else 0)))
  | .int n => some (.at (.ofInt n))
  | .double (.nan mark) => some (.nan mark)
  | .double x => x.place?.map .at
  | _ => none

def isNaN : Value → Bool
  | .double x => x.isNaN
  | _ => false

def sameScalar : Value → Value → Bool
  | .null, .null => true
  | .missing, .missing => true
  | .str a, .str b => a == b
  | .bytes a, .bytes b => a == b
  | .timestamp a, .timestamp b => a.compare? b == some .eq
  | .objectId a, .objectId b => a == b
  | .pattern a, .pattern b => a == b
  | a, b =>
    match a.numeral?, b.numeral? with
    | some x, some y => x == y
    | _, _ => false

mutual

/-- Whether two values are the same for a container that holds them. -/
def same : Value → Value → Bool
  | .tuple as, .tuple bs => sameItems as bs
  | .list as, .list bs => sameItems as bs
  | .doc as, .doc bs => as.length == bs.length && sameFields as bs
  | .flat as, .flat bs => as.length == bs.length && sameFields as bs
  | .anyOf as, .anyOf bs => sameItems as bs
  | .allOf as, .allOf bs => sameItems as bs
  | .joinTo a c, .joinTo b d => same a b && same c d
  | a, b => sameScalar a b

def sameItems : List Value → List Value → Bool
  | [], [] => true
  | a :: as, b :: bs => same a b && sameItems as bs
  | _, _ => false

/-- Whether every field on the left is there on the right with the same value. -/
def sameFields : List (String × Value) → List (String × Value) → Bool
  | [], _ => true
  | (key, a) :: rest, bs =>
    (match bs.lookup key with
      | some b => same a b
      | none => false) && sameFields rest bs

end

def equals (a b : Value) : Bool := !a.isNaN && same a b

/-- Zero or false: the marks of an excluded field. -/
def isExclusion (v : Value) : Bool := equals v (.int 0)

mutual

/-- Whether the value can be a key: it holds no lists and no documents. -/
def hashable : Value → Bool
  | .list _ | .doc _ | .flat _ => false
  | .tuple items => hashableItems items
  | .anyOf members | .allOf members => hashableItems members
  | .joinTo collection select => hashable collection && hashable select
  | _ => true

def hashableItems : List Value → Bool
  | [] => true
  | v :: rest => hashable v && hashableItems rest

end

def occursIn (part : List Char) : List Char → Bool
  | [] => part.isEmpty
  | c :: rest => part.isPrefixOf (c :: rest) || occursIn part rest

/-- Whether the value is found in a container: a member of a list, a field name of a document, a
part of a text. -/
def foundIn (v : Value) : Value → Except Misuse Bool
  | .list items | .tuple items => .ok (items.any fun item => same item v)
  | .doc fields => if v.hashable then .ok ((fields.map (·.1)).any fun key => same (.str key) v)
    else .error .wrongType
  | .str s =>
    match v with
    | .str part => .ok (occursIn part.toList s.toList)
    | _ => .error .wrongType
  | _ => .error .wrongType

end Value
end Docbase
