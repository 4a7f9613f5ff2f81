import Docbase.Path
import Docbase.Value.Equality

/-!
# Indexes

An index lists paths. Each document has an entry in it: what the paths lead to, where absent and
null are the same, and where a list and a document are told apart by their contents alone. A unique
index does not take two documents with the same entry.
-/

namespace Docbase

namespace Value

mutual

def entry : Value → Value
  | .doc fields => .tuple (fieldEntries fields)
  | .list items => .tuple (itemEntries items)
  | .missing => .null
  | v => v

def itemEntries : List Value → List Value
  | [] => []
  | v :: rest => entry v :: itemEntries rest

def fieldEntries : List (String × Value) → List Value
  | [] => []
  | (key, v) :: rest => .tuple [.str key, entry v] :: fieldEntries rest

end

end Value

namespace Memory

structure Index where
  keys : List String
  unique : Bool
  deriving DecidableEq, Repr

namespace Index

def entryOf (keys : List String) (d : Document) : Except Misuse (List Value) :=
  keys.mapM fun key => do return (← (Value.doc d).get key).entry

def labelled (keys : List String) (entry : List Value) : Document :=
  Fields.ofWrites (keys.zip entry)

def nameOf (keys : List String) : String := "_".intercalate (keys.map (· ++ "_1"))

end Index
end Memory
end Docbase
