import Docbase.Fields
import Docbase.Value.Text
import Mathlib.Logic.Function.Basic

/-!
# Answers in memory

The documents and lists of an answer lie in memory, and may have parts in common. Converting one of
them goes through its entries while it writes to it: the text of an identifier is written over it,
and a document or list among the entries is converted where it lies before the next entry is looked
at.
-/

namespace Docbase.Server

/-- An entry of a document or list: a value on its own, or the place of another container. -/
inductive Entry
  | value (v : Value) (flat : v.isContainer = false)
  | container (place : Nat)

inductive Container
  | document (fields : List (String × Entry)) (distinct : (Fields.keys fields).Nodup)
  | list (items : List Entry)

namespace Container

def entries : Container → List Entry
  | document fields _ => fields.map (·.2)
  | list items => items

def keys? : Container → Option (List String)
  | document fields _ => some (Fields.keys fields)
  | list _ => none

/-- Writes over an entry: in a document by its key, in a list by its position. -/
def write (i : Nat) (e : Entry) : Container → Container
  | document fields distinct =>
    match fields[i]? with
    | some (key, _) => document (Fields.set key e fields) (Fields.nodup_set key e distinct)
    | none => document fields distinct
  | list items => list (items.set i e)

end Container

/-- Containers by their places. Entries of more than one can have the same place. -/
abbrev Heap := Nat → Container

namespace Heap

def write (h : Heap) (place i : Nat) (e : Entry) : Heap :=
  Function.update h place ((h place).write i e)

/-- Converts an entry of the container at a place, a container among the entries by `inner`. -/
def visit (inner : Nat → Heap → Heap) (place : Nat) (h : Heap) (i : Nat) : Heap :=
  match (h place).entries[i]? with
  | some (.value (.objectId id) _) => h.write place i (.value (.str id.text) rfl)
  | some (.container next) => inner next h
  | _ => h

/-- Converts the container at a place, entry by entry, and those inside it, down to some depth. -/
def convert : Nat → Nat → Heap → Heap
  | 0, _, h => h
  | depth + 1, place, h =>
    (List.range (h place).entries.length).foldl (visit (convert depth) place) h

end Heap
end Docbase.Server
