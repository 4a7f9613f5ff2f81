import Docbase.Failure
import Docbase.Memory.Index

/-!
# Collections

The documents of a collection in the order of their insertion, each under its key, and the indexes
over them. The key of a document is the value of its field `_id`.
-/

namespace Docbase.Memory

structure Collection where
  records : List (Value × Document) := []
  indexes : List (String × Index) := []

namespace Collection

def documents (c : Collection) : List Document := c.records.map (·.2)

def hasKey (key : Value) (c : Collection) : Bool := c.records.any fun r => Value.same r.1 key

def checkEntry (collection index : String) (keys : List String) (entry : List Value)
    (ignored : Option Value) : List (Value × Document) → Except Failure Unit
  | [] => return
  | (key, d) :: rest => do
    unless ignored.any (Value.equals key) do
      if Value.sameItems (← Index.entryOf keys d) entry then
        throw (.duplicateIndexValue collection index (Index.labelled keys entry))
    checkEntry collection index keys entry ignored rest

/-- Fails if a unique index has the entry of a document already, in a document other than the one
to be ignored. -/
def checkUnique (name : String) (d : Document) (ignored : Option Value) (c : Collection) :
    Except Failure Unit :=
  c.indexes.forM fun (indexName, index) => do
    if index.unique then
      let entry ← Index.entryOf index.keys d
      checkEntry name indexName index.keys entry ignored c.records

/-- Adds a document at the end, under its own key or else under the fallback. Returns the key. -/
def insert (name : String) (fallback : Value) (d : Document) (c : Collection) :
    Except Failure (Value × Collection) := do
  let key := (d.lookup "_id").getD fallback
  let d := if Fields.has "_id" d then d else d ++ [("_id", key)]
  unless key.hashable do throw (.unsupportedIdentifier key)
  if c.hasKey key then throw (.duplicateIdentifier name key)
  c.checkUnique name d none
  return (key, { c with records := c.records ++ [(key, d)] })

def replaceIn (key : Value) (d : Document) : List (Value × Document) → List (Value × Document)
  | [] => []
  | (k, old) :: rest =>
    if Value.same k key then (k, d) :: rest else (k, old) :: replaceIn key d rest

def replace (key : Value) (d : Document) (c : Collection) : Collection :=
  { c with records := replaceIn key d c.records }

def remove (keys : List Value) (c : Collection) : Collection :=
  { c with records := c.records.filter fun r => !keys.any (Value.same r.1) }

def checkDistinct (collection index : String) (keys : List String) :
    List (List Value) → List Document → Except Failure Unit
  | _, [] => return
  | seen, d :: rest => do
    let entry ← Index.entryOf keys d
    unless Value.hashableItems entry do throw (.misuse .wrongType)
    if seen.any (Value.sameItems entry) then
      throw (.duplicateIndexValue collection index (Index.labelled keys entry))
    checkDistinct collection index keys (entry :: seen) rest

def indexOver (keys : List String) (c : Collection) : Option Index :=
  (c.indexes.map (·.2)).find? fun index => index.keys == keys

/-- Adds an index, unless there is one over the same keys or the documents do not allow for it.
Returns its name. -/
def addIndex (name : String) (keys : List String) (unique : Bool) (c : Collection) :
    Except Failure (String × Collection) := do
  match c.indexOver keys with
  | some index =>
    if index.unique == unique then throw (.indexExists name (keys.map .str))
    else throw (.indexDiffers name (keys.map .str) index.unique unique)
  | none =>
    let indexName := Index.nameOf keys
    if unique then checkDistinct name indexName keys [] c.documents
    return (indexName, { c with indexes := Fields.set indexName { keys, unique } c.indexes })

def hasIndex (keys : List String) (unique : Bool) (c : Collection) : Bool :=
  c.indexes.any fun (_, index) => index.keys == keys && (index.unique || !unique)

end Collection
end Docbase.Memory
