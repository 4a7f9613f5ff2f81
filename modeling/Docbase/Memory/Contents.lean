import Docbase.Action
import Docbase.Memory.Collection
import Docbase.Pipeline.Run

/-!
# Contents of a store

The collections of a store by name; a name that was never used is an empty collection. The
operations of this module are those of a store that is known to be connected. Each changes at most
the collection that it names.
-/

namespace Docbase.Memory

structure Contents where
  collections : List (String × Collection) := []
  deriving Inhabited

namespace Contents

def collection (name : String) (contents : Contents) : Collection :=
  (contents.collections.lookup name).getD {}

def put (name : String) (c : Collection) (contents : Contents) : Contents :=
  { collections := Fields.set name c contents.collections }

def documents (name : String) (contents : Contents) : List Document :=
  (contents.collection name).documents

@[simp] theorem collection_put_self (name : String) (c : Collection) (contents : Contents) :
    (contents.put name c).collection name = c := by
  simp [put, collection]

theorem collection_put_of_ne {name other : String} (h : other ≠ name) (c : Collection)
    (contents : Contents) : (contents.put name c).collection other = contents.collection other := by
  simp [put, collection, Fields.lookup_set_of_ne h]

def change {α : Type} (name : String) (f : Collection → Except Failure (α × Collection)) :
    Action Contents α := do
  let (result, c) ← f ((← get).collection name)
  modify (put name c)
  return result

/-! ## Writing -/

/-- The key that is given to the document with this number, if it has none of its own. -/
def generatedKey (number : Nat) : String :=
  String.ofList ("00000000-0000-4000-8000-".toList ++ Text.hex 12 number)

def insertKeyed (name : String) (number : Nat) (document : Value) : Action Contents Value :=
  match document with
  | .doc d => change name fun c => c.insert name (.str (generatedKey number)) d
  | _ => throw (.misuse .noSuchPart)

def insert (name : String) (number : Nat) (document : Value) : Action Contents String := do
  return (← insertKeyed name number document).text

structure BulkOutcome where
  inserted : List String := []
  errors : List String := []

/-- Inserts the documents of a list, from the one at a position on. An ordered insert stops at the
first duplicate. -/
def insertFrom (name : String) (number : Nat) (ordered : Bool) :
    Nat → List Value → Action Contents BulkOutcome
  | _, [] => return {}
  | position, document :: rest => do
    match ← (insertKeyed name (number + position) document).attempt with
    | .ok key =>
      let outcome ← insertFrom name number ordered (position + 1) rest
      return { outcome with inserted := key.text :: outcome.inserted }
    | .error failure =>
      if failure.kind = .duplicateKey then
        let error := "document " ++ toString position ++ ": " ++ failure.message
        if ordered then return { errors := [error] }
        else
          let outcome ← insertFrom name number ordered (position + 1) rest
          return { outcome with errors := error :: outcome.errors }
      else throw failure

/-- Inserts the documents of a list and returns the texts of their keys. If some are duplicates,
the others are still inserted, or those before the first one if the insert is ordered. -/
def insertAll (name : String) (number : Nat) (documents : List Value) (ordered : Bool) :
    Action Contents (List String) := do
  let outcome ← insertFrom name number ordered 0 documents
  if outcome.errors.isEmpty then return outcome.inserted
  else throw (.bulkInsert name (documents.length - outcome.inserted.length)
    (outcome.inserted.map .str) outcome.errors)

def patched (d : Document) (patch : Document) : Document :=
  patch.foldl (fun d (path, v) => Document.set (Path.parts path) v d) d

def patchFields : Value → Except Failure Document
  | .doc fields => .ok fields
  | _ => .error (.misuse .noSuchPart)

def updateRecord (name : String) (filter patch : Value) (key : Value) (d : Document) :
    Action Contents Nat := do
  if ← Filter.holds (.doc d) filter then
    let new := patched d (← patchFields patch)
    if Value.same (.doc new) (.doc d) then return 0
    else
      change name fun c => do
        c.checkUnique name new (some key)
        return (1, c.replace key new)
  else return 0

def updateRecords (name : String) (filter patch : Value) :
    List (Value × Document) → Action Contents Nat
  | [] => return 0
  | (key, d) :: rest => do
    let changed ← updateRecord name filter patch key d
    return changed + (← updateRecords name filter patch rest)

/-- Writes the fields of a patch to every document that satisfies a filter. Returns how many have
changed. -/
def update (name : String) (filter patch : Value) : Action Contents Nat := do
  if ← (Value.str "_id").foundIn patch then throw .immutableIdentifier
  updateRecords name filter patch ((← get).collection name).records

def delete (name : String) (filter : Value) : Action Contents Nat :=
  change name fun c => do
    let doomed ← c.records.filterM fun r => Filter.holds (.doc r.2) filter
    return (doomed.length, c.remove (doomed.map (·.1)))

def clear (name : String) (contents : Contents) : Contents :=
  contents.put name { contents.collection name with records := [] }

/-! ## Reading -/

def findIn (filter : Value) : List Document → Except Failure (Option Document)
  | [] => return none
  | d :: rest => do if ← Filter.holds (.doc d) filter then return some d else findIn filter rest

def find (name : String) (filter : Value) (contents : Contents) :
    Except Failure (Option Document) :=
  findIn filter (contents.documents name)

def isEnough (limit : Value) (found : Nat) : Except Failure Bool :=
  if !limit.truthy then .ok false
  else match Value.order? (.int found) limit with
    | some o => .ok (!limit.isNaN && o != .lt)
    | none => .error (.misuse .wrongType)

def queryIn (filter limit : Value) (found : Nat) :
    List Document → Except Failure (List Document)
  | [] => return []
  | d :: rest => do
    if ← Filter.holds (.doc d) filter then
      if ← isEnough limit (found + 1) then return [d]
      else return d :: (← queryIn filter limit (found + 1) rest)
    else queryIn filter limit found rest

def query (name : String) (filter limit : Value) (contents : Contents) :
    Except Failure (List Document) :=
  queryIn filter limit 0 (contents.documents name)

def count (name : String) (filter : Value) (contents : Contents) : Except Failure Nat := do
  return (← Filter.select filter (contents.documents name)).length

def aggregate (name : String) (pipeline : Value) (contents : Contents) :
    Except Failure (List Document) :=
  Pipeline.run (fun other => contents.documents other) (contents.documents name) pipeline

/-! ## Indexes -/

def keyTexts (keys : List Value) : Option (List String) :=
  keys.mapM fun
    | .str key => some key
    | _ => none

def indexExists (name : String) (keys : List Value) (unique : Bool) (contents : Contents) : Bool :=
  match keyTexts keys with
  | some keys => (contents.collection name).hasIndex keys unique
  | none => false

/-- Adds an index. Keys are texts by contract; others are refused whatever the collection holds. -/
def createIndex (name : String) (keys : List Value) (unique : Bool) : Action Contents String :=
  match keyTexts keys with
  | some keys => change name fun c => c.addIndex name keys unique
  | none => throw (.misuse .noSuchPart)

end Contents
end Docbase.Memory
