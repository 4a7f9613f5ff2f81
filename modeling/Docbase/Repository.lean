import Docbase.Query.Plan
import Docbase.Text.Numeral
import Docbase.UniqueField

/-!
# Repositories

A repository reads and writes the documents of one collection as callers know them: by their
external identifiers, through queries, and with fields that are declared to be unique. It plans
queries as pipelines and leaves their execution to its backend.

A failure of the backend comes back as a failure of the operation, with what the operation was
given; a duplicate makes it a validation failure.
-/

namespace Docbase

/-- One collection of a backend, with the names of its identifiers and a source of keys for new
documents. -/
structure Repository (σ ι : Type) where
  backend : Backend σ ι
  name : String
  identity : Identity := {}
  newKey : Action σ Value

/-- A page of results, with the number of all documents that the filter selects. -/
structure Page where
  documents : List Document
  total : Value

/-! ## Readings of a backend's answers -/

namespace Answer

def pair (v : Value) : Except Misuse (String × Value) :=
  match v.elements? with
  | none => .error .wrongType
  | some [key, value] => if key.hashable then .ok (key.text, value) else .error .wrongType
  | some _ => .error .badValue

/-- The document that an answer holds: itself, or a container of pairs. -/
def document (v : Value) : Except Misuse Document :=
  match v with
  | .doc fields => .ok fields
  | v =>
    match v.elements? with
    | none => .error .wrongType
    | some pairs => do return Fields.ofWrites (← pairs.mapM pair)

def members (v : Value) : Except Misuse (List Value) :=
  match v.elements? with
  | some items => .ok items
  | none => .error .wrongType

def first (v : Value) : Except Misuse Value :=
  match v with
  | .list (item :: _) | .tuple (item :: _) => .ok item
  | .str _ | .bytes _ => .error .noSuchPart
  | .doc _ => .error .missingField
  | _ => .error .wrongType

def integer : Value → Except Misuse Int
  | .int n => .ok n
  | .bool b => .ok (if b then 1 else 0)
  | .double x =>
    match x.truncate? with
    | some n => .ok n
    | none => .error .badValue
  | .str s =>
    match Text.readInt? s with
    | some n => .ok n
    | none => .error .badValue
  | .bytes octets =>
    match Text.readInt? (String.ofList (octets.map fun b => Char.ofNat b.toNat)) with
    | some n => .ok n
    | none => .error .badValue
  | _ => .error .wrongType

/-- The total that the answer to a counting pipeline holds; there is none if nothing was counted. -/
def total (v : Value) : Except Misuse Int := do
  if !v.truthy then return 0
  match ← first v with
  | .doc fields => integer ((fields.lookup Plan.totalField).getD (.int 0))
  | _ => throw .noSuchPart

end Answer

namespace Repository

variable {σ ι α : Type}

def ofName (backend : Backend σ ι) (name : String) (identity : Identity)
    (newKey : Action σ Value) : Except ArgumentFault (Repository σ ι) :=
  if name.isEmpty then .error .collectionName else .ok { backend, name, identity, newKey }

/-- What a failure of the backend becomes when it passes an operation. -/
def attributed (name operation : String) (payload : Value) (failure : Failure) : Failure :=
  match failure.kind with
  | .validation | .notFound => failure
  | .duplicateKey => .uniqueViolation name operation payload failure
  | kind => if kind.isStore then .during operation name payload failure else failure

def attributing (r : Repository σ ι) (operation : String) (payload : Value) (a : Action σ α) :
    Action σ α := do
  match ← a.attempt with
  | .ok result => return result
  | .error failure => throw (attributed r.name operation payload failure)

def external (r : Repository σ ι) (v : Value) : Except Misuse Document := do
  return r.identity.toExternal (← Answer.document v)

def stripped (r : Repository σ ι) : Value → Except Failure Document
  | .doc fields => .ok (r.identity.strip fields)
  | _ => .error (.misuse .noSuchPart)

def filter (r : Repository σ ι) (clause : Value) : Except Failure Document := do
  return r.identity.toInternal (← Where.toFilter clause)

/-! ## Writing -/

def insert (r : Repository σ ι) (data declared : Value) (session : Option ι) :
    Action σ String := do
  let d ← r.stripped data
  let key ← r.attributing "insert data" (.doc d) do
    UniqueField.ensure r.backend r.name declared
    let key ← r.newKey
    r.backend.insert r.name ((r.identity.internal, key) :: d) session
  return key.text

def keyed (r : Repository σ ι) : List Value → Action σ (List Document)
  | [] => return []
  | data :: rest => do
    let key ← r.newKey
    let d ← r.stripped data
    return ((r.identity.internal, key) :: d) :: (← r.keyed rest)

def insertedKeys : Except Failure Value → Except Failure Value
  | .ok keys => .ok keys
  | .error (.bulkInsert _ _ inserted _) | .error (.reportedBulk _ inserted _) =>
    .ok (.list inserted)
  | .error failure => .error failure

def insertMany (r : Repository σ ι) (datas declared : Value) (session : Option ι) :
    Action σ (List String) := do
  if !datas.truthy then return []
  let documents ← r.keyed (← Answer.members datas)
  let payload := toString documents.length ++ " documents"
  let keys ← r.attributing "insert many data" (.str payload) do
    UniqueField.ensure r.backend r.name declared
    Action.lift (insertedKeys (← (r.backend.insertEach r.name documents session).attempt))
  return (← Answer.members keys).map Value.text

/-- Writes the fields of some data to the documents that a where clause selects, and returns how
many have changed. Identifiers in the data are passed over. -/
def update (r : Repository σ ι) (clause data declared : Value) (session : Option ι) :
    Action σ Value := do
  if !data.truthy then throw (.emptyUpdate r.name clause)
  let patch ← r.stripped data
  if patch.isEmpty then throw (.identifierUpdate r.name)
  let filter ← r.filter clause
  r.attributing "update data" (.doc [("filter", .doc filter), ("data", .doc patch)]) do
    UniqueField.ensure r.backend r.name declared
    r.backend.update r.name filter patch session

def delete (r : Repository σ ι) (clause : Value) (session : Option ι) : Action σ Value := do
  let filter ← r.filter clause
  r.attributing "delete data" (.doc filter) (r.backend.delete r.name filter session)

/-! ## Reading -/

def total (r : Repository σ ι) (stages : List Stage) (session : Option ι) : Action σ Int := do
  Answer.total (← r.backend.aggregate r.name stages session)

/-- The answers for a query and the total; without a query, all documents. -/
def answers (r : Repository σ ι) (single : Bool) (session : Option ι) :
    Option Query → Action σ (Value × Value)
  | none => r.attributing "find data" .null do
    let total ← r.backend.count r.name session
    if single then
      let d ← r.backend.first r.name session
      return (.list (if d.isNull then [] else [d]), total)
    else return (← r.backend.all r.name session, total)
  | some q => do
    let plan ← Plan.ofQuery r.identity single q
    r.attributing "find data" (.list (Stage.renderAll plan.stages)) do
      let total ← r.total plan.total session
      return (← r.backend.aggregate r.name plan.stages session, .int total)

def find (r : Repository σ ι) (single : Bool) (input : QueryInput) (session : Option ι) :
    Action σ Page := do
  let query ← input.read
  let (found, total) ← r.answers single session query
  let documents ← (← Answer.members found).mapM fun d => do r.external d
  return { documents, total }

def findMany (r : Repository σ ι) (input : QueryInput) (session : Option ι) : Action σ Page :=
  r.find false input session

def findSingle (r : Repository σ ι) (input : QueryInput) (session : Option ι) :
    Action σ Document := do
  match (← r.find true input session).documents with
  | d :: _ => return d
  | [] => throw (.notFound r.name input)

def count (r : Repository σ ι) (clause : Value) (session : Option ι) : Action σ Value :=
  match clause with
  | .null => r.attributing "count data" .null (r.backend.count r.name session)
  | clause => do
    let stages ← Plan.counting r.identity clause
    r.attributing "count data" (.list (Stage.renderAll stages)) do
      return .int (← r.total stages session)

end Repository
end Docbase
