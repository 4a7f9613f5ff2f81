import Docbase.Server.Driver
import Docbase.Server.Reading

/-!
# Stores on a database server

A store that leaves its documents to a database server. It turns what its driver reports into the
failures and answers of a store: object identifiers become texts, and every failure says which task
it ended.
-/

namespace Docbase.Server

structure Address where
  host : Value
  portNumber : Value
  username : Value := .null
  password : Value := .null
  database : Value
  options : Document := []

/-- The state of a connection, over the state of its driver. -/
structure Connection (σ : Type) where
  driver : σ
  hasClient : Bool := false
  hasDatabase : Bool := false

namespace Address

def ofParts (host portNumber username password database : Value) (options : Document) :
    Except ArgumentFault Address :=
  if !host.truthy then .error .hostRequired
  else if portNumber.isNull then .error .portRequired
  else if !database.truthy then .error .databaseRequired
  else .ok { host, portNumber, username, password, database, options }

def ofFields (fields : Document) : Except ArgumentFault Address :=
  let part (name : String) : Value := (fields.lookup name).getD .null
  let parts := ["host", "port", "username", "password", "database"]
  ofParts (part "host") (part "port") (part "username") (part "password") (part "database")
    (fields.filter fun field => !parts.contains field.1)

/-- The parameters of the client. Credentials count only if they are complete; they are checked
against the database for administrators unless the options name another one. -/
def parameters (address : Address) : Document :=
  let place := [("host", address.host), ("port", address.portNumber)]
  let credentials :=
    if address.username.truthy && address.password.truthy then
      [("username", address.username), ("password", address.password)]
        ++ (if Fields.has "authSource" address.options then []
          else [("authSource", .str "admin")])
    else []
  Fields.ofWrites (place ++ credentials ++ address.options)

end Address

structure Store (σ : Type) where
  address : Address
  driver : Driver σ

namespace Store

variable {σ α : Type}

def drive (a : Action σ α) : Action (Connection σ) α :=
  Action.within Connection.driver (fun driver c => { c with driver }) a

/-! ## The connection -/

def opened (store : Store σ) : Action (Connection σ) Unit := do
  drive (store.driver.connect store.address.parameters)
  drive store.driver.ping
  modify fun c => { c with hasClient := true }
  drive (store.driver.selectDatabase store.address.database)
  modify fun c => { c with hasDatabase := true }

def isConnectionFailure : Failure → Bool
  | .driver d => d.fault == .connection
  | _ => false

def connect (store : Store σ) : Action (Connection σ) Unit := do
  unless (← get).hasClient do
    match ← store.opened.attempt with
    | .ok () => return
    | .error failure =>
      if isConnectionFailure failure then
        throw (.serverUnreachable store.address.host store.address.portNumber)
      else throw (.serverUnexpected failure)

def disconnect (store : Store σ) : Action (Connection σ) Unit := do
  if (← get).hasClient then
    drive store.driver.close
    modify fun c => { c with hasClient := false, hasDatabase := false }

def check : Action (Connection σ) Unit := do
  unless (← get).hasDatabase do throw .serverNotConnected

/-- Performs a task on a collection and passes its answer on; `explain` gives the failures of the
driver that mean something other than that the task failed. -/
def perform (task : DriverTask) (collection : String) (a : Action σ α)
    (explain : Failure → Option (Except Misuse Failure) := fun _ => none) :
    Action (Connection σ) α := do
  check
  match ← (drive a).attempt with
  | .ok result => return result
  | .error failure =>
    match explain failure with
    | none => throw (.serverTask task collection)
    | some (.ok meaning) => throw meaning
    | some (.error misuse) => throw (.misuse misuse)

/-! ## Writing -/

def duplicate (meaning : Failure → Failure) : Failure → Option (Except Misuse Failure)
  | .driver d => if d.fault == .duplicateKey then some (.ok (meaning (.driver d))) else none
  | _ => none

def insert (store : Store σ) (collection : String) (document session : Value) :
    Action (Connection σ) String := do
  let key ← perform .insertDocument collection
    (store.driver.insertOne collection document session)
    (duplicate (.serverDuplicateInsert collection))
  return key.text

def partial? (collection : String) (documents : Value) (ordered : Bool) :
    Failure → Option (Except Misuse Failure)
  | .driver d =>
    if d.fault == .bulkWrite then
      some do
        let report ← BulkReport.read documents ordered d.details
        return .bulkInsert collection (report.requested - report.inserted.length)
          (report.inserted.map .str) report.errors
    else none
  | _ => none

def insertAll (store : Store σ) (collection : String) (documents ordered session : Value) :
    Action (Connection σ) (List String) :=
  perform .insertDocuments collection
    (do
      let keys ← store.driver.insertMany collection documents ordered session
      match keys.elements? with
      | some keys => return keys.map Value.text
      | none => throw (.misuse .wrongType))
    (partial? collection documents ordered.truthy)

def update (store : Store σ) (collection : String) (filter patch session : Value) :
    Action (Connection σ) Value :=
  perform .updateDocuments collection
    (store.driver.updateMany collection filter (.doc [("$set", patch)]) session)
    (duplicate (.serverDuplicateUpdate collection))

def delete (store : Store σ) (collection : String) (filter session : Value) :
    Action (Connection σ) Value :=
  perform .deleteDocuments collection (store.driver.deleteMany collection filter session)

/-! ## Reading -/

def orEmpty (filter : Value) : Value := if filter.truthy then filter else .doc []

def find (store : Store σ) (collection : String) (filter session : Value) :
    Action (Connection σ) Value := do
  return converted (← perform .findDocument collection
    (store.driver.findOne collection (orEmpty filter) session))

def query (store : Store σ) (collection : String) (filter limit session : Value) :
    Action (Connection σ) (List Value) :=
  perform .queryDocuments collection do
    let documents ← store.driver.find collection (orEmpty filter) session
    if limit.truthy then store.driver.limit limit
    store.driver.drain
    return documents.map converted

def count (store : Store σ) (collection : String) (filter session : Value) :
    Action (Connection σ) Value :=
  perform .countDocuments collection (store.driver.count collection (orEmpty filter) session)

def aggregate (store : Store σ) (collection : String) (pipeline session : Value) :
    Action (Connection σ) (List Value) :=
  perform .aggregateDocuments collection do
    let documents ← store.driver.aggregate collection pipeline session
    store.driver.drain
    return documents.map converted

/-! ## Indexes and sessions -/

def indexExists (store : Store σ) (collection : String) (keys unique : Value) :
    Action (Connection σ) Bool := do
  describes keys unique (← perform .listIndexes collection (store.driver.indexes collection))

def rising (keys : Value) : Except Misuse (List Value) :=
  match keys.elements? with
  | some keys => .ok (keys.map fun key => .tuple [key, .int 1])
  | none => .error .wrongType

/-- The codes of a server for an index that exists, and for one that exists with other options. -/
def existsCode : Value := .int 68

def differsCodes : List Value := [.int 85, .int 86]

def indexFailure (collection : String) (keys unique : Value) :
    Failure → Option (Except Misuse Failure)
  | .driver d =>
    let keys := keys.elements?.getD []
    match d.fault with
    | .duplicateKey => some (.ok (.serverDuplicateValues collection keys))
    | .operation | .bulkWrite =>
      if Value.equals d.code existsCode then some (.ok (.serverIndexExists collection keys))
      else if differsCodes.any (Value.equals d.code) then
        some (.ok (.serverIndexDiffers collection keys unique))
      else none
    | _ => none
  | _ => none

def createIndex (store : Store σ) (collection : String) (keys unique : Value) :
    Action (Connection σ) Value :=
  perform .createIndex collection
    (do store.driver.createIndex collection (← rising keys) unique)
    (indexFailure collection keys unique)

def startSession (store : Store σ) : Action (Connection σ) Value := do
  unless (← get).hasClient do throw .serverNotConnected
  match ← (drive store.driver.startSession).attempt with
  | .ok session => return session
  | .error _ => throw .serverSession

end Store
end Docbase.Server
