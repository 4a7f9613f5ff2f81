import Docbase.Query.Basic

/-!
# Failures

Every way in which an operation can fail, by its cause. `Failure.kind` sorts the causes into the
families that callers tell apart, and `Failure.message?` gives the words of each.

A failure that passes through several layers keeps its cause: `Failure.during` adds the operation
that was under way, `Failure.transaction` the transaction that it ended.
-/

namespace Docbase

inductive QueryFault
  | mixedKeys (keys : List String)
  | emptyJunction (kind : Junction)
  | notMapping (typeName : String)
  | extraKeys (keys : List String)
  | membersNotList (kind : Junction)
  | noMembers (kind : Junction)
  | joinWithoutCollection
  | joinSelectText
  | selectText
  | sortDirection (v : Value)
  | notInteger (name : String) (v : Value)
  | unknownKeys (keys : List Value)

inductive ArgumentFault
  | emptyFieldSet
  | sameIdentifiers
  | collectionName
  | portText (text : String)
  | settingsRequired
  | unknownDriver (name : String)
  | hostRequired
  | portRequired
  | databaseRequired
  deriving DecidableEq, Repr

inductive DriverTask
  | insertDocument
  | insertDocuments
  | findDocument
  | queryDocuments
  | countDocuments
  | aggregateDocuments
  | updateDocuments
  | deleteDocuments
  | listIndexes
  | createIndex
  deriving DecidableEq, Repr

inductive DriverFault
  | connection
  | duplicateKey
  | operation
  | bulkWrite
  | other
  deriving DecidableEq, Repr

/-- A failure of a database driver: its family and name, its words, and the code and details that
some families carry. -/
structure DriverFailure where
  fault : DriverFault
  name : String
  message : String
  code : Value := .null
  details : Value := .null

inductive TransactionPhase
  | body
  | commit
  deriving DecidableEq, Repr

inductive FailureKind
  | misuse (m : Misuse)
  | invalidQuery
  | argument
  | outside
  | driver (name : String)
  | store
  | notConnected
  | connection
  | notFound
  | validation
  | duplicateKey
  | indexExists
  | bulkInsert
  | transaction
  deriving DecidableEq, Repr

inductive Failure
  | misuse (m : Misuse)
  | query (fault : QueryFault)
  | argument (fault : ArgumentFault)
  | outside (message : String)
  | driver (failure : DriverFailure)
  | reported (kind : FailureKind) (message : String)
  | reportedBulk (message : String) (inserted : List Value) (errors : List String)
  -- Filters, expressions and pipelines
  | unsupportedOperator (operator : String)
  | unsupportedFilter (key : String)
  | notAPattern (v : Value)
  | unsupportedExpression (operator : String)
  | stageKeys (stage : Value)
  | unsupportedStage (name : String)
  | exclusionAmongInclusions (path : String)
  -- Stores and sessions
  | notConnected
  | sessionEnded
  | foreignSession
  | transactionInProgress
  | noTransaction
  | unsupportedIdentifier (id : Value)
  | immutableIdentifier
  | duplicateIdentifier (collection : String) (id : Value)
  | duplicateIndexValue (collection index : String) (entry : Document)
  | indexExists (collection : String) (keys : List Value)
  | indexDiffers (collection : String) (keys : List Value) (unique requested : Bool)
  | bulkInsert (collection : String) (rejected : Int) (inserted : List Value)
      (errors : List String)
  -- Repositories
  | rejected (collection : String) (errors : List String)
  | uniqueViolation (collection operation : String) (payload : Value) (cause : Failure)
  | unenforceable (collection : String) (keys : List Value) (cause : Failure)
  | emptyUpdate (collection : String) (filter : Value)
  | identifierUpdate (collection : String)
  | notFound (collection : String) (input : QueryInput)
  /-- A failure of a store while an operation with this payload was under way. -/
  | during (operation collection : String) (payload : Value) (cause : Failure)
  | transaction (phase : TransactionPhase) (cause : Failure)
  -- Database servers
  | serverNotConnected
  | serverUnreachable (host portNumber : Value)
  | serverUnexpected (cause : Failure)
  | serverSession
  | serverTask (task : DriverTask) (collection : String)
  | serverDuplicateInsert (collection : String) (cause : Failure)
  | serverDuplicateUpdate (collection : String) (cause : Failure)
  | serverDuplicateValues (collection : String) (keys : List Value)
  | serverIndexExists (collection : String) (keys : List Value)
  | serverIndexDiffers (collection : String) (keys : List Value) (requested : Value)

namespace QueryFault

def message : QueryFault → String
  | mixedKeys keys =>
    "where clause mixes field predicates with logical key(s) " ++ Value.shownTexts keys
      ++ "; use Or/And over flat predicates instead"
  | emptyJunction kind => kind.name ++ " must hold at least one predicate"
  | notMapping typeName => "where clause must be a mapping, got " ++ typeName
  | extraKeys keys =>
    "where clause must hold exactly one of a flat predicate, 'or' or 'and'; got keys "
      ++ Value.shownTexts keys
  | membersNotList kind => "'" ++ kind.key ++ "' must hold a list of predicates"
  | noMembers kind => "'" ++ kind.key ++ "' must hold at least one predicate"
  | joinWithoutCollection => "join options require a collection name"
  | joinSelectText => "join select must be a list of field names"
  | selectText => "select must be a list of field names"
  | sortDirection v =>
    "sort direction must be 'asc' or 'desc': " ++ v.shown ++ " is not a valid SortOrder"
  | notInteger name v => name ++ " must be an integer, got " ++ v.shown
  | unknownKeys keys => "unknown query keys: " ++ Value.shown (.list keys)

end QueryFault

namespace ArgumentFault

def message : ArgumentFault → String
  | emptyFieldSet => "a compound unique field set cannot be empty"
  | sameIdentifiers => "external and internal identifier fields must differ"
  | collectionName => "collection name is required"
  | portText text => "DOCUMENT_DATABASE_PORT must be an integer, got " ++ Text.quoted text
  | settingsRequired => "document_store config is required"
  | unknownDriver name =>
    "Unknown document_store driver: " ++ name ++ ". Supported drivers: inmemory, mongodb"
  | hostRequired =>
    "MongoDB host is required. Provide the MongoDB server hostname or IP address."
  | portRequired => "MongoDB port is required. Provide the MongoDB server port number."
  | databaseRequired => "MongoDB database is required. Provide the database name to use."

end ArgumentFault

namespace DriverTask

def words : DriverTask → String
  | insertDocument => "insert document into"
  | insertDocuments => "insert documents into"
  | findDocument => "find document in"
  | queryDocuments => "query documents from"
  | countDocuments => "count documents in"
  | aggregateDocuments => "aggregate documents from"
  | updateDocuments => "update documents in"
  | deleteDocuments => "delete documents from"
  | listIndexes => "list indexes of"
  | createIndex => "create index on"

end DriverTask

namespace FailureKind

def isStore : FailureKind → Bool
  | store | notConnected | connection | notFound | validation | duplicateKey | indexExists
  | bulkInsert | transaction => true
  | _ => false

/-- The family of a failure that is passed on with the operation that met it: the families that
consist of words alone keep theirs. -/
def passedOn : FailureKind → FailureKind
  | notConnected => notConnected
  | connection => connection
  | indexExists => indexExists
  | _ => store

end FailureKind

namespace Failure

def kind : Failure → FailureKind
  | misuse m => .misuse m
  | query _ => .invalidQuery
  | argument _ => .argument
  | outside _ => .outside
  | driver d => .driver d.name
  | reported kind _ => kind
  | notConnected | serverNotConnected => .notConnected
  | serverUnreachable _ _ | serverUnexpected _ => .connection
  | duplicateIdentifier _ _ | duplicateIndexValue _ _ _ | serverDuplicateInsert _ _
  | serverDuplicateUpdate _ _ | serverDuplicateValues _ _ => .duplicateKey
  | indexExists _ _ | serverIndexExists _ _ => .indexExists
  | reportedBulk _ _ _ | bulkInsert _ _ _ _ => .bulkInsert
  | rejected _ _ | uniqueViolation _ _ _ _ | unenforceable _ _ _ | emptyUpdate _ _
  | identifierUpdate _ => .validation
  | notFound _ _ => .notFound
  | during _ _ _ cause => cause.kind.passedOn
  | transaction _ _ => .transaction
  | _ => .store

private def keysOn (collection : String) (keys : List Value) : String :=
  collection ++ "." ++ Value.shown (.list keys)

private def duplicateText (collection index key : String) : String :=
  "E11000 duplicate key error collection: " ++ collection ++ " index: " ++ index ++ " dup key: "
    ++ key

private def validationText (collection : String) (errors : List String) : String :=
  "Validation failed for collection '" ++ collection ++ "': " ++ "; ".intercalate errors

private def violationText (operation : String) (payload : Value) (words : String) : String :=
  operation ++ " with " ++ payload.shown ++ " violates a unique constraint: " ++ words

private def unenforceableText (keys : List Value) (words : String) : String :=
  "cannot enforce uniqueness of " ++ Value.shown (.list keys) ++ ": " ++ words

private def emptyUpdateText (filter : Value) : String :=
  "update data cannot be empty (filter: " ++ filter.shown ++ ")"

private def identifierUpdateText : String := "update data cannot change identifier fields"

def message? : Failure → Option String
  | misuse _ => none
  | query fault => fault.message
  | argument fault => fault.message
  | outside message => message
  | driver failure => failure.message
  | reported _ message => message
  | reportedBulk message _ _ => message
  | unsupportedOperator operator => "unsupported query operator " ++ operator
  | unsupportedFilter key => "unsupported top-level query operator " ++ key
  | notAPattern v => "$regex must be a string or compiled pattern, got " ++ v.shown
  | unsupportedExpression operator => "unsupported expression operator " ++ operator
  | stageKeys stage => "A pipeline stage must have exactly one key: " ++ stage.shown
  | unsupportedStage name => "Unsupported aggregation stage " ++ name
  | exclusionAmongInclusions path =>
    "Cannot do exclusion on field " ++ path ++ " in inclusion projection"
  | notConnected => "Not connected to in-memory store"
  | sessionEnded => "Cannot use a session that has ended"
  | foreignSession => "Session belongs to another store"
  | transactionInProgress => "Transaction already in progress"
  | noTransaction => "No transaction started"
  | unsupportedIdentifier id => "Unsupported _id value " ++ id.shown
  | immutableIdentifier =>
    "Performing an update on the path '_id' would modify the immutable field '_id'"
  | duplicateIdentifier collection id => duplicateText collection "_id_" id.shown
  | duplicateIndexValue collection index entry =>
    duplicateText collection index (Value.shown (.doc entry))
  | indexExists collection keys =>
    "Index with keys " ++ Value.shown (.list keys) ++ " already exists on " ++ collection
  | indexDiffers collection keys unique requested =>
    "Index with keys " ++ Value.shown (.list keys) ++ " already exists on " ++ collection
      ++ " with unique=" ++ Value.shown (.bool unique)
      ++ " (unique=" ++ Value.shown (.bool requested) ++ " requested)"
  | bulkInsert collection count _ _ =>
    "Bulk insert into " ++ collection ++ " failed for " ++ toString count ++ " documents"
  | rejected collection errors => validationText collection errors
  | uniqueViolation collection operation payload cause =>
    validationText collection [violationText operation payload (cause.message?.getD "")]
  | unenforceable collection keys cause =>
    validationText collection [unenforceableText keys (cause.message?.getD "")]
  | emptyUpdate collection filter => validationText collection [emptyUpdateText filter]
  | identifierUpdate collection => validationText collection [identifierUpdateText]
  | notFound collection input =>
    "No document in '" ++ collection ++ "' matches " ++ input.shown
  | during operation collection payload cause =>
    "Failed to " ++ operation ++ " in '" ++ collection ++ "' with " ++ payload.shown ++ ": "
      ++ (cause.message?.getD "")
  | transaction .body cause => cause.message?.map ("Transaction failed: " ++ ·)
  | transaction .commit cause => cause.message?.map ("Transaction commit failed: " ++ ·)
  | serverNotConnected => "Not connected to MongoDB"
  | serverUnreachable host portNumber =>
    "Failed to connect to MongoDB at " ++ host.text ++ ":" ++ portNumber.text
  | serverUnexpected cause =>
    cause.message?.map ("Unexpected error connecting to MongoDB: " ++ ·)
  | serverSession => "Failed to start MongoDB session"
  | serverTask task collection => "Failed to " ++ task.words ++ " " ++ collection
  | serverDuplicateInsert collection cause =>
    "Duplicate key inserting into " ++ collection ++ ": " ++ (cause.message?.getD "")
  | serverDuplicateUpdate collection cause =>
    "Duplicate key updating " ++ collection ++ ": " ++ (cause.message?.getD "")
  | serverDuplicateValues collection keys =>
    "Cannot create unique index on " ++ keysOn collection keys ++ ": duplicate values exist"
  | serverIndexExists collection keys =>
    "Index on " ++ keysOn collection keys ++ " already exists"
  | serverIndexDiffers collection keys requested =>
    "An index on " ++ keysOn collection keys ++ " exists with different options (unique="
      ++ requested.text ++ " requested)"

def message (f : Failure) : String := f.message?.getD ""

def complaints : Failure → List String
  | rejected _ errors | reportedBulk _ _ errors | bulkInsert _ _ _ errors => errors
  | uniqueViolation _ operation payload cause => [violationText operation payload cause.message]
  | unenforceable _ keys cause => [unenforceableText keys cause.message]
  | emptyUpdate _ filter => [emptyUpdateText filter]
  | identifierUpdate _ => [identifierUpdateText]
  | _ => []

def collection? : Failure → Option String
  | rejected collection _ | uniqueViolation collection _ _ _ | unenforceable collection _ _
  | emptyUpdate collection _ | identifierUpdate collection => some collection
  | _ => none

instance : MonadLift (Except Misuse) (Except Failure) where
  monadLift
    | .ok a => .ok a
    | .error m => .error (.misuse m)

instance : MonadLift (Except QueryFault) (Except Failure) where
  monadLift
    | .ok a => .ok a
    | .error fault => .error (.query fault)

instance : MonadLift (Except ArgumentFault) (Except Failure) where
  monadLift
    | .ok a => .ok a
    | .error fault => .error (.argument fault)

end Failure
end Docbase
