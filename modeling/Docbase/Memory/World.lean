import Docbase.Memory.Contents

/-!
# Stores in memory and their sessions

A world holds the stores by name and the sessions that were started on them. A session in a
transaction keeps the contents that its store had at the start; aborting puts them back, with all
that was written since, by whomever.

An operation of a store is refused if the store is not connected, or if the session that it is
given has ended or belongs to another store.
-/

namespace Docbase.Memory

structure Store where
  connected : Bool := false
  contents : Contents := {}
  deriving Inhabited

structure Session where
  home : String
  hasEnded : Bool := false
  /-- What the store held when the transaction in progress started. -/
  snapshot : Option Contents := none
  deriving Inhabited

/-- A session, by the number of sessions that were started before it. -/
abbrev SessionId := Nat

structure World where
  stores : String → Store
  sessions : List Session := []
  generated : Nat := 0
  /-- How many keys were drawn from the source of keys for new documents. -/
  drawn : Nat := 0

namespace Session

def inTransaction (s : Session) : Bool := s.snapshot.isSome

end Session

namespace World

def empty (connected : Bool) : World := { stores := fun _ => { connected } }

def setStore (name : String) (store : Store) (w : World) : World :=
  { w with stores := fun other => if other = name then store else w.stores other }

@[simp] theorem stores_setStore_self (name : String) (store : Store) (w : World) :
    (w.setStore name store).stores name = store := by
  simp [setStore]

theorem stores_setStore_of_ne {name other : String} (h : other ≠ name) (store : Store)
    (w : World) : (w.setStore name store).stores other = w.stores other := by
  simp [setStore, h]

def contents (name : String) (w : World) : Contents := (w.stores name).contents

def setContents (name : String) (contents : Contents) (w : World) : World :=
  w.setStore name { w.stores name with contents }

def session (id : SessionId) (w : World) : Session := w.sessions.getD id default

def setSession (id : SessionId) (s : Session) (w : World) : World :=
  { w with sessions := w.sessions.set id s }

def refusal (name : String) (caller : Option SessionId) (w : World) : Option Failure :=
  if !(w.stores name).connected then some .notConnected
  else match caller with
    | none => none
    | some id =>
      if (w.session id).hasEnded then some .sessionEnded
      else if (w.session id).home ≠ name then some .foreignSession
      else none

def check (name : String) (caller : Option SessionId) : Action World Unit := do
  match (← get).refusal name caller with
  | some failure => throw failure
  | none => return

def onContents {α : Type} (name : String) (a : Action Contents α) : Action World α :=
  Action.within (contents name) (setContents name) a

def reading {α : Type} (name : String) (f : Contents → Except Failure α) : Action World α := do
  f ((← get).contents name)

/-! ## Stores -/

def connect (name : String) : Action World Unit :=
  modify fun w => w.setStore name { w.stores name with connected := true }

def disconnect (name : String) : Action World Unit :=
  modify fun w => w.setStore name { w.stores name with connected := false }

def reserve (count : Nat) : Action World Nat :=
  modifyGet fun w => (w.generated, { w with generated := w.generated + count })

def insert (store collection : String) (document : Value) (caller : Option SessionId := none) :
    Action World String := do
  check store caller
  let number ← reserve 1
  onContents store (Contents.insert collection number document)

def insertAll (store collection : String) (documents : List Value) (ordered : Bool := true)
    (caller : Option SessionId := none) : Action World (List String) := do
  check store caller
  let number ← reserve documents.length
  onContents store (Contents.insertAll collection number documents ordered)

def find (store collection : String) (filter : Value) (caller : Option SessionId := none) :
    Action World (Option Document) := do
  check store caller
  reading store (Contents.find collection filter)

def query (store collection : String) (filter : Value) (limit : Value := .int 0)
    (caller : Option SessionId := none) : Action World (List Document) := do
  check store caller
  reading store (Contents.query collection filter limit)

def count (store collection : String) (filter : Value) (caller : Option SessionId := none) :
    Action World Nat := do
  check store caller
  reading store (Contents.count collection filter)

def aggregate (store collection : String) (pipeline : Value)
    (caller : Option SessionId := none) : Action World (List Document) := do
  check store caller
  reading store (Contents.aggregate collection pipeline)

def update (store collection : String) (filter patch : Value)
    (caller : Option SessionId := none) : Action World Nat := do
  check store caller
  onContents store (Contents.update collection filter patch)

def delete (store collection : String) (filter : Value) (caller : Option SessionId := none) :
    Action World Nat := do
  check store caller
  onContents store (Contents.delete collection filter)

def indexExists (store collection : String) (keys : List Value) (unique : Bool := true) :
    Action World Bool := do
  check store none
  reading store fun contents => .ok (contents.indexExists collection keys unique)

def createIndex (store collection : String) (keys : List Value) (unique : Bool := true) :
    Action World String := do
  check store none
  onContents store (Contents.createIndex collection keys unique)

def clearCollection (store collection : String) : Action World Unit :=
  modify fun w => w.setContents store ((w.contents store).clear collection)

def clearAll (store : String) : Action World Unit :=
  modify fun w => w.setContents store {}

/-! ## Sessions -/

def startSession (store : String) : Action World SessionId := do
  check store none
  modifyGet fun w => (w.sessions.length, { w with sessions := w.sessions ++ [{ home := store }] })

def activeSession (id : SessionId) : Action World Session := do
  let s := (← get).session id
  if s.hasEnded then throw .sessionEnded
  return s

def startTransaction (id : SessionId) : Action World Unit := do
  let s ← activeSession id
  if s.inTransaction then throw .transactionInProgress
  modify fun w => w.setSession id { s with snapshot := some (w.contents s.home) }

def commitTransaction (id : SessionId) : Action World Unit := do
  let s ← activeSession id
  unless s.inTransaction do throw .noTransaction
  modify (setSession id { s with snapshot := none })

def abortTransaction (id : SessionId) : Action World Unit := do
  let s ← activeSession id
  match s.snapshot with
  | none => throw .noTransaction
  | some contents =>
    modify fun w => (w.setContents s.home contents).setSession id { s with snapshot := none }

/-- Ends a session; a transaction that is still in progress is aborted. -/
def endSession (id : SessionId) : Action World Unit := do
  let s := (← get).session id
  unless s.hasEnded do
    if s.inTransaction then abortTransaction id
    modify fun w => w.setSession id { w.session id with hasEnded := true }

end World
end Docbase.Memory
