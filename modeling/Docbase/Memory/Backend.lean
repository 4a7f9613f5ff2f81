import Docbase.Backend
import Docbase.Memory.World

/-!
# Stores in memory as backends
-/

namespace Docbase.Memory

def listed {α : Type} (toValue : α → Value) (items : List α) : Value := .list (items.map toValue)

def backend (store : String) : Backend World SessionId where
  insert collection d session := do
    return .str (← World.insert store collection (.doc d) session)
  insertEach collection documents session := do
    return listed .str (← World.insertAll store collection (documents.map .doc) false session)
  update collection filter patch session := do
    return .ofNat (← World.update store collection (.doc filter) (.doc patch) session)
  delete collection filter session := do
    return .ofNat (← World.delete store collection (.doc filter) session)
  count collection session := do
    return .ofNat (← World.count store collection .null session)
  first collection session := do
    return ((← World.find store collection .null session).map .doc).getD .null
  all collection session := do
    return listed .doc (← World.query store collection .null (.int 0) session)
  aggregate collection stages session := do
    return listed .doc (← World.aggregate store collection (.list (Stage.renderAll stages)) session)
  hasUnique collection keys := do
    return .bool (← World.indexExists store collection keys true)
  createUnique collection keys := do
    let _ ← World.createIndex store collection keys true

def sessions (store : String) : Sessions World SessionId where
  start := World.startSession store
  startTransaction := World.startTransaction
  commitTransaction := World.commitTransaction
  abortTransaction := World.abortTransaction
  finish := World.endSession

end Docbase.Memory
