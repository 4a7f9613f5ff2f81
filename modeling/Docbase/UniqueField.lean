import Docbase.Backend

/-!
# Unique fields

Writers may declare fields, or sets of fields, whose values no two documents of a collection
share. A unique index is created for each of them before the write, unless there is one. Someone
else may create the same index in between; that is as good.
-/

namespace Docbase.UniqueField

variable {σ ι : Type}

def keys : Value → Except Failure (List Value)
  | .str name => .ok [.str name]
  | v =>
    match v.elements? with
    | none => .error (.misuse .wrongType)
    | some [] => .error (.argument .emptyFieldSet)
    | some names => .ok names

/-- Looks once more for an index that was reported to be there already, since it may not be a
unique one. -/
def recheck (backend : Backend σ ι) (collection : String) (keys : List Value)
    (reported : Failure) : Action σ Unit := do
  match ← (backend.hasUnique collection keys).attempt with
  | .ok present => unless present.truthy do throw (.unenforceable collection keys reported)
  | .error failure =>
    if failure.kind.isStore then throw (.unenforceable collection keys failure) else throw failure

def createMissing (backend : Backend σ ι) (collection : String) (keys : List Value) :
    Action σ Unit := do
  unless (← backend.hasUnique collection keys).truthy do backend.createUnique collection keys

def ensureKeys (backend : Backend σ ι) (collection : String) (keys : List Value) :
    Action σ Unit := do
  match ← (createMissing backend collection keys).attempt with
  | .ok () => return
  | .error failure =>
    if failure.kind = .indexExists then recheck backend collection keys failure
    else if failure.kind.isStore then throw (.unenforceable collection keys failure)
    else throw failure

def ensure (backend : Backend σ ι) (collection : String) (declared : Value) : Action σ Unit := do
  if declared.truthy then
    match declared.elements? with
    | none => throw (.misuse .wrongType)
    | some fieldSets => fieldSets.forM fun fieldSet => do
      ensureKeys backend collection (← keys fieldSet)

end Docbase.UniqueField
