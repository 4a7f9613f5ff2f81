import Docbase.Failure

/-!
# Identity

Callers know a document by its external identifier, the store by its internal key. The internal
key is the only one that is stored: the external identifier is written over to it in filters, taken
out of everything that is written, and derived from it in everything that is read.
-/

namespace Docbase

structure Identity where
  external : String := "id"
  internal : String := "_id"
  distinct : external ≠ internal := by decide

instance : Inhabited Identity := ⟨{}⟩

namespace Identity

def ofNames (external internal : String) : Except ArgumentFault Identity :=
  if h : external = internal then .error .sameIdentifiers
  else .ok { external, internal, distinct := h }

def isConnective (key : String) : Bool := key == "$and" || key == "$or" || key == "$nor"

mutual

def renameFields (identity : Identity) : List (String × Value) → List (String × Value)
  | [] => []
  | (key, .list items) :: rest =>
    (if key = identity.external then (identity.internal, .list items)
      else if isConnective key then (key, .list (renameItems identity items))
      else (key, .list items)) :: renameFields identity rest
  | (key, v) :: rest =>
    (if key = identity.external then identity.internal else key, v) :: renameFields identity rest

def renameItems (identity : Identity) : List Value → List Value
  | [] => []
  | .doc fields :: rest =>
    .doc (Fields.ofWrites (renameFields identity fields)) :: renameItems identity rest
  | v :: rest => v :: renameItems identity rest

end

/-- A filter or document with the external name replaced by the internal one, also inside of the
lists of connectives. Where both names meet, the later condition stays. -/
def toInternal (identity : Identity) (fields : Document) : Document :=
  Fields.ofWrites (identity.renameFields fields)

def toInternalValue (identity : Identity) (v : Value) : Except Misuse Document :=
  if !v.truthy then .ok []
  else match v with
    | .doc fields => .ok (identity.toInternal fields)
    | _ => .error .noSuchPart

/-- A stored document as callers see it: the text of its key under the external name. -/
def toExternal (identity : Identity) (d : Document) : Document :=
  match d.lookup identity.internal with
  | none => d
  | some key =>
    Fields.set identity.external (if key.isNull then .null else .str key.text)
      (Fields.erase identity.internal d)

def strip (identity : Identity) (d : Document) : Document :=
  d.filter fun field => field.1 != identity.external && field.1 != identity.internal

def internalName (identity : Identity) (path : String) : String :=
  if path = identity.external then identity.internal else path

end Identity
end Docbase
