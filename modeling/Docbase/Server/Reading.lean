import Docbase.Value.Equality
import Docbase.Value.Order
import Docbase.Value.Text

/-!
# Readings of a server's answers

Object identifiers are replaced by their texts, the descriptions of indexes are searched for one over
given keys, and the report of a failed bulk insert tells which documents were written.
-/

namespace Docbase.Server

/-! ## Object identifiers -/

mutual

def withoutIds : Value → Value
  | .objectId id => .str id.text
  | .list items => .list (itemsWithoutIds items)
  | .doc fields => .doc (fieldsWithoutIds fields)
  | v => v

def itemsWithoutIds : List Value → List Value
  | [] => []
  | v :: rest => withoutIds v :: itemsWithoutIds rest

def fieldsWithoutIds : List (String × Value) → List (String × Value)
  | [] => []
  | (key, v) :: rest => (key, withoutIds v) :: fieldsWithoutIds rest

end

/-- An answer of a server as it is passed on. Only a document or a list is looked into. -/
def converted : Value → Value
  | .list items => .list (itemsWithoutIds items)
  | .doc fields => .doc (fieldsWithoutIds fields)
  | v => v

/-! ## Indexes -/

def keyName (v : Value) : Except Misuse Value :=
  match v.elements? with
  | none => .error .wrongType
  | some [name, _] => .ok name
  | some _ => .error .badValue

def isOver (keys : List Value) (unique : Value) (description : Value) : Except Misuse Bool :=
  match description with
  | .doc fields => do
    let listed := (fields.lookup "key").getD (.list [])
    let some parts := listed.elements? | throw .wrongType
    let names ← parts.mapM keyName
    return Value.sameItems names keys
      && (!unique.truthy || ((fields.lookup "unique").getD (.bool false)).truthy)
  | _ => .error .noSuchPart

def describesOne (keys : List Value) (unique : Value) : List Value → Except Misuse Bool
  | [] => return false
  | description :: rest => do
    if ← isOver keys unique description then return true else describesOne keys unique rest

def describes (keys unique : Value) (indexes : Value) : Except Misuse Bool :=
  match keys.elements? with
  | none => .error .wrongType
  | some keys =>
    match indexes with
    | .doc fields => describesOne keys unique (fields.map (·.2))
    | _ => .error .noSuchPart

/-! ## Reports of bulk inserts -/

structure BulkReport where
  requested : Nat
  inserted : List String
  errors : List String

namespace BulkReport

/-- A part of a report, by name; the fallback stands for one that is absent. -/
def part (name : String) (report : Value) : Except Misuse (List Value) :=
  match report with
  | .doc fields =>
    match ((fields.lookup name).getD (.list [])).elements? with
    | some items => .ok items
    | none => .error .wrongType
  | _ => .error .noSuchPart

def required (name : String) : Value → Except Misuse Value
  | .doc fields =>
    match fields.lookup name with
    | some v => .ok v
    | none => .error .missingField
  | _ => .error .wrongType

def failedPosition (error : Value) : Except Misuse Value := do
  let position ← required "index" error
  if position.hashable then return position else throw .wrongType

def errorText : Value → Except Misuse String
  | .doc fields => .ok (((fields.lookup "errmsg").map Value.text).getD (Value.text (.doc fields)))
  | _ => .error .noSuchPart

def least (position : Value) : List Value → Except Misuse Value
  | [] => return position
  | other :: rest =>
    match Value.order? other position with
    | some .lt => least other rest
    | some _ => least position rest
    | none => throw .wrongType

/-- How many documents an insert looked at: an ordered one stops at the first failure. -/
def reached (count : Nat) (ordered : Bool) (failed : List Value) : Except Misuse Nat :=
  match ordered, failed with
  | true, position :: rest => do
    match (← least position rest).index? with
    | some n => return if 0 ≤ n then n.toNat else (count + n).toNat
    | none => throw .wrongType
  | _, _ => .ok count

def insertedKeys (failed : List Value) : Nat → List Value → Except Misuse (List String)
  | _, [] => return []
  | position, d :: rest => do
    if failed.any (Value.same (.ofNat position)) then insertedKeys failed (position + 1) rest
    else
      let key ← required "_id" d
      return key.text :: (← insertedKeys failed (position + 1) rest)

def read (documents : Value) (ordered : Bool) (report : Value) : Except Misuse BulkReport := do
  let writeErrors ← part "writeErrors" report
  let failed ← writeErrors.mapM failedPosition
  let some documents := documents.elements? | throw .wrongType
  let reached ← reached documents.length ordered failed
  let inserted ← insertedKeys failed 0 (documents.take reached)
  let errors ← writeErrors.mapM errorText
  let concerns ← part "writeConcernErrors" report
  return { requested := documents.length, inserted, errors := errors ++ concerns.map Value.text }

end BulkReport
end Docbase.Server
