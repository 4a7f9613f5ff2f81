import Docbase.Query.Where
import Docbase.Value.Order

/-!
# Reading queries

Queries come as documents with the fields `where`, `select`, `join`, `join_conditions` (or
`joinConditions`), `limit`, `skip`, `sort` and `aliases`. Each is checked in turn and the first
fault is reported. The alias map and the join conditions are taken as they are.
-/

namespace Docbase

namespace JoinTarget

def ofOptions (options : Document) : Except Failure JoinTarget := do
  let collection := (options.lookup "collection_name").getD
    ((options.lookup "collectionName").getD .null)
  if !collection.truthy then throw (.query .joinWithoutCollection)
  match options.lookup "select" with
  | none | some .null => return { collection }
  | some (.str _) => throw (.query .joinSelectText)
  | some v =>
    match v.elements? with
    | some fields => return { collection, select := some fields }
    | none => throw (.misuse .wrongType)

def ofValue : Value → Except Failure JoinTarget
  | .doc options => ofOptions options
  | .joinTo collection select => .ok { collection, select := select.elements? }
  | _ => .error (.misuse .noSuchPart)

end JoinTarget

namespace Query

def fieldNames : List String :=
  ["where", "select", "join", "join_conditions", "limit", "skip", "sort", "aliases"]

def readSelect : Value → Except Failure (Option (List Value))
  | .null => .ok none
  | .str _ => .error (.query .selectText)
  | v =>
    match v.elements? with
    | some fields => .ok (some fields)
    | none => .error (.misuse .wrongType)

def readJoin : Value → Except Failure (Option (List (String × JoinTarget)))
  | .null => .ok none
  | .doc fields => do
    return some (← fields.mapM fun (field, options) => do
      return (field, ← JoinTarget.ofValue options))
  | _ => .error (.misuse .noSuchPart)

def readSort : Value → Except Failure (Option (List (String × SortDirection)))
  | .null => .ok none
  | .doc fields => do
    return some (← fields.mapM fun (field, v) =>
      match SortDirection.ofValue? v with
      | some direction => .ok (field, direction)
      | none => .error (.query (.sortDirection v)))
  | _ => .error (.misuse .noSuchPart)

def readCount (name : String) : Value → Except Failure (Option Int)
  | .null => .ok none
  | .int n => .ok (some n)
  | v => .error (.query (.notInteger name v))

def ofFields (fields : Document) : Except Failure Query := do
  let get (key : String) : Value := (fields.lookup key).getD .null
  let filter ← Where.read (get "where")
  let select ← readSelect (get "select")
  let join ← readJoin (get "join")
  let sort ← readSort (get "sort")
  let limit ← readCount "limit" (get "limit")
  let skip ← readCount "skip" (get "skip")
  return { filter, select, join, joinConditions := get "join_conditions", limit, skip, sort,
           aliases := get "aliases" }

def ofKnownFields (fields : Document) : Except Failure Query :=
  if (Fields.keys fields).all fieldNames.contains then ofFields fields
  else .error (.misuse .wrongType)

/-- Puts a value into its place among ordered ones, unless some two cannot be ordered. -/
def insertInOrder? (v : Value) : List Value → Option (List Value)
  | [] => some [v]
  | w :: rest => do
    if (← Value.order? v w) == .lt then return v :: w :: rest
    else return w :: (← insertInOrder? v rest)

def unknownNames (names : List Value) : Except Failure (List Value) :=
  if !names.all Value.hashable then .error (.misuse .wrongType)
  else
    let known : List Value := ("joinConditions" :: fieldNames).map .str
    let unknown := names.filter fun name => !known.any (Value.same name)
    let distinct := unknown.foldl (fun seen name =>
      if seen.any (Value.same name) then seen else seen ++ [name]) []
    match distinct.foldlM (fun ordered name => insertInOrder? name ordered) [] with
    | some ordered => .ok ordered
    | none => .error (.misuse .wrongType)

def ofData (v : Value) : Except Failure Query :=
  match v.elements? with
  | none => .error (.misuse .wrongType)
  | some names => do
    let unknown ← unknownNames names
    if !unknown.isEmpty then throw (.query (.unknownKeys unknown))
    match v with
    | .doc fields =>
      let conditions := (fields.lookup "join_conditions").getD
        ((fields.lookup "joinConditions").getD .null)
      ofFields (Fields.set "join_conditions" conditions fields)
    | _ => throw (.misuse .noSuchPart)

end Query

namespace QueryInput

def read : QueryInput → Except Failure (Option Query)
  | built q => .ok (some q)
  | data .null => .ok none
  | data v => do return some (← Query.ofData v)

end QueryInput
end Docbase
