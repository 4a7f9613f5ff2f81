import Docbase.Identity
import Docbase.Pipeline.Stage
import Docbase.Query.Read

/-!
# Query plans

A query becomes two pipelines: one for the documents it returns, and one that counts the documents
its filter selects. The stages of the first come in a fixed order: filter, joins, aliases,
projection, sort, skip and limit. A part of the query that asks for nothing has no stage.
-/

namespace Docbase

structure Plan where
  stages : List Stage
  total : List Stage

namespace Plan

def totalField : String := "totalCount"

/-! ## The parts of a pipeline -/

def filterStages (identity : Identity) (clause : Value) : Except Failure (List Stage) := do
  let filter := identity.toInternal (← Where.toFilter clause)
  return if filter.isEmpty then [] else [.keep filter]

def keyOf (v : Value) : Except Failure String :=
  if v.hashable then .ok v.text else .error (.misuse .wrongType)

def projection (identity : Identity) (select : Value) : Except Failure Document :=
  if !select.truthy then .ok []
  else match select.elements? with
    | none => .error (.misuse .wrongType)
    | some names => do
      return Fields.ofWrites ((← names.mapM keyOf).map fun name =>
        (identity.internalName name, .int 1))

def identifierText (identity : Identity) : Value :=
  .doc [("$toString", .str ("$" ++ identity.internal))]

def targetProjection (identity : Identity) (target : JoinTarget) : Except Failure Document := do
  let identifiers := [(identity.external, identifierText identity), (identity.internal, .int 0)]
  let names ← (target.select.getD []).filterM fun name => do
    return !(Value.same name (.str identity.external) || Value.same name (.str identity.internal))
  let names ← names.mapM keyOf
  return Fields.ofWrites (identifiers ++ names.map fun name => (name, .int 1))

def joinCondition (conditions : Value) (field : String) : Except Failure Value :=
  if !conditions.truthy then .ok .null
  else match conditions with
    | .doc fields => .ok ((fields.lookup field).getD .null)
    | _ => .error (.misuse .noSuchPart)

def lookupStage (identity : Identity) (conditions : Value) (field : String)
    (target : JoinTarget) : Except Failure Stage := do
  let condition ← joinCondition conditions field
  let filter ← identity.toInternalValue condition
  let projection ← targetProjection identity target
  let filterStages := if condition.truthy then [Stage.keep filter] else []
  return .lookup target.collection field identity.internal field
    (filterStages ++ [.project projection])

def lookupStages (identity : Identity) (join conditions : Value) :
    Except Failure (List Stage) :=
  if !join.truthy then .ok []
  else match join with
    | .doc fields => fields.mapM fun (field, options) => do
      lookupStage identity conditions field (← JoinTarget.ofValue options)
    | _ => .error (.misuse .noSuchPart)

def sortKeys (identity : Identity) (sort : List (String × SortDirection)) :
    List (String × SortDirection) :=
  Fields.ofWrites (sort.map fun (name, direction) => (identity.internalName name, direction))

def sortKeysOf (identity : Identity) (sort : Value) :
    Except Failure (List (String × SortDirection)) :=
  if !sort.truthy then .ok []
  else match sort with
    | .doc fields => do
      let keys ← fields.mapM fun (name, v) =>
        match SortDirection.ofValue? v with
        | some direction => .ok (name, direction)
        | none => .error (.misuse .badValue)
      return sortKeys identity keys
    | _ => .error (.misuse .noSuchPart)

def aliasFields (identity : Identity) (aliases : Value) : Except Failure Document :=
  if !aliases.truthy then .ok []
  else match aliases with
    | .doc fields => .ok (fields.map fun (name, source) =>
      (name, if Value.same source (.str identity.external) then identifierText identity
        else .str ("$" ++ source.text)))
    | _ => .error (.misuse .noSuchPart)

/-! ## Plans -/

def counting (identity : Identity) (clause : Value) : Except Failure (List Stage) := do
  return (← filterStages identity clause) ++ [.count totalField]

def pageStages (single : Bool) (skip limit : Option Int) : List Stage :=
  if single then [.limit 1]
  else
    let positive (stage : Int → Stage) : Option Int → List Stage
      | some n => if 0 < n then [stage n] else []
      | none => []
    positive .skip skip ++ positive .limit limit

def unlessEmpty {α : Type} (stage : List α → Stage) (fields : List α) : List Stage :=
  if fields.isEmpty then [] else [stage fields]

/-- The plan of a query. A single document is the first one, whatever page is asked for. -/
def ofQuery (identity : Identity) (single : Bool) (q : Query) : Except Failure Plan := do
  let clause := (q.filter.map Predicate.toValue).getD .null
  let filter ← filterStages identity clause
  let lookups ← (q.join.getD []).mapM fun (field, target) =>
    lookupStage identity q.joinConditions field target
  let aliases ← aliasFields identity q.aliases
  let projection ← projection identity (.tuple (q.select.getD []))
  let sort := sortKeys identity (q.sort.getD [])
  let total ← counting identity clause
  return {
    stages := filter ++ lookups ++ unlessEmpty .addFields aliases
      ++ unlessEmpty .project projection ++ unlessEmpty .sort sort
      ++ pageStages single q.skip q.limit
    total }

end Plan
end Docbase
