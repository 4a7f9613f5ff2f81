import Docbase.Failure

/-!
# Where clauses

A where clause is null, a document, or a predicate. A document whose only field is `or` or `and`
is a junction of the clauses in its list; any other one without these keys is a flat predicate.
-/

namespace Docbase

namespace Junction

def ofKey? (key : String) : Option Junction :=
  if key = any.key then some any else if key = all.key then some all else none

end Junction

namespace Predicate

def ofConditions (conditions : Document) : Except QueryFault Predicate :=
  let mixed := [Junction.any.key, Junction.all.key].filter fun key => Fields.has key conditions
  if mixed.isEmpty then .ok (.flat conditions) else .error (.mixedKeys mixed)

def ofMembers (kind : Junction) (members : List Value) : Except QueryFault Predicate :=
  if members.isEmpty then .error (.emptyJunction kind) else .ok (.junction kind members)

end Predicate

namespace Where

def sortedKeys (fields : Document) : List String := (Fields.keys fields).mergeSort (· ≤ ·)

mutual

def read : Value → Except QueryFault (Option Predicate)
  | .null => .ok none
  | .flat conditions => .ok (some (.flat conditions))
  | .anyOf members => .ok (some (.junction .any members))
  | .allOf members => .ok (some (.junction .all members))
  | .doc [(key, v)] =>
    match Junction.ofKey? key with
    | none => .ok (some (.flat [(key, v)]))
    | some kind =>
      match v with
      | .list [] | .tuple [] => .error (.noMembers kind)
      | .list items | .tuple items => do return some (.junction kind (← readAll items))
      | _ => .error (.membersNotList kind)
  | .doc fields =>
    if fields.any fun field => (Junction.ofKey? field.1).isSome then
      .error (.extraKeys (sortedKeys fields))
    else .ok (some (.flat fields))
  | v => .error (.notMapping v.typeName)
termination_by structural clause => clause

def readAll : List Value → Except QueryFault (List Value)
  | [] => .ok []
  | clause :: rest => do
    let predicate ← read clause
    return (predicate.map Predicate.toValue).getD .null :: (← readAll rest)
termination_by structural clauses => clauses

end

mutual

/-- The filter of a clause that `read` accepts. The members of a predicate have not been read
before, those of a document have. -/
def filterOf : Value → Except QueryFault Document
  | .null => .ok []
  | .flat conditions => .ok conditions
  | .anyOf members => do return [(Junction.any.operator, .list (← readFiltersOf members))]
  | .allOf members => do return [(Junction.all.operator, .list (← readFiltersOf members))]
  | .doc [(key, v)] =>
    match Junction.ofKey? key with
    | none => .ok [(key, v)]
    | some kind =>
      match v with
      | .list items | .tuple items => do return [(kind.operator, .list (← filtersOf items))]
      | _ => .error (.membersNotList kind)
  | .doc fields => .ok fields
  | v => .error (.notMapping v.typeName)
termination_by structural clause => clause

def filtersOf : List Value → Except QueryFault (List Value)
  | [] => .ok []
  | clause :: rest => do
    let filter ← filterOf clause
    return .doc filter :: (← filtersOf rest)
termination_by structural clauses => clauses

def readFiltersOf : List Value → Except QueryFault (List Value)
  | [] => .ok []
  | clause :: rest => do
    let _ ← read clause
    let filter ← filterOf clause
    return .doc filter :: (← readFiltersOf rest)
termination_by structural clauses => clauses

end

def toFilter (clause : Value) : Except QueryFault Document := do
  let _ ← read clause
  filterOf clause

end Where
end Docbase
