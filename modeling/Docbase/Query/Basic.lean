import Docbase.Value.Text

/-!
# Queries

A query says what a read returns: which documents, which of their fields, joined with what, in
which order and which page of them.
-/

namespace Docbase

inductive Junction
  | any
  | all
  deriving DecidableEq, Repr

/-- A condition on documents. The members of a junction are kept as they were given. -/
inductive Predicate
  | flat (conditions : Document)
  | junction (kind : Junction) (members : List Value)

inductive SortDirection
  | ascending
  | descending
  deriving DecidableEq, Repr

/-- The target of a join: the collection that identifiers are looked up in, and the fields of its
documents to keep beside the identifier. -/
structure JoinTarget where
  collection : Value
  select : Option (List Value) := none

structure Query where
  filter : Option Predicate := none
  /-- The fields to keep; all of them if absent. -/
  select : Option (List Value) := none
  join : Option (List (String × JoinTarget)) := none
  joinConditions : Value := .null
  /-- The size of a page; none if absent or not positive. -/
  limit : Option Int := none
  skip : Option Int := none
  sort : Option (List (String × SortDirection)) := none
  aliases : Value := .null

/-- A query as a caller hands it over: put together already, or as plain data. -/
inductive QueryInput
  | built (q : Query)
  | data (v : Value)

namespace Junction

def key : Junction → String
  | any => "or"
  | all => "and"

def operator : Junction → String
  | any => "$or"
  | all => "$and"

def name : Junction → String
  | any => "Or"
  | all => "And"

end Junction

namespace Predicate

def toValue : Predicate → Value
  | flat conditions => .flat conditions
  | junction .any members => .anyOf members
  | junction .all members => .allOf members

end Predicate

namespace SortDirection

def word : SortDirection → String
  | ascending => "asc"
  | descending => "desc"

def sign : SortDirection → Int
  | ascending => 1
  | descending => -1

def ofValue? : Value → Option SortDirection
  | .str "asc" => some ascending
  | .str "desc" => some descending
  | _ => none

def shown (d : SortDirection) : String :=
  let name := match d with
    | ascending => "ASC"
    | descending => "DESC"
  "<SortOrder." ++ name ++ ": " ++ Text.quoted d.word ++ ">"

end SortDirection

namespace JoinTarget

def toValue (t : JoinTarget) : Value :=
  .joinTo t.collection (match t.select with
    | some fields => .tuple fields
    | none => .null)

end JoinTarget

namespace Query

def shown (q : Query) : String :=
  let number (n : Option Int) : String := (n.map toString).getD "None"
  let select := match q.select with
    | some fields => Value.shown (.tuple fields)
    | none => "None"
  let join := match q.join with
    | some targets => Value.shown (.doc (targets.map fun (field, t) => (field, t.toValue)))
    | none => "None"
  let sort := match q.sort with
    | some keys => Value.braced (keys.map fun (field, d) => Text.quoted field ++ ": " ++ d.shown)
    | none => "None"
  "Query(where=" ++ ((q.filter.map Predicate.toValue).getD .null).shown
    ++ ", select=" ++ select
    ++ ", join=" ++ join
    ++ ", join_conditions=" ++ q.joinConditions.shown
    ++ ", limit=" ++ number q.limit
    ++ ", skip=" ++ number q.skip
    ++ ", sort=" ++ sort
    ++ ", aliases=" ++ q.aliases.shown ++ ")"

end Query

namespace QueryInput

def shown : QueryInput → String
  | built q => q.shown
  | data v => v.shown

end QueryInput
end Docbase
