import Docbase.Failure
import Docbase.Path
import Docbase.Value.Order

/-!
# Filters

A filter is a document that other documents can satisfy. Each of its fields is a path with a
condition on what the path leads to, or a connective with a list of filters; all of them have to
hold. A condition is a value to be equal to, a pattern to be matched, or a document of operators.
A list meets a condition if the list itself or one of its items does.

Conditions are tested in order and only as far as needed, so a failure in one that is not reached
does not show.
-/

namespace Docbase.Filter

/-! ## Conditions on one value -/

def candidates : Value → List Value
  | .list items => .list items :: items
  | v => [v]

/-- Whether a value is as expected: null expects an absent or null value, anything else a value of
the same rank and place in the order. -/
def isEqual (v expected : Value) : Bool :=
  match expected with
  | .null =>
    match v with
    | .null | .missing => true
    | .list items => items.any Value.isNull
    | _ => false
  | _ => (candidates v).any fun c => c.rank == expected.rank && c.compare expected == .eq

inductive Comparison
  | above
  | atLeast
  | below
  | atMost
  deriving DecidableEq, Repr

namespace Comparison

def accepts : Comparison → Ordering → Bool
  | above, o => o == .gt
  | atLeast, o => o != .lt
  | below, o => o == .lt
  | atMost, o => o != .gt

end Comparison

def isWithin (comparison : Comparison) (v bound : Value) : Bool :=
  (candidates v).any fun c =>
    !c.isMissing && c.rank == bound.rank && comparison.accepts (c.compare bound)

def isMatch (p : Pattern) : Value → Bool
  | .str s => p.occursIn s
  | _ => false

def patternFlags (options : Value) : Except Misuse PatternFlags := do
  let has (letter : String) := (Value.str letter).foundIn options
  return { ignoreCase := ← has "i", multiLine := ← has "m", dotAll := ← has "s",
           verbose := ← has "x" }

/-- The pattern that a value stands for; the options do not apply to one that is compiled. -/
def pattern (v options : Value) : Except Failure Pattern :=
  match v with
  | .pattern p => .ok p
  | v => do
    let flags ← patternFlags options
    match v with
    | .str source =>
      match Pattern.compile? source flags with
      | some p => .ok p
      | none => .error (.misuse .badPattern)
    | v => .error (.notAPattern v)

/-! ## Operators -/

def isOperator (key : String) : Bool := key.toList.head? == some '$'

def isOperators (fields : Document) : Bool :=
  !fields.isEmpty && fields.all fun field => isOperator field.1

inductive Operator
  | options
  | equal
  | unequal
  | compare (comparison : Comparison)
  | among
  | notAmong
  | present
  | regex
  | all
  | element
  | size
  | not
  deriving DecidableEq, Repr

namespace Operator

def ofKey? : String → Option Operator
  | "$options" => some options
  | "$eq" => some equal
  | "$ne" => some unequal
  | "$gt" => some (compare .above)
  | "$gte" => some (compare .atLeast)
  | "$lt" => some (compare .below)
  | "$lte" => some (compare .atMost)
  | "$in" => some among
  | "$nin" => some notAmong
  | "$exists" => some present
  | "$regex" => some regex
  | "$all" => some all
  | "$elemMatch" => some element
  | "$size" => some size
  | "$not" => some not
  | _ => none

end Operator

inductive Connective
  | and
  | or
  | nor
  deriving DecidableEq, Repr

namespace Connective

def ofKey? : String → Option Connective
  | "$and" => some and
  | "$or" => some or
  | "$nor" => some nor
  | _ => none

end Connective

def elements (v : Value) : Except Failure (List Value) :=
  match v.elements? with
  | some items => .ok items
  | none => .error (.misuse .wrongType)

def holdsPlain (filter : Value) : Except Failure Bool :=
  if filter.truthy then .error (.misuse .noSuchPart) else .ok true

mutual

def holds (d : Value) : Value → Except Failure Bool
  | .doc fields => holdsFields d fields
  | filter => holdsPlain filter
termination_by structural filter => filter

def holdsFields (d : Value) : List (String × Value) → Except Failure Bool
  | [] => .ok true
  | (key, condition) :: rest => do
    let held ← (match Connective.ofKey? key, condition with
      | some .and, .list filters | some .and, .tuple filters => holdsEvery d filters
      | some .and, v => do (← elements v).allM holdsPlain
      | some .or, .list filters | some .or, .tuple filters => holdsSome d filters
      | some .or, v => do (← elements v).anyM holdsPlain
      | some .nor, .list filters | some .nor, .tuple filters => Bool.not <$> holdsSome d filters
      | some .nor, v => do return !(← (← elements v).anyM holdsPlain)
      | none, condition =>
        if isOperator key then .error (.unsupportedFilter key)
        else do meets (← d.get key) condition)
    if held then holdsFields d rest else return false
termination_by structural fields => fields

def holdsEvery (d : Value) : List Value → Except Failure Bool
  | [] => .ok true
  | filter :: rest => do if ← holds d filter then holdsEvery d rest else return false
termination_by structural filters => filters

def holdsSome (d : Value) : List Value → Except Failure Bool
  | [] => .ok false
  | filter :: rest => do if ← holds d filter then return true else holdsSome d rest
termination_by structural filters => filters

def meets (v : Value) : Value → Except Failure Bool
  | .doc fields =>
    if isOperators fields then meetsOperators v (fields.lookup "$options") fields
    else .ok (isEqual v (.doc fields))
  | .pattern p => .ok ((candidates v).any (isMatch p))
  | expected => .ok (isEqual v expected)
termination_by structural condition => condition

def meetsOperators (v : Value) (options : Option Value) :
    List (String × Value) → Except Failure Bool
  | [] => .ok true
  | (key, operand) :: rest => do
    let met ← (match Operator.ofKey? key with
      | none => .error (.unsupportedOperator key)
      | some .options => .ok true
      | some .equal => .ok (isEqual v operand)
      | some .unequal => .ok (!isEqual v operand)
      | some (.compare comparison) => .ok (isWithin comparison v operand)
      | some .among =>
        match operand with
        | .list conditions | .tuple conditions => meetsSome v conditions
        | operand => do return (← elements operand).any (isEqual v)
      | some .notAmong =>
        match operand with
        | .list conditions | .tuple conditions => Bool.not <$> meetsSome v conditions
        | operand => do return !(← elements operand).any (isEqual v)
      | some .present => .ok (!v.isMissing == operand.truthy)
      | some .regex => do
        let p ← pattern operand (options.getD (.str ""))
        return (candidates v).any (isMatch p)
      | some .all =>
        match v with
        | .list _ => do return (← elements operand).all (isEqual v)
        | _ => .ok false
      | some .element =>
        match v with
        | .list items =>
          match operand with
          | .doc fields =>
            if isOperators fields then
              items.anyM fun item => meetsOperators item (fields.lookup "$options") fields
            else items.anyM fun item =>
              match item with
              | .doc _ => holdsFields item fields
              | _ => .ok false
          | operand => items.anyM fun item =>
            match item with
            | .doc _ => holdsPlain operand
            | _ => .ok false
        | _ => .ok false
      | some .size =>
        match v with
        | .list items => .ok (Value.equals (.int items.length) operand)
        | _ => .ok false
      | some .not => Bool.not <$> meets v operand)
    if met then meetsOperators v options rest else return false
termination_by structural operators => operators

def meetsSome (v : Value) : List Value → Except Failure Bool
  | [] => .ok false
  | condition :: rest => do if ← meets v condition then return true else meetsSome v rest
termination_by structural conditions => conditions

end

def select (filter : Value) (docs : List Document) : Except Failure (List Document) :=
  docs.filterM fun d => holds (.doc d) filter

end Docbase.Filter
