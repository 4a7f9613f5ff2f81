import Docbase.Filter
import Docbase.Pipeline.Expression
import Docbase.Sorting

/-!
# Running pipelines

A pipeline is a list of stages, each a document with one field: the name of the stage and what it
is asked to do. The drafts that come out of a stage go into the next one. A stage is looked at only
when its turn comes, so faults in it show after those of the stages before.
-/

namespace Docbase.Pipeline

/-! ## Stages that work on one draft -/

/-- Writes what the fields lead to, in order. Every write is also carried out in the parts that
have not been written yet. -/
def assign : List (String × Node) → List Write → List (String × Node) →
    Marking (List (String × Node))
  | [], _, fields => return fields
  | (path, node) :: rest, earlier, fields => do
    let node := earlier.foldl (fun node w => w.carryOut node) node
    match ← Write.assigning path node fields with
    | some w => assign rest (earlier ++ [w]) (w.carryOutRoot fields)
    | none => assign rest earlier fields

def addFields (spec : Value) (d : Draft) : Except Failure Draft :=
  match spec with
  | .doc expressions => do
    let (parts, next) ← (Expression.evaluateFields (.doc 0 d.fields) expressions).run d.next
    let (fields, next) := (assign parts [] d.fields).run next
    return { next, fields }
  | _ => .error (.misuse .noSuchPart)

def isInclusion : Value → Bool
  | .bool b => b
  | .int _ | .double _ => true
  | _ => false

def included (source : List (String × Node)) (path : String) (flag : Value) :
    Expression.Computation Node :=
  if isInclusion flag then Expression.read (.doc 0 source) path
  else Expression.evaluate (.doc 0 source) flag

/-- Adds the fields of a projection to a result, in order. A write into a part that the result
shares with its source is carried out in both. -/
def gather : Document → List (String × Node) → List (String × Node) →
    Expression.Computation (List (String × Node))
  | [], _, result => return result
  | (path, flag) :: rest, source, result => do
    if flag.isExclusion then throw (.exclusionAmongInclusions path)
    let node ← included source path flag
    if node.isAbsent then gather rest source result
    else
      let w ← fun next => .ok ((Write.placing node 0 (Path.parts path) result).run next)
      gather rest (w.carryOutFields source) (w.carryOutRoot result)

/-- The fields of a projection other than the identifier, which is kept unless it is excluded. If
all the others are excluded, what is left is kept, or else only what is included or computed. -/
def project (spec : Value) (d : Draft) : Except Failure Draft :=
  match spec with
  | .doc projection => do
    let flags := projection.filter fun field => field.1 != "_id"
    let keepsIdentifier := !(((projection.lookup "_id").getD (.int 1)).isExclusion)
    if flags.all fun field => field.2.isExclusion then
      let rest := flags.foldl (fun d field => d.unset field.1) d
      return if keepsIdentifier then rest
        else { rest with fields := Fields.erase "_id" rest.fields }
    else
      let identifier := if keepsIdentifier then d.fields.filter fun field => field.1 == "_id"
        else []
      let (fields, next) ← (gather flags d.fields identifier).run d.next
      return { next, fields }
  | _ => .error (.misuse .noSuchPart)

/-! ## Stages that work on all drafts -/

/-- Which of two drafts comes first by the keys of a sort; a direction below zero, or one that is no
number at all, turns the order of its key around. -/
def compareBy : Document → Draft → Draft → Except Failure Ordering
  | [], _, _ => return .eq
  | (path, direction) :: rest, a, b => do
    let left ← a.get path
    let right ← b.get path
    match left.value.compare right.value with
    | .eq => compareBy rest a b
    | o =>
      match Value.order? direction (.int 0) with
      | some sign => return if sign == .lt || direction.isNaN then o.swap else o
      | none => throw (.misuse .wrongType)

def sort (spec : Value) (drafts : List Draft) : Except Failure (List Draft) :=
  Sorting.sortM (fun a b => do
    match spec with
    | .doc keys => return (← compareBy keys a b) == .lt
    | _ => throw (.misuse .noSuchPart)) drafts

/-- The position that a bound of a cut stands for; one below zero counts from the end. -/
def position (length : Nat) (n : Int) : Nat :=
  if 0 ≤ n then n.toNat else (length + n).toNat

def bound : Value → Except Failure (Option Int)
  | .null => .ok none
  | v =>
    match v.index? with
    | some n => .ok (some n)
    | none => .error (.misuse .wrongType)

def skip (spec : Value) (drafts : List Draft) : Except Failure (List Draft) := do
  match ← bound spec with
  | some n => return drafts.drop (position drafts.length n)
  | none => return drafts

def limit (spec : Value) (drafts : List Draft) : Except Failure (List Draft) := do
  match ← bound spec with
  | some n => return drafts.take (position drafts.length n)
  | none => return drafts

def count (spec : Value) (drafts : List Draft) : Except Failure (List Draft) :=
  if drafts.isEmpty then .ok []
  else if spec.hashable then .ok [.ofDocument [(spec.text, .int drafts.length)]]
  else .error (.misuse .wrongType)

/-! ## Lookups -/

def isReferred (localValue foreignValue : Value) : Bool :=
  match localValue with
  | .list items => items.any fun item => Filter.isEqual foreignValue item
  | .missing => Filter.isEqual foreignValue .null
  | v => Filter.isEqual foreignValue v

def required (fields : Document) (key : String) : Except Failure Value :=
  match fields.lookup key with
  | some v => .ok v
  | none => .error (.misuse .missingField)

def documentsOf (foreign : String → List Document) : Value → Except Failure (List Document)
  | .str name => .ok (foreign name)
  | v => if v.hashable then .ok [] else .error (.misuse .wrongType)

def referred (foreign : String → List Document) (fields : Document) (d : Draft) :
    Except Failure (List Draft) := do
  let documents ← documentsOf foreign (← required fields "from")
  let localPath ← (← required fields "localField").path
  let localValue ← d.get localPath
  let foreignField ← required fields "foreignField"
  let found ← documents.filterM fun document => do
    let foreignPath ← foreignField.path
    let foreignValue ← (Value.doc document).get foreignPath
    return isReferred localValue.value foreignValue
  return found.map .ofDocument

def place (fields : Document) (found : List Draft) (d : Draft) : Except Failure Draft := do
  let path ← (← required fields "as").path
  return d.setDrafts path found

/-! ## Pipelines -/

def stageFault (stage : Value) : Failure :=
  match stage.length? with
  | none => .misuse .wrongType
  | some 1 => .misuse .noSuchPart
  | some _ => .stageKeys stage

/-- A pipeline that is some other container than a list: it has no stages, or no valid ones. -/
def runElements (pipeline : Value) (drafts : List Draft) : Except Failure (List Draft) :=
  match pipeline.elements? with
  | none => .error (.misuse .wrongType)
  | some [] => .ok drafts
  | some (stage :: _) => .error (stageFault stage)

mutual

def runStages (foreign : String → List Document) :
    List Value → List Draft → Except Failure (List Draft)
  | [], drafts => .ok drafts
  | stage :: rest, drafts => do runStages foreign rest (← runStage foreign stage drafts)
termination_by structural stages => stages

def runStage (foreign : String → List Document) :
    Value → List Draft → Except Failure (List Draft)
  | .doc [(name, spec)], drafts =>
    match name with
    | "$match" => drafts.filterM fun d => Filter.holds d.value spec
    | "$lookup" =>
      match spec with
      | .doc fields => drafts.mapM fun d => do
        place fields (← runInner foreign fields (← referred foreign fields d)) d
      | _ => if drafts.isEmpty then .ok [] else .error (.misuse .wrongType)
    | "$addFields" => drafts.mapM (addFields spec)
    | "$project" => drafts.mapM (project spec)
    | "$sort" => sort spec drafts
    | "$skip" => skip spec drafts
    | "$limit" => limit spec drafts
    | "$count" => count spec drafts
    | name => .error (.unsupportedStage name)
  | stage, _ => .error (stageFault stage)
termination_by structural stage => stage

def runInner (foreign : String → List Document) :
    List (String × Value) → List Draft → Except Failure (List Draft)
  | [], drafts => .ok drafts
  | (key, pipeline) :: rest, drafts =>
    if key = "pipeline" then
      match pipeline with
      | .list stages | .tuple stages => runStages foreign stages drafts
      | pipeline => if pipeline.truthy then runElements pipeline drafts else .ok drafts
    else runInner foreign rest drafts
termination_by structural fields => fields

end

def runValue (foreign : String → List Document) (pipeline : Value) (drafts : List Draft) :
    Except Failure (List Draft) :=
  match pipeline with
  | .list stages | .tuple stages => runStages foreign stages drafts
  | pipeline => runElements pipeline drafts

def run (foreign : String → List Document) (documents : List Document) (pipeline : Value) :
    Except Failure (List Document) := do
  let results ← runValue foreign pipeline (documents.map Draft.ofDocument)
  return results.map Draft.document

end Docbase.Pipeline
