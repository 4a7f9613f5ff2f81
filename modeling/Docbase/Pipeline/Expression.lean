import Docbase.Failure
import Docbase.Pipeline.Draft
import Docbase.Value.Text

/-!
# Expressions

What the fields that a pipeline computes are computed from. A text that starts with `$` names a
path, `$toString` takes the text of a value, `$literal` stands for its operand, and a document of
expressions is computed field by field. Everything else stands for itself.
-/

namespace Docbase.Expression

/-- A computation on a draft, which takes marks for the documents it makes. -/
abbrev Computation := StateT Nat (Except Failure)

def literal (v : Value) : Computation Node := fun next => .ok ((Node.ofValue v).run next)

def read (root : Node) (path : String) : Computation Node :=
  match Node.follow (Path.parts path) root with
  | .ok node => return node
  | .error m => throw (.misuse m)

def path? (s : String) : Option String :=
  match s.toList with
  | '$' :: path => some (String.ofList path)
  | _ => none

def textOf (node : Node) : Node :=
  match node.value with
  | .null | .missing => .leaf .null
  | v => .leaf (.str v.text)

mutual

def evaluate (root : Node) : Value → Computation Node
  | .str s =>
    match path? s with
    | some path => read root path
    | none => return .leaf (.str s)
  | .doc [(key, operand)] =>
    if key = "$toString" then textOf <$> evaluate root operand
    else if key = "$literal" then literal operand
    else if (path? key).isSome then throw (.unsupportedExpression key)
    else do
      let mark ← modifyGet fun next => (next, next + 1)
      return .doc mark [(key, ← evaluate root operand)]
  | .doc expressions => do
    let mark ← modifyGet fun next => (next, next + 1)
    return .doc mark (← evaluateFields root expressions)
  | v => literal v
termination_by structural expression => expression

def evaluateFields (root : Node) :
    List (String × Value) → Computation (List (String × Node))
  | [] => return []
  | (key, expression) :: rest => do
    let node ← evaluate root expression
    return (key, node) :: (← evaluateFields root rest)
termination_by structural expressions => expressions

end

def valueOf (expression document : Value) : Except Failure Value := do
  let (root, next) := (Node.ofValue document).run 1
  let (node, _) ← (evaluate root expression).run next
  return node.value

end Docbase.Expression
