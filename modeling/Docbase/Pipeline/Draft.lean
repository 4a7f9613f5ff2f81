import Docbase.Path

/-!
# Drafts

A draft is a document on its way through a pipeline. Computed fields do not copy the documents that
they name, so two parts of a draft can be one and the same document. Every document inside a draft
has a mark, and parts that are one document have the same one: a write into a document reaches all
the parts with its mark. The draft itself has mark zero, which no part of it has. A draft is finite:
what is written into a document that it holds goes in as it stands, and the document does not come to
hold itself.
-/

namespace Docbase

inductive Node
  /-- A value without documents that a path could reach. -/
  | leaf (v : Value)
  | list (items : List Node)
  | doc (mark : Nat) (fields : List (String × Node))
  deriving Inhabited

abbrev Marking := StateM Nat

namespace Marking

def fresh : Marking Nat := modifyGet fun next => (next, next + 1)

end Marking

namespace Node

mutual

def ofValue : Value → Marking Node
  | .list items => do return .list (← ofItems items)
  | .doc fields => do
    let mark ← Marking.fresh
    return .doc mark (← ofFields fields)
  | v => return .leaf v
termination_by structural v => v

def ofItems : List Value → Marking (List Node)
  | [] => return []
  | v :: rest => do
    let node ← ofValue v
    return node :: (← ofItems rest)
termination_by structural items => items

def ofFields : List (String × Value) → Marking (List (String × Node))
  | [] => return []
  | (key, v) :: rest => do
    let node ← ofValue v
    return (key, node) :: (← ofFields rest)
termination_by structural fields => fields

end

mutual

def value : Node → Value
  | leaf v => v
  | list items => .list (values items)
  | doc _ fields => .doc (fieldValues fields)

def values : List Node → List Value
  | [] => []
  | node :: rest => value node :: values rest

def fieldValues : List (String × Node) → List (String × Value)
  | [] => []
  | (key, node) :: rest => (key, value node) :: fieldValues rest

end

mutual

def shift (offset : Nat) : Node → Node
  | leaf v => leaf v
  | list items => list (shiftItems offset items)
  | doc mark fields => doc (offset + mark) (shiftFields offset fields)

def shiftItems (offset : Nat) : List Node → List Node
  | [] => []
  | node :: rest => shift offset node :: shiftItems offset rest

def shiftFields (offset : Nat) : List (String × Node) → List (String × Node)
  | [] => []
  | (key, node) :: rest => (key, shift offset node) :: shiftFields offset rest

end

def absent : Node := leaf .missing

def isAbsent : Node → Bool
  | leaf .missing => true
  | _ => false

def step (node : Node) (part : String) : Except Misuse Node :=
  match node with
  | doc _ fields => .ok ((fields.lookup part).getD absent)
  | list items =>
    if Path.isPosition part then
      match Text.digitsValue? 0 false part.toList with
      | some n => .ok (items[n]?.getD absent)
      | none => .error .badValue
    else .ok absent
  | leaf _ => .ok absent

def follow : List String → Node → Except Misuse Node
  | [], node => .ok node
  | part :: rest, node => do follow rest (← node.step part)

end Node

/-- A write to one field of the document with a mark: its new content, or none to remove it. -/
structure Write where
  owner : Nat
  key : String
  content : Option Node

namespace Write

def apply (w : Write) (fields : List (String × Node)) : List (String × Node) :=
  match w.content with
  | some node => Fields.set w.key node fields
  | none => Fields.erase w.key fields

mutual

/-- Carries out a write wherever its owner is found in a part. -/
def carryOut (w : Write) : Node → Node
  | .leaf v => .leaf v
  | .list items => .list (carryOutItems w items)
  | .doc mark fields =>
    .doc mark
      (if mark = w.owner then w.apply (carryOutFields w fields) else carryOutFields w fields)

def carryOutItems (w : Write) : List Node → List Node
  | [] => []
  | node :: rest => carryOut w node :: carryOutItems w rest

def carryOutFields (w : Write) : List (String × Node) → List (String × Node)
  | [] => []
  | (key, node) :: rest => (key, carryOut w node) :: carryOutFields w rest

end

def carryOutRoot (w : Write) (fields : List (String × Node)) : List (String × Node) :=
  if w.owner = 0 then w.apply (w.carryOutFields fields) else w.carryOutFields fields

def nest : List String → Node → Marking Node
  | [], node => return node
  | key :: rest, node => do
    let mark ← Marking.fresh
    let inner ← nest rest node
    return .doc mark [(key, inner)]

/-- The write that puts content at the parts of a path: into the last document that there is on the
way, with new ones for the rest of the path. -/
def placing (content : Node) (owner : Nat) :
    List String → List (String × Node) → Marking Write
  | [], _ => return { owner, key := "", content := some content }
  | [key], _ => return { owner, key, content := some content }
  | key :: rest, fields =>
    match fields.lookup key with
    | some (.doc mark inner) => placing content mark rest inner
    | _ => do return { owner, key, content := some (← nest rest content) }

def removing (owner : Nat) : List String → List (String × Node) → Option Write
  | [], _ => none
  | [key], _ => some { owner, key, content := none }
  | key :: rest, fields =>
    match fields.lookup key with
    | some (.doc mark inner) => removing mark rest inner
    | _ => none

/-- The write that makes a path lead to some content, if there is anything to do. Absent content
is removed. -/
def assigning (path : String) (content : Node) (fields : List (String × Node)) :
    Marking (Option Write) :=
  if content.isAbsent then return removing 0 (Path.parts path) fields
  else do return some (← placing content 0 (Path.parts path) fields)

end Write

structure Draft where
  /-- A mark above all marks in use. -/
  next : Nat
  fields : List (String × Node)
  deriving Inhabited

namespace Draft

def ofDocument (d : Document) : Draft :=
  let (fields, next) := (Node.ofFields d).run 1
  { next, fields }

def document (d : Draft) : Document := Node.fieldValues d.fields

def value (d : Draft) : Value := .doc d.document

/-- The draft as a part of another one whose next free mark is the offset. -/
def graft (offset : Nat) (d : Draft) : Node := .doc offset (Node.shiftFields offset d.fields)

def get (d : Draft) (path : String) : Except Misuse Node :=
  Node.follow (Path.parts path) (.doc 0 d.fields)

def set (d : Draft) (path : String) (content : Node) : Draft :=
  let (w, next) := (Write.placing content 0 (Path.parts path) d.fields).run d.next
  { next, fields := w.carryOutRoot d.fields }

def unset (d : Draft) (path : String) : Draft :=
  match Write.removing 0 (Path.parts path) d.fields with
  | some w => { d with fields := w.carryOutRoot d.fields }
  | none => d

def setDrafts (d : Draft) (path : String) (items : List Draft) : Draft :=
  let (nodes, next) := items.foldl
    (fun (nodes, next) item => (nodes ++ [item.graft next], next + item.next)) ([], d.next)
  { d with next }.set path (.list nodes)

end Draft
end Docbase
