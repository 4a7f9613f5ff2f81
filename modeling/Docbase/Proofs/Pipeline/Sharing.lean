import Docbase.Proofs.Pipeline.Draft

/-!
# Documents that drafts share

A write reaches every part with the mark of the document that it is meant for. What a path leads to
after a write is told from what it led to before: the content of the write, if the path goes through
its field, and else the same part with the write carried out in it.
-/

namespace Docbase
namespace Node

variable {P Q : Nat → List (String × Node) → Prop} {node found : Node}
  {fields : List (String × Node)} {parts rest : List String} {key : String} {m : Nat}

/-! ## All documents of a part -/

mutual

def Each (P : Nat → List (String × Node) → Prop) : Node → Prop
  | leaf _ => True
  | list items => EachItem P items
  | doc mark fields => P mark fields ∧ EachField P fields

def EachItem (P : Nat → List (String × Node) → Prop) : List Node → Prop
  | [] => True
  | node :: rest => Each P node ∧ EachItem P rest

def EachField (P : Nat → List (String × Node) → Prop) : List (String × Node) → Prop
  | [] => True
  | (_, node) :: rest => Each P node ∧ EachField P rest

end

theorem eachItem_iff {items : List Node} : EachItem P items ↔ ∀ node ∈ items, Each P node := by
  induction items with
  | nil => simp [EachItem]
  | cons node rest ih => rw [EachItem, ih, List.forall_mem_cons]

theorem eachField_iff : EachField P fields ↔ ∀ field ∈ fields, Each P field.2 := by
  induction fields with
  | nil => simp [EachField]
  | cons field rest ih =>
    obtain ⟨key, node⟩ := field
    rw [EachField, ih, List.forall_mem_cons]

mutual

theorem Each.imp (h : ∀ m fields, P m fields → Q m fields) : ∀ {node : Node}, Each P node →
    Each Q node
  | leaf _, _ => trivial
  | list _, each => EachItem.imp h each
  | doc m fields, each => ⟨h m fields each.1, EachField.imp h each.2⟩

theorem EachItem.imp (h : ∀ m fields, P m fields → Q m fields) : ∀ {items : List Node},
    EachItem P items → EachItem Q items
  | [], _ => trivial
  | _ :: _, each => ⟨Each.imp h each.1, EachItem.imp h each.2⟩

theorem EachField.imp (h : ∀ m fields, P m fields → Q m fields) :
    ∀ {fields : List (String × Node)}, EachField P fields → EachField Q fields
  | [], _ => trivial
  | (_, _) :: _, each => ⟨Each.imp h each.1, EachField.imp h each.2⟩

end

mutual

theorem Each.and : ∀ {node : Node}, Each P node → Each Q node →
    Each (fun m fields => P m fields ∧ Q m fields) node
  | leaf _, _, _ => trivial
  | list _, each, each' => EachItem.and each each'
  | doc _ _, each, each' => ⟨⟨each.1, each'.1⟩, EachField.and each.2 each'.2⟩

theorem EachItem.and : ∀ {items : List Node}, EachItem P items → EachItem Q items →
    EachItem (fun m fields => P m fields ∧ Q m fields) items
  | [], _, _ => trivial
  | _ :: _, each, each' => ⟨Each.and each.1 each'.1, EachItem.and each.2 each'.2⟩

theorem EachField.and : ∀ {fields : List (String × Node)}, EachField P fields →
    EachField Q fields → EachField (fun m fields => P m fields ∧ Q m fields) fields
  | [], _, _ => trivial
  | (_, _) :: _, each, each' => ⟨Each.and each.1 each'.1, EachField.and each.2 each'.2⟩

end

theorem EachField.getD (each : EachField P fields) (key : String) :
    Each P ((fields.lookup key).getD absent) := by
  cases found : fields.lookup key with
  | none => trivial
  | some node => exact eachField_iff.1 each _ (Fields.mem_of_lookup found)

theorem Each.step (each : Each P node) {part : String} (h : node.step part = .ok found) :
    Each P found := by
  cases node with
  | leaf v =>
    obtain rfl := Except.ok.inj h
    trivial
  | list items =>
    rw [Node.step] at h
    split at h
    · split at h
      · obtain rfl := Except.ok.inj h
        rename_i n _
        cases there : items[n]? with
        | none => trivial
        | some item => exact eachItem_iff.1 each item (List.mem_of_getElem? there)
      · cases h
    · obtain rfl := Except.ok.inj h
      trivial
  | doc mark fields =>
    obtain rfl := Except.ok.inj h
    exact each.2.getD part

theorem Each.follow (each : Each P node) (h : Node.follow parts node = .ok found) :
    Each P found := by
  induction parts generalizing node with
  | nil =>
    obtain rfl := Except.ok.inj h
    exact each
  | cons part rest ih =>
    obtain ⟨next, here, h⟩ := Except.bind_eq_ok.1 h
    exact ih (each.step here) h

/-- The document with a mark of a range, and its fields on a heap. -/
structure On (heap : Nat → List (String × Node)) (low high m : Nat)
    (fields : List (String × Node)) : Prop where
  ge : low ≤ m
  lt : m < high
  eq : heap m = fields

def joined (mid : Nat) (first second : Nat → List (String × Node)) (m : Nat) :
    List (String × Node) := if m < mid then first m else second m

section
variable {low mid high : Nat} {first second : Nat → List (String × Node)}

theorem On.below (h : On first low mid m fields) (le : mid ≤ high) :
    On (joined mid first second) low high m fields :=
  ⟨h.ge, Nat.lt_of_lt_of_le h.lt le, by rw [joined, if_pos h.lt, h.eq]⟩

theorem On.above (h : On second mid high m fields) (le : low ≤ mid) :
    On (joined mid first second) low high m fields :=
  ⟨Nat.le_trans le h.ge, h.lt, by rw [joined, if_neg (Nat.not_lt.2 h.ge), h.eq]⟩

end

mutual

/-- The documents inside a value get marks of their own. -/
theorem exists_heap : ∀ (v : Value) (n : Nat), n ≤ (ofValue v n).2 ∧
    ∃ heap, Each (On heap n (ofValue v n).2) (ofValue v n).1
  | .list items, n => exists_heap_items items n
  | .doc fields, n => by
    obtain ⟨le, heap, each⟩ := exists_heap_fields fields (n + 1)
    refine ⟨Nat.le_of_succ_le le, joined (n + 1) (fun _ => (ofFields fields (n + 1)).1) heap, ?_⟩
    constructor
    · have self : On (fun _ => (ofFields fields (n + 1)).1) n (n + 1) n
        (ofFields fields (n + 1)).1 := ⟨Nat.le_refl n, Nat.lt_succ_self n, rfl⟩
      exact self.below le
    · exact each.imp fun m fields on => on.above (Nat.le_succ n)
  | .null, n | .missing, n | .bool _, n | .int _, n | .double _, n | .str _, n | .bytes _, n
  | .timestamp _, n | .objectId _, n | .pattern _, n | .tuple _, n | .flat _, n | .anyOf _, n
  | .allOf _, n | .joinTo _ _, n => ⟨Nat.le_refl n, fun _ => [], trivial⟩
termination_by structural v => v

theorem exists_heap_items : ∀ (items : List Value) (n : Nat), n ≤ (ofItems items n).2 ∧
    ∃ heap, EachItem (On heap n (ofItems items n).2) (ofItems items n).1
  | [], n => ⟨Nat.le_refl n, fun _ => [], trivial⟩
  | v :: rest, n => by
    obtain ⟨le, first, here⟩ := exists_heap v n
    obtain ⟨le', second, there⟩ := exists_heap_items rest (ofValue v n).2
    refine ⟨Nat.le_trans le le', joined (ofValue v n).2 first second, ?_, ?_⟩
    · exact here.imp fun m fields on => on.below le'
    · exact there.imp fun m fields on => on.above le
termination_by structural items => items

theorem exists_heap_fields : ∀ (fields : List (String × Value)) (n : Nat),
    n ≤ (ofFields fields n).2 ∧
      ∃ heap, EachField (On heap n (ofFields fields n).2) (ofFields fields n).1
  | [], n => ⟨Nat.le_refl n, fun _ => [], trivial⟩
  | (key, v) :: rest, n => by
    obtain ⟨le, first, here⟩ := exists_heap v n
    obtain ⟨le', second, there⟩ := exists_heap_fields rest (ofValue v n).2
    refine ⟨Nat.le_trans le le', joined (ofValue v n).2 first second, ?_, ?_⟩
    · exact here.imp fun m fields on => on.below le'
    · exact there.imp fun m fields on => on.above le
termination_by structural fields => fields

end

/-! ## Paths -/

theorem isAbsent_iff {node : Node} : node.isAbsent = true ↔ node = absent := by
  cases node with
  | leaf v => cases v <;> simp [Node.isAbsent, absent]
  | list items => simp [Node.isAbsent, absent]
  | doc m fields => simp [Node.isAbsent, absent]

theorem lookup_of_present (h : (fields.lookup key).getD absent = node) (present : node ≠ absent) :
    fields.lookup key = some node := by
  cases found : fields.lookup key with
  | none =>
    rw [found] at h
    exact absurd h.symm present
  | some other =>
    rw [found] at h
    exact congrArg some h

def head : Node → Node
  | leaf v => leaf v
  | list _ => list []
  | doc m _ => doc m []

@[simp]
theorem head_carryOut (w : Write) (node : Node) : (w.carryOut node).head = node.head := by
  cases node <;> rfl

theorem exists_doc_of_head (h : (doc m fields).head = node.head) :
    ∃ inside, node = doc m inside := by
  cases node with
  | doc m' inside =>
    obtain ⟨rfl, -⟩ := Node.doc.inj h
    exact ⟨inside, rfl⟩
  | _ => cases h

theorem follow_absent (parts : List String) : follow parts absent = .ok absent := by
  induction parts with
  | nil => rfl
  | cons part rest ih => exact ih

theorem follow_append (parts rest : List String) (node : Node) :
    follow (parts ++ rest) node = follow parts node >>= follow rest := by
  induction parts generalizing node with
  | nil => rfl
  | cons part parts ih =>
    rw [List.cons_append, follow, follow, bind_assoc]
    exact bind_congr fun next => ih next

theorem follow_cons_doc (key : String) (rest : List String) (m : Nat)
    (fields : List (String × Node)) :
    follow (key :: rest) (doc m fields) = follow rest ((fields.lookup key).getD absent) := rfl

theorem lookup_ofFields (key : String) (d : Document) (n : Nat) :
    ∃ m, ((ofFields d n).1.lookup key).getD absent = (ofValue (Value.field key d) m).1 := by
  induction d generalizing n with
  | nil => exact ⟨0, rfl⟩
  | cons field rest ih =>
    obtain ⟨k, v⟩ := field
    change ∃ m, (((k, (ofValue v n).1) :: (ofFields rest (ofValue v n).2).1).lookup key).getD absent
      = _
    rw [Value.field, List.lookup_cons, List.lookup_cons]
    cases key == k with
    | true => exact ⟨n, rfl⟩
    | false => exact ih _

theorem getElem_ofItems (i : Nat) (items : List Value) (n : Nat) :
    ∃ m, ((ofItems items n).1[i]?).getD absent = (ofValue ((items[i]?).getD .missing) m).1 := by
  induction items generalizing i n with
  | nil => exact ⟨0, rfl⟩
  | cons v rest ih =>
    change ∃ m, (((ofValue v n).1 :: (ofItems rest (ofValue v n).2).1)[i]?).getD absent = _
    cases i with
    | zero => exact ⟨n, rfl⟩
    | succ i => exact ih i _

theorem step_ofValue (v : Value) (part : String) (n : Nat) :
    ∃ m, (ofValue v n).1.step part = (v.step part).map fun next => (ofValue next m).1 := by
  cases v with
  | doc d =>
    obtain ⟨m, found⟩ := lookup_ofFields part d (n + 1)
    exact ⟨m, congrArg Except.ok found⟩
  | list items =>
    change ∃ m, (list (ofItems items n).1).step part = _
    simp only [Node.step, Value.step]
    split
    · cases Text.digitsValue? 0 false part.toList with
      | none => exact ⟨0, rfl⟩
      | some i =>
        obtain ⟨m, found⟩ := getElem_ofItems i items n
        exact ⟨m, congrArg Except.ok found⟩
    · exact ⟨0, rfl⟩
  | _ => exact ⟨0, rfl⟩

theorem value_follow (parts : List String) (v : Value) (n : Nat) :
    (follow parts (ofValue v n).1).map value = Value.follow parts v := by
  induction parts generalizing v n with
  | nil => exact congrArg Except.ok (value_ofValue v n)
  | cons part rest ih =>
    obtain ⟨m, step⟩ := step_ofValue v part n
    rw [follow, Value.follow, step]
    cases v.step part with
    | error misuse => rfl
    | ok next => exact ih next m

theorem value_follow_ofFields (parts : List String) (d : Document) (n : Nat) :
    (follow parts (doc 0 (ofFields d n).1)).map value = Value.follow parts (.doc d) := by
  cases parts with
  | nil => exact congrArg (Except.ok ∘ Value.doc) (fieldValues_ofFields d n)
  | cons part rest =>
    obtain ⟨m, found⟩ := lookup_ofFields part d n
    rw [follow_cons_doc, found]
    exact value_follow rest _ m

/-- A path leads to its last part through documents alone. -/
def Through (parts : List String) (node : Node) : Prop :=
  ∀ before, before <+: parts → before ≠ parts →
    ∃ m fields, follow before node = .ok (doc m fields)

theorem through_nil : Through [] node :=
  fun _ le ne => absurd (List.prefix_nil.1 le) ne

theorem through_cons_doc :
    Through (key :: parts) (doc m fields) ↔ Through parts ((fields.lookup key).getD absent) := by
  constructor
  · intro through before le ne
    exact through (key :: before) (List.cons_prefix_cons.2 ⟨rfl, le⟩)
      fun same => ne (List.cons.inj same).2
  · intro through before le ne
    cases before with
    | nil => exact ⟨m, fields, rfl⟩
    | cons part before =>
      obtain ⟨rfl, le'⟩ := List.cons_prefix_cons.1 le
      exact through before le' fun same => ne (same ▸ rfl)

theorem Through.of_le {longer : List String} (through : Through longer node)
    (le : parts <+: longer) : Through parts node := by
  intro before le' ne
  refine through before (le'.trans le) fun same => ne ?_
  exact le'.eq_of_length (Nat.le_antisymm le'.length_le (same ▸ le.length_le))

theorem Through.exists_doc {longer : List String} (through : Through longer node)
    (found : follow longer node = .ok (doc m fields)) (le : parts <+: longer) :
    ∃ m fields, follow parts node = .ok (doc m fields) := by
  by_cases last : parts = longer
  · exact ⟨m, fields, last ▸ found⟩
  · exact through parts le last

theorem follow_absent_of_prefix {longer : List String} (before : parts <+: longer)
    (nowhere : follow parts node = .ok absent) : follow longer node = .ok absent := by
  obtain ⟨behind, rfl⟩ := before
  rw [follow_append, nowhere]
  exact follow_absent behind

end Node

namespace Write

open Node (Each EachItem EachField On joined Through follow follow_append follow_cons_doc
  follow_absent absent)

variable {w : Write} {content node : Node} {fields : List (String × Node)} {key : String}
  {parts rest : List String}

/-! ## Where paths lead after a write -/

mutual

theorem carryOut_of_each : ∀ {node : Node},
    Each (fun m fields => m = w.owner → w.apply fields = fields) node → w.carryOut node = node
  | .leaf _, _ => rfl
  | .list _, each => congrArg Node.list (carryOutItems_of_each each)
  | .doc m fields, ⟨here, each⟩ => by
    rw [carryOut, carryOutFields_of_each each]
    split
    · rename_i same
      rw [here same]
    · rfl

theorem carryOutItems_of_each : ∀ {items : List Node},
    EachItem (fun m fields => m = w.owner → w.apply fields = fields) items →
      w.carryOutItems items = items
  | [], _ => rfl
  | _ :: _, ⟨here, there⟩ =>
    congrArg₂ List.cons (carryOut_of_each here) (carryOutItems_of_each there)

theorem carryOutFields_of_each : ∀ {fields : List (String × Node)},
    EachField (fun m fields => m = w.owner → w.apply fields = fields) fields →
      w.carryOutFields fields = fields
  | [], _ => rfl
  | (key, _) :: _, ⟨here, there⟩ =>
    congrArg₂ (fun node rest => (key, node) :: rest) (carryOut_of_each here)
      (carryOutFields_of_each there)

end

theorem carryOutItems_eq_map (w : Write) (items : List Node) :
    w.carryOutItems items = items.map w.carryOut := by
  induction items with
  | nil => rfl
  | cons node rest ih => rw [carryOutItems, ih, List.map_cons]

theorem carryOut_getD (w : Write) (found : Option Node) :
    (found.map w.carryOut).getD absent = w.carryOut (found.getD absent) := by
  cases found <;> rfl

theorem step_carryOut {part : String}
    (other : ∀ fields, node = .doc w.owner fields → part ≠ w.key) :
    (w.carryOut node).step part = (node.step part).map w.carryOut := by
  cases node with
  | leaf v => rfl
  | list items =>
    rw [carryOut, Node.step, Node.step, carryOutItems_eq_map]
    split
    · split
      · rw [List.getElem?_map, carryOut_getD]
        rfl
      · rfl
    · rfl
  | doc m fields =>
    have kept : ((w.carryOutFields fields).lookup part).getD absent =
        w.carryOut ((fields.lookup part).getD absent) := by
      rw [lookup_carryOutFields_eq, carryOut_getD]
    rw [carryOut, Node.step, Node.step]
    split
    · rename_i same
      subst same
      rw [lookup_apply_of_ne (other fields rfl), kept]
      rfl
    · rw [kept]
      rfl

theorem step_content (written : w.content = some content) (fields : List (String × Node)) :
    (w.carryOut (.doc w.owner fields)).step w.key = .ok content := by
  rw [carryOut, if_pos rfl, Node.step, apply, written, Fields.lookup_set_self]
  rfl

/-- A path goes through what is written only where it is there already. -/
def Spares (w : Write) (parts : List String) (node : Node) : Prop :=
  ∀ before rest fields, parts = before ++ w.key :: rest →
    follow before node = .ok (.doc w.owner fields) →
      ∃ old, w.content = some old ∧ fields.lookup w.key = some old ∧ w.carryOut old = old

theorem Spares.cons {part : String} {next : Node} (h : w.Spares (part :: parts) node)
    (step : node.step part = .ok next) : w.Spares parts next := by
  intro before rest fields parts_eq found
  apply h (part :: before) rest fields
  · rw [parts_eq, List.cons_append]
  · rw [follow, step]
    exact found

theorem follow_carryOut (h : w.Spares parts node) :
    follow parts (w.carryOut node) = (follow parts node).map w.carryOut := by
  induction parts generalizing node with
  | nil => rfl
  | cons part parts ih =>
    rw [follow, follow]
    by_cases hit : ∃ fields, node = .doc w.owner fields ∧ part = w.key
    · -- What is written is there already, so both ways go on with it.
      obtain ⟨fields, rfl, rfl⟩ := hit
      obtain ⟨old, written, found, same⟩ := h [] parts fields rfl rfl
      have step : (Node.doc w.owner fields).step w.key = .ok old := by
        rw [Node.step, found]
        rfl
      have later := ih (h.cons step)
      rw [same] at later
      rw [step_content written, step]
      exact later
    · have other : ∀ fields, node = .doc w.owner fields → part ≠ w.key :=
        fun fields root same => hit ⟨fields, root, same⟩
      rw [step_carryOut other]
      cases step : node.step part with
      | error misuse => rfl
      | ok next => exact ih (h.cons step)

/-- Where a path leads that goes through what is written. -/
theorem follow_content {before : List String} (written : w.content = some content)
    (found : follow before node = .ok (.doc w.owner fields)) (first : w.Spares before node) :
    follow (before ++ w.key :: rest) (w.carryOut node) = follow rest content := by
  rw [follow_append, follow_carryOut first, found]
  show follow (w.key :: rest) (w.carryOut (.doc w.owner fields)) = _
  rw [follow, step_content written]
  rfl

theorem follow_carryOut_cases (written : w.content = some content) (parts : List String)
    (node : Node) :
    follow parts (w.carryOut node) = (follow parts node).map w.carryOut ∨
      ∃ before rest fields, parts = before ++ w.key :: rest ∧
        follow before node = .ok (.doc w.owner fields) ∧
        follow parts (w.carryOut node) = follow rest content := by
  induction parts generalizing node with
  | nil => exact .inl rfl
  | cons part parts ih =>
    by_cases hit : ∃ fields, node = .doc w.owner fields ∧ part = w.key
    · obtain ⟨fields, rfl, rfl⟩ := hit
      refine .inr ⟨[], parts, fields, rfl, rfl, ?_⟩
      rw [follow, step_content written]
      rfl
    · have other : ∀ fields, node = .doc w.owner fields → part ≠ w.key :=
        fun fields root same => hit ⟨fields, root, same⟩
      rw [follow, follow, step_carryOut other]
      cases step : node.step part with
      | error misuse => exact .inl rfl
      | ok next =>
        refine (ih next).imp_right ?_
        rintro ⟨before, rest, fields, rfl, found, through⟩
        refine ⟨part :: before, rest, fields, rfl, ?_, through⟩
        rw [follow, step]
        exact found

theorem eachField_apply {Q : Nat → List (String × Node) → Prop} (each : EachField Q fields)
    (content : ∀ content, w.content = some content → Each Q content) :
    EachField Q (w.apply fields) := by
  rw [Node.eachField_iff] at each ⊢
  intro field mem
  rw [apply] at mem
  cases written : w.content with
  | none =>
    rw [written] at mem
    exact each field (List.mem_of_mem_filter mem)
  | some node =>
    rw [written] at mem
    rcases Fields.mem_set mem with mem | rfl
    · exact each field mem
    · exact content node written

structure Turns (w : Write) (P Q : Nat → List (String × Node) → Prop) : Prop where
  moves : ∀ m fields, P m fields → m ≠ w.owner → Q m (w.carryOutFields fields)
  writes : ∀ fields, P w.owner fields → Q w.owner (w.apply (w.carryOutFields fields))
  brings : ∀ fields content, P w.owner fields → w.content = some content → Each Q content

section
variable {P Q : Nat → List (String × Node) → Prop}

mutual

theorem Turns.each (h : w.Turns P Q) : ∀ {node : Node}, Each P node → Each Q (w.carryOut node)
  | .leaf _, _ => trivial
  | .list _, each => h.eachItem each
  | .doc m fields, ⟨here, each⟩ => by
    have inside := h.eachField each
    rw [carryOut]
    split
    · rename_i same
      subst same
      exact ⟨h.writes fields here, eachField_apply inside fun content => h.brings fields content here⟩
    · rename_i other
      exact ⟨h.moves m fields here other, inside⟩

theorem Turns.eachItem (h : w.Turns P Q) : ∀ {items : List Node}, EachItem P items →
    EachItem Q (w.carryOutItems items)
  | [], _ => trivial
  | _ :: _, ⟨here, there⟩ => ⟨h.each here, h.eachItem there⟩

theorem Turns.eachField (h : w.Turns P Q) : ∀ {fields : List (String × Node)},
    EachField P fields → EachField Q (w.carryOutFields fields)
  | [], _ => trivial
  | (_, _) :: _, ⟨here, there⟩ => ⟨h.each here, h.eachField there⟩

end

end

theorem carryOut_root (w : Write) (fields : List (String × Node)) :
    w.carryOut (.doc 0 fields) = .doc 0 (w.carryOutRoot fields) := by
  rw [carryOut, carryOutRoot]
  simp only [eq_comm]

theorem exists_map_doc (w : Write) {m : Nat} {x : Except Misuse Node}
    (h : x = .ok (.doc m fields)) : ∃ after, x.map w.carryOut = .ok (.doc m after) := by
  subst h
  exact ⟨_, rfl⟩

theorem exists_of_map {x : Except Misuse Node} (h : x.map w.carryOut = .ok node) :
    ∃ old, x = .ok old ∧ node = w.carryOut old := by
  cases x with
  | error misuse => cases h
  | ok old => exact ⟨old, rfl, (Except.ok.inj h).symm⟩

theorem exists_doc_of_map {m : Nat} {x : Except Misuse Node}
    (h : x.map w.carryOut = .ok (.doc m fields)) : ∃ before, x = .ok (.doc m before) := by
  cases x with
  | error misuse => cases h
  | ok node =>
    cases node with
    | doc mark inside =>
      obtain ⟨rfl, -⟩ := Node.doc.inj (Except.ok.inj h)
      exact ⟨inside, rfl⟩
    | leaf v => cases h
    | list items => cases h

theorem isSome_lookup_carryOutRoot (written : w.content = some content)
    (found : (fields.lookup key).isSome = true) :
    ((w.carryOutRoot fields).lookup key).isSome = true := by
  have carried : ((w.carryOutFields fields).lookup key).isSome = true := by
    rwa [lookup_carryOutFields_eq, Option.isSome_map]
  rw [carryOutRoot]
  split
  · rw [apply, written]
    by_cases same : key = w.key
    · rw [same, Fields.lookup_set_self]
      rfl
    · rwa [Fields.lookup_set_of_ne same]
  · exact carried

/-! ## Writes that place something -/

theorem nest_next (rest : List String) (node : Node) (n : Nat) :
    (nest rest node n).2 = n + rest.length := by
  induction rest generalizing n with
  | nil => rfl
  | cons key rest ih =>
    show (nest rest node (n + 1)).2 = _
    rw [ih, List.length_cons, Nat.add_right_comm, Nat.add_assoc]

theorem each_nest {P : Nat → List (String × Node) → Prop} (rest : List String) (node : Node)
    (n : Nat) (each : Each P node) : ∃ heap,
      (nest rest node n).1.Each fun m fields => P m fields ∨ On heap n (n + rest.length) m fields := by
  induction rest generalizing n with
  | nil => exact ⟨fun _ => [], each.imp fun m fields here => .inl here⟩
  | cons key rest ih =>
    obtain ⟨heap, inside⟩ := ih (n + 1)
    have fields_on : On (fun _ => [(key, (nest rest node (n + 1)).1)]) n (n + 1) n
        [(key, (nest rest node (n + 1)).1)] := ⟨Nat.le_refl n, Nat.lt_succ_self n, rfl⟩
    refine ⟨joined (n + 1) _ heap, .inr (fields_on.below (by simp)), ?_, trivial⟩
    refine inside.imp fun m fields here => here.imp_right fun on => ?_
    rw [List.length_cons, Nat.add_comm rest.length, ← Nat.add_assoc]
    exact on.above (Nat.le_succ n)

theorem follow_nest_append (rest more : List String) (node : Node) (n : Nat) :
    follow rest (nest (rest ++ more) node n).1 = .ok (nest more node (n + rest.length)).1 := by
  induction rest generalizing n with
  | nil => rfl
  | cons key rest ih =>
    have whole : (nest (key :: rest ++ more) node n).1 =
        .doc n [(key, (nest (rest ++ more) node (n + 1)).1)] := rfl
    rw [whole, follow_cons_doc, List.lookup_cons_self, Option.getD_some, ih, List.length_cons,
      Nat.add_comm rest.length, Nat.add_assoc]

/-- A path into new documents around a part leads to the part, to one of them, or nowhere. -/
theorem follow_nest (rest : List String) (node : Node) (n : Nat) (parts : List String) :
    (∃ behind, parts = rest ++ behind ∧
        follow parts (nest rest node n).1 = follow behind node) ∨
      (∃ fields, parts <+: rest ∧ parts.length < rest.length ∧
        follow parts (nest rest node n).1 = .ok (.doc (n + parts.length) fields)) ∨
      ¬rest <+: parts ∧ follow parts (nest rest node n).1 = .ok absent := by
  induction rest generalizing n parts with
  | nil => exact .inl ⟨parts, rfl, rfl⟩
  | cons key rest ih =>
    have whole : (nest (key :: rest) node n).1 = .doc n [(key, (nest rest node (n + 1)).1)] := rfl
    cases parts with
    | nil => exact .inr (.inl ⟨_, List.nil_prefix, Nat.succ_pos _, rfl⟩)
    | cons part parts =>
      rw [whole, follow_cons_doc]
      by_cases same : part = key
      · subst same
        rw [List.lookup_cons_self, Option.getD_some]
        rcases ih (n + 1) parts with ⟨behind, rfl, there⟩ | ⟨fields, before, shorter, there⟩ |
          ⟨apart, nowhere⟩
        · exact .inl ⟨behind, rfl, there⟩
        · refine .inr (.inl ⟨fields, ?_, Nat.succ_lt_succ shorter, ?_⟩)
          · exact List.cons_prefix_cons.2 ⟨rfl, before⟩
          · rw [there, List.length_cons, Nat.add_right_comm, Nat.add_assoc]
        · refine .inr (.inr ⟨fun h => apart (List.cons_prefix_cons.1 h).2, nowhere⟩)
      · refine .inr (.inr ⟨fun h => same (List.cons_prefix_cons.1 h).1.symm, ?_⟩)
        rw [List.lookup_cons, beq_false_of_ne same]
        exact follow_absent parts

/-- What is placed at a path is written into the last document on the way, in new documents if that
is not the end of the way. -/
theorem placing_cases (node : Node) (owner : Nat) {parts : List String} (nonempty : parts ≠ [])
    (fields : List (String × Node)) (n : Nat) :
    ∃ before key rest m inside, parts = before ++ key :: rest ∧
      follow before (.doc owner fields) = .ok (.doc m inside) ∧
      Through before (.doc owner fields) ∧
      placing node owner parts fields n =
        ({ owner := m, key, content := some (nest rest node n).1 }, n + rest.length) ∧
      (rest ≠ [] → ∀ m' fields', inside.lookup key ≠ some (.doc m' fields')) := by
  induction parts generalizing owner fields with
  | nil => exact absurd rfl nonempty
  | cons key rest ih =>
    cases rest with
    | nil =>
      exact ⟨[], key, [], owner, fields, rfl, rfl, Node.through_nil, rfl,
        fun more => absurd rfl more⟩
    | cons next rest =>
      by_cases goesOn : ∃ m inner, fields.lookup key = some (.doc m inner)
      · obtain ⟨m, inner, found⟩ := goesOn
        have deeper : placing node owner (key :: next :: rest) fields n =
            placing node m (next :: rest) inner n := by
          rw [placing]
          · rw [found]
          · simp
        obtain ⟨before, last, behind, m', inside, parts_eq, there, through, run, final⟩ :=
          ih m (List.cons_ne_nil _ _) inner
        refine ⟨key :: before, last, behind, m', inside, ?_, ?_, ?_, deeper.trans run, final⟩
        · rw [parts_eq, List.cons_append]
        · rw [follow_cons_doc, found, Option.getD_some]
          exact there
        · rw [Node.through_cons_doc, found, Option.getD_some]
          exact through
      · have here : placing node owner (key :: next :: rest) fields n =
            ({ owner, key, content := some (nest (next :: rest) node n).1 },
              (nest (next :: rest) node n).2) := by
          rw [placing]
          · cases found : fields.lookup key with
            | none => rfl
            | some inner =>
              cases inner with
              | doc m inner => exact absurd ⟨m, inner, found⟩ goesOn
              | _ => rfl
          · simp
        rw [nest_next] at here
        exact ⟨[], key, next :: rest, owner, fields, rfl, rfl, Node.through_nil, here,
          fun _ m inner found => goesOn ⟨m, inner, found⟩⟩

end Write
end Docbase
