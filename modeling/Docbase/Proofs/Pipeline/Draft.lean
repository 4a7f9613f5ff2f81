import Docbase.Pipeline.Draft
import Docbase.Proofs.Action
import Docbase.Proofs.Path

/-!
# Drafts and the fields they start from

A draft of a document is that document. No part of a draft has mark zero, which is that of the
draft itself, so a write that starts at a name reaches no other name of the draft, unless through a
document that both names share.
-/

namespace Docbase

/-! ## Marks -/

namespace Marking

variable {α β : Type} {P : α → Prop} {Q : β → Prop}

def Gives (P : α → Prop) (a : Marking α) : Prop := ∀ n, n ≠ 0 → P (a n).1 ∧ (a n).2 ≠ 0

theorem gives_pure {x : α} (h : P x) : Gives P (pure x) := fun _ hn => ⟨h, hn⟩

theorem Gives.bind {a : Marking α} {f : α → Marking β} (ha : Gives P a)
    (hf : ∀ x, P x → Gives Q (f x)) : Gives Q (a >>= f) := by
  intro n hn
  obtain ⟨first, next⟩ := ha n hn
  exact hf _ first _ next

theorem gives_fresh : Gives (· ≠ 0) fresh := fun n hn => ⟨hn, n.succ_ne_zero⟩

end Marking

open Marking (Gives gives_pure gives_fresh)

namespace Node

variable {key : String} {fields : List (String × Node)} {node : Node}

/-! ## Values of parts -/

mutual

theorem value_ofValue : ∀ (v : Value) (n : Nat), (ofValue v n).1.value = v
  | .list items, n => congrArg Value.list (values_ofItems items n)
  | .doc fields, n => congrArg Value.doc (fieldValues_ofFields fields (n + 1))
  | .null, _ | .missing, _ | .bool _, _ | .int _, _ | .double _, _ | .str _, _ | .bytes _, _
  | .timestamp _, _ | .objectId _, _ | .pattern _, _ | .tuple _, _ | .flat _, _ | .anyOf _, _
  | .allOf _, _ | .joinTo _ _, _ => rfl
termination_by structural v => v

theorem values_ofItems : ∀ (items : List Value) (n : Nat), values (ofItems items n).1 = items
  | [], _ => rfl
  | v :: rest, n => congrArg₂ List.cons (value_ofValue v n) (values_ofItems rest _)
termination_by structural items => items

theorem fieldValues_ofFields :
    ∀ (fields : List (String × Value)) (n : Nat), fieldValues (ofFields fields n).1 = fields
  | [], _ => rfl
  | (key, v) :: rest, n =>
    congrArg₂ (fun v rest => (key, v) :: rest) (value_ofValue v n) (fieldValues_ofFields rest _)
termination_by structural fields => fields

end

theorem fieldValues_eq_map (fields : List (String × Node)) :
    fieldValues fields = fields.map fun field => (field.1, field.2.value) := by
  induction fields with
  | nil => rfl
  | cons field rest ih =>
    obtain ⟨key, node⟩ := field
    rw [fieldValues, ih]
    rfl

theorem fieldValues_append (fields others : List (String × Node)) :
    fieldValues (fields ++ others) = fieldValues fields ++ fieldValues others := by
  rw [fieldValues_eq_map, fieldValues_eq_map, fieldValues_eq_map, List.map_append]

theorem lookup_fieldValues (key : String) (fields : List (String × Node)) :
    (fieldValues fields).lookup key = (fields.lookup key).map value := by
  rw [fieldValues_eq_map, Fields.lookup_map]

mutual

theorem value_shift (offset : Nat) : ∀ node : Node, (shift offset node).value = node.value
  | leaf _ => rfl
  | list items => congrArg Value.list (values_shift offset items)
  | doc _ fields => congrArg Value.doc (fieldValues_shift offset fields)

theorem values_shift (offset : Nat) :
    ∀ items : List Node, values (shiftItems offset items) = values items
  | [] => rfl
  | node :: rest => congrArg₂ List.cons (value_shift offset node) (values_shift offset rest)

theorem fieldValues_shift (offset : Nat) :
    ∀ fields : List (String × Node), fieldValues (shiftFields offset fields) = fieldValues fields
  | [] => rfl
  | (key, node) :: rest =>
    congrArg₂ (fun v rest => (key, v) :: rest) (value_shift offset node)
      (fieldValues_shift offset rest)

end

theorem values_eq_map (items : List Node) : values items = items.map value := by
  induction items with
  | nil => rfl
  | cons node rest ih => rw [values, ih, List.map_cons]

theorem fieldValues_set (key : String) (node : Node) (fields : List (String × Node)) :
    fieldValues (Fields.set key node fields) = Fields.set key node.value (fieldValues fields) := by
  induction fields with
  | nil => rfl
  | cons field rest ih =>
    obtain ⟨k, v⟩ := field
    by_cases same : k = key
    · simp only [Fields.set, same, if_true, fieldValues]
    · simp only [Fields.set, same, if_false, fieldValues, ih]

theorem lookup_ofFields_str {d : Document} {s : String} (h : d.lookup key = some (.str s))
    (n : Nat) : (ofFields d n).1.lookup key = some (.leaf (.str s)) := by
  induction d generalizing n with
  | nil => cases h
  | cons field rest ih =>
    obtain ⟨k, v⟩ := field
    change ((k, (ofValue v n).1) :: (ofFields rest (ofValue v n).2).1).lookup key = _
    rw [List.lookup_cons] at h ⊢
    split at h
    · obtain rfl := Option.some.inj h
      rfl
    · exact ih h _

/-! ## Inner parts -/

mutual

/-- No document in the part has mark zero. -/
def IsInner : Node → Prop
  | leaf _ => True
  | list items => AreInner items
  | doc mark fields => mark ≠ 0 ∧ AreInnerFields fields

def AreInner : List Node → Prop
  | [] => True
  | node :: rest => IsInner node ∧ AreInner rest

def AreInnerFields : List (String × Node) → Prop
  | [] => True
  | (_, node) :: rest => IsInner node ∧ AreInnerFields rest

end

theorem areInner_iff {items : List Node} : AreInner items ↔ ∀ node ∈ items, IsInner node := by
  induction items with
  | nil => simp [AreInner]
  | cons node rest ih => rw [AreInner, ih, List.forall_mem_cons]

theorem areInnerFields_iff : AreInnerFields fields ↔ ∀ field ∈ fields, IsInner field.2 := by
  induction fields with
  | nil => simp [AreInnerFields]
  | cons field rest ih =>
    obtain ⟨key, node⟩ := field
    rw [AreInnerFields, ih, List.forall_mem_cons]

theorem AreInnerFields.lookup (inner : AreInnerFields fields) (h : fields.lookup key = some node) :
    IsInner node :=
  areInnerFields_iff.1 inner _ (Fields.mem_of_lookup h)

theorem AreInnerFields.set (inner : AreInnerFields fields) (h : IsInner node) (key : String) :
    AreInnerFields (Fields.set key node fields) := by
  rw [areInnerFields_iff] at inner ⊢
  intro field mem
  rcases Fields.mem_set mem with mem | rfl
  · exact inner field mem
  · exact h

theorem AreInnerFields.filter (inner : AreInnerFields fields) (p : String × Node → Bool) :
    AreInnerFields (fields.filter p) := by
  rw [areInnerFields_iff] at inner ⊢
  exact fun field mem => inner field (List.mem_filter.1 mem).1

mutual

theorem gives_ofValue : ∀ v : Value, Gives IsInner (ofValue v)
  | .list items => (gives_ofItems items).bind fun _ inner => gives_pure inner
  | .doc fields =>
    gives_fresh.bind fun _ fresh => (gives_ofFields fields).bind fun _ inner =>
      gives_pure ⟨fresh, inner⟩
  | .null | .missing | .bool _ | .int _ | .double _ | .str _ | .bytes _ | .timestamp _
  | .objectId _ | .pattern _ | .tuple _ | .flat _ | .anyOf _ | .allOf _ | .joinTo _ _ =>
    gives_pure trivial
termination_by structural v => v

theorem gives_ofItems : ∀ items : List Value, Gives AreInner (ofItems items)
  | [] => gives_pure trivial
  | v :: rest =>
    (gives_ofValue v).bind fun _ here => (gives_ofItems rest).bind fun _ there =>
      gives_pure ⟨here, there⟩
termination_by structural items => items

theorem gives_ofFields : ∀ fields : List (String × Value), Gives AreInnerFields (ofFields fields)
  | [] => gives_pure trivial
  | (_, v) :: rest =>
    (gives_ofValue v).bind fun _ here => (gives_ofFields rest).bind fun _ there =>
      gives_pure ⟨here, there⟩
termination_by structural fields => fields

end

mutual

theorem isInner_shift {offset : Nat} (positive : offset ≠ 0) :
    ∀ node : Node, IsInner (shift offset node)
  | leaf _ => trivial
  | list items => areInner_shift positive items
  | doc _ fields =>
    ⟨fun zero => positive (Nat.eq_zero_of_add_eq_zero_right zero),
      areInnerFields_shift positive fields⟩

theorem areInner_shift {offset : Nat} (positive : offset ≠ 0) :
    ∀ items : List Node, AreInner (shiftItems offset items)
  | [] => trivial
  | node :: rest => ⟨isInner_shift positive node, areInner_shift positive rest⟩

theorem areInnerFields_shift {offset : Nat} (positive : offset ≠ 0) :
    ∀ fields : List (String × Node), AreInnerFields (shiftFields offset fields)
  | [] => trivial
  | (_, node) :: rest => ⟨isInner_shift positive node, areInnerFields_shift positive rest⟩

end

/-! ## Paths -/

theorem IsInner.step (inner : IsInner node) {part : String} {next : Node}
    (h : node.step part = .ok next) : IsInner next := by
  cases node with
  | leaf v =>
    obtain rfl := Except.ok.inj h
    trivial
  | list items =>
    rw [Node.step] at h
    split at h
    · split at h
      · obtain rfl := Except.ok.inj h
        rename_i n _
        cases found : items[n]? with
        | none => trivial
        | some item => exact areInner_iff.1 inner item (List.mem_of_getElem? found)
      · cases h
    · obtain rfl := Except.ok.inj h
      trivial
  | doc mark fields =>
    obtain rfl := Except.ok.inj h
    cases found : fields.lookup part with
    | none => trivial
    | some node => exact inner.2.lookup found

theorem IsInner.follow {parts : List String} (inner : IsInner node) {found : Node}
    (h : Node.follow parts node = .ok found) : IsInner found := by
  induction parts generalizing node with
  | nil =>
    obtain rfl := Except.ok.inj h
    exact inner
  | cons part rest ih =>
    obtain ⟨next, here, h⟩ := Except.bind_eq_ok.1 h
    exact ih (inner.step here) h

theorem AreInnerFields.follow (inner : AreInnerFields fields) {part : String}
    {rest : List String} {root : Nat} {found : Node}
    (h : Node.follow (part :: rest) (doc root fields) = .ok found) : IsInner found := by
  rw [Node.follow, Node.step] at h
  cases first : fields.lookup part with
  | none =>
    rw [first] at h
    have nothing : IsInner absent := trivial
    exact nothing.follow h
  | some node =>
    rw [first] at h
    exact (inner.lookup first).follow h

end Node

/-! ## Writes -/

namespace Write

open Node (IsInner AreInner AreInnerFields areInnerFields_iff)

variable {w : Write} {key : String} {fields : List (String × Node)} {content : Node}

def BringsInner (w : Write) : Prop := ∀ node, w.content = some node → node.IsInner

theorem apply_inner (brings : w.BringsInner) (inner : AreInnerFields fields) :
    AreInnerFields (w.apply fields) := by
  rw [apply]
  split
  · rename_i node written
    exact inner.set (brings node written) w.key
  · exact inner.filter _

mutual

theorem carryOut_inner (brings : w.BringsInner) :
    ∀ {node : Node}, IsInner node → IsInner (w.carryOut node)
  | .leaf _, _ => trivial
  | .list _, inner => carryOutItems_inner brings inner
  | .doc mark fields, inner => by
    have written := carryOutFields_inner brings inner.2
    refine ⟨inner.1, ?_⟩
    split
    · exact apply_inner brings written
    · exact written

theorem carryOutItems_inner (brings : w.BringsInner) :
    ∀ {items : List Node}, AreInner items → AreInner (w.carryOutItems items)
  | [], _ => trivial
  | _ :: _, inner => ⟨carryOut_inner brings inner.1, carryOutItems_inner brings inner.2⟩

theorem carryOutFields_inner (brings : w.BringsInner) :
    ∀ {fields : List (String × Node)}, AreInnerFields fields →
      AreInnerFields (w.carryOutFields fields)
  | [], _ => trivial
  | (_, _) :: _, inner => ⟨carryOut_inner brings inner.1, carryOutFields_inner brings inner.2⟩

end

theorem carryOutRoot_inner (brings : w.BringsInner) (inner : AreInnerFields fields) :
    AreInnerFields (w.carryOutRoot fields) := by
  have written := carryOutFields_inner brings inner
  rw [carryOutRoot]
  split
  · exact apply_inner brings written
  · exact written

theorem carryOutFields_eq_map (w : Write) (fields : List (String × Node)) :
    w.carryOutFields fields = fields.map fun field => (field.1, w.carryOut field.2) := by
  induction fields with
  | nil => rfl
  | cons field rest ih =>
    obtain ⟨key, node⟩ := field
    rw [carryOutFields, ih]
    rfl

theorem lookup_carryOutFields_eq (w : Write) (key : String) (fields : List (String × Node)) :
    (w.carryOutFields fields).lookup key = (fields.lookup key).map w.carryOut := by
  rw [carryOutFields_eq_map, Fields.lookup_map]

theorem lookup_carryOutFields {v : Value} (h : fields.lookup key = some (.leaf v)) :
    (w.carryOutFields fields).lookup key = some (.leaf v) := by
  rw [lookup_carryOutFields_eq, h]
  rfl

theorem lookup_apply_of_ne (h : key ≠ w.key) :
    (w.apply fields).lookup key = fields.lookup key := by
  rw [apply]
  split
  · exact Fields.lookup_set_of_ne h _ _
  · exact Fields.lookup_erase_of_ne h _

/-- What a write into a draft leaves alone: every other name, if no document is found there. -/
theorem lookup_carryOutRoot {v : Value} (other : w.owner = 0 → key ≠ w.key)
    (h : fields.lookup key = some (.leaf v)) :
    (w.carryOutRoot fields).lookup key = some (.leaf v) := by
  have kept := lookup_carryOutFields (w := w) h
  rw [carryOutRoot]
  split
  · rename_i root
    rw [lookup_apply_of_ne (other root), kept]
  · exact kept

/-! ### Writes into the draft itself -/

mutual

theorem carryOut_of_root (root : w.owner = 0) :
    ∀ {node : Node}, IsInner node → w.carryOut node = node
  | .leaf _, _ => rfl
  | .list _, inner => congrArg Node.list (carryOutItems_of_root root inner)
  | .doc mark fields, inner => by
    have other : mark ≠ w.owner := fun same => inner.1 (same.trans root)
    rw [carryOut, if_neg other, carryOutFields_of_root root inner.2]

theorem carryOutItems_of_root (root : w.owner = 0) :
    ∀ {items : List Node}, AreInner items → w.carryOutItems items = items
  | [], _ => rfl
  | _ :: _, inner =>
    congrArg₂ List.cons (carryOut_of_root root inner.1) (carryOutItems_of_root root inner.2)

theorem carryOutFields_of_root (root : w.owner = 0) :
    ∀ {fields : List (String × Node)}, AreInnerFields fields → w.carryOutFields fields = fields
  | [], _ => rfl
  | (key, _) :: _, inner =>
    congrArg₂ (fun node rest => (key, node) :: rest) (carryOut_of_root root inner.1)
      (carryOutFields_of_root root inner.2)

end

theorem carryOutRoot_of_root (root : w.owner = 0) (inner : AreInnerFields fields) :
    w.carryOutRoot fields = w.apply fields := by
  rw [carryOutRoot, if_pos root, carryOutFields_of_root root inner]

/-! ### Writes to a path -/

/-- A write that comes from a path with this first part, in the document with a mark: if it is one
into a whole draft, then that document is the draft, and the name is the first part. -/
structure Under (owner : Nat) (first : String) (w : Write) : Prop where
  brings : w.BringsInner
  owner_eq : w.owner = 0 → owner = 0
  key_eq : w.owner = 0 → w.key = first

theorem Under.deeper {mark owner : Nat} {first second : String} (under : Under mark second w)
    (positive : mark ≠ 0) : Under owner first w :=
  ⟨under.brings, fun root => absurd (under.owner_eq root) positive,
    fun root => absurd (under.owner_eq root) positive⟩

theorem gives_nest (inner : content.IsInner) (names : List String) :
    Gives IsInner (nest names content) := by
  induction names with
  | nil => exact gives_pure inner
  | cons name rest ih =>
    refine gives_fresh.bind fun mark positive => ?_
    refine ih.bind fun node nested => gives_pure ?_
    exact ⟨positive, nested, trivial⟩

theorem brings_some {owner : Nat} (inner : content.IsInner) :
    BringsInner { owner, key, content := some content } := by
  intro node h
  obtain rfl := Option.some.inj h
  exact inner

theorem gives_placing (inner : content.IsInner) {owner : Nat} {first : String}
    {rest : List String} (fieldsInner : AreInnerFields fields) :
    Gives (Under owner first) (placing content owner (first :: rest) fields) := by
  induction rest generalizing owner first fields with
  | nil => exact gives_pure ⟨brings_some inner, id, fun _ => rfl⟩
  | cons second rest ih =>
    have nested : Gives (Under owner first) (do
        return { owner, key := first, content := some (← nest (second :: rest) content) }) :=
      (gives_nest inner _).bind fun node made => gives_pure ⟨brings_some made, id, fun _ => rfl⟩
    rw [placing]
    · split
      · rename_i mark inside found
        obtain ⟨positive, insideInner⟩ := fieldsInner.lookup found
        intro n hn
        obtain ⟨under, next⟩ := ih insideInner n hn
        exact ⟨under.deeper positive, next⟩
      · exact nested
    · simp

theorem removing_under {owner : Nat} {first : String} {rest : List String}
    (fieldsInner : AreInnerFields fields)
    (h : removing owner (first :: rest) fields = some w) : Under owner first w := by
  induction rest generalizing owner first fields with
  | nil =>
    obtain rfl := Option.some.inj h
    exact ⟨fun _ => nofun, id, fun _ => rfl⟩
  | cons second rest ih =>
    rw [removing] at h
    · split at h
      · rename_i mark inside found
        obtain ⟨positive, insideInner⟩ := fieldsInner.lookup found
        exact (ih insideInner h).deeper positive
      · cases h
    · simp

theorem gives_assigning (inner : content.IsInner) (fieldsInner : AreInnerFields fields)
    (path : String) :
    Gives (fun made => ∀ w, made = some w → Under 0 (Path.first path) w)
      (assigning path content fields) := by
  obtain ⟨rest, parts⟩ := Path.exists_parts path
  rw [assigning, parts]
  split
  · exact gives_pure fun w made => removing_under fieldsInner made
  · refine (gives_placing inner fieldsInner).bind fun made under => gives_pure ?_
    intro w h
    obtain rfl := Option.some.inj h
    exact under

theorem Under.lookup_carryOutRoot {first : String} {v : Value} (under : Under 0 first w)
    (other : first ≠ key) (h : fields.lookup key = some (.leaf v)) :
    (w.carryOutRoot fields).lookup key = some (.leaf v) := by
  refine Write.lookup_carryOutRoot (fun root => ?_) h
  rw [under.key_eq root]
  exact other.symm

end Write

namespace Draft

theorem document_ofDocument (d : Document) : (ofDocument d).document = d :=
  Node.fieldValues_ofFields d 1

theorem map_document_ofDocument (documents : List Document) :
    (documents.map ofDocument).map document = documents := by
  rw [List.map_map]
  exact List.map_id'' document_ofDocument documents

end Draft
end Docbase
