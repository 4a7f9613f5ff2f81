import Docbase.Proofs.Memory.Consistency
import Docbase.Proofs.Memory.Identified

namespace Docbase

namespace Value

mutual

def isData : Value → Bool
  | .list items => areData items
  | .doc fields => areDataFields fields
  | .tuple _ | .flat _ | .anyOf _ | .allOf _ | .joinTo _ _ => false
  | _ => true

def areData : List Value → Bool
  | [] => true
  | v :: rest => isData v && areData rest

def areDataFields : List (String × Value) → Bool
  | [] => true
  | (_, v) :: rest => isData v && areDataFields rest

end

theorem areData_iff {items : List Value} : areData items = true ↔ ∀ v ∈ items, v.isData = true := by
  induction items with
  | nil => simp [areData]
  | cons v rest ih => simp [areData, ih]

theorem isData_doc {d : Document} : (Value.doc d).isData = true ↔ ∀ f ∈ d, f.2.isData = true := by
  rw [isData]
  induction d with
  | nil => simp [areDataFields]
  | cons f rest ih => simp [areDataFields, ih]

mutual

theorem hashable_entry : ∀ {v : Value}, v.isData = true → v.entry.hashable = true
  | .doc _, h => hashable_fieldEntries h
  | .list _, h => hashable_itemEntries h
  | .null, _ | .missing, _ | .bool _, _ | .int _, _ | .double _, _ | .str _, _ | .bytes _, _
  | .timestamp _, _ | .objectId _, _ | .pattern _, _ => rfl

theorem hashable_itemEntries : ∀ {items : List Value}, areData items = true →
    hashableItems (itemEntries items) = true
  | [], _ => rfl
  | v :: rest, h => by
    simp only [areData, Bool.and_eq_true] at h
    simp only [itemEntries, hashableItems, hashable_entry h.1, hashable_itemEntries h.2,
      Bool.and_self]

theorem hashable_fieldEntries : ∀ {fields : List (String × Value)}, areDataFields fields = true →
    hashableItems (fieldEntries fields) = true
  | [], _ => rfl
  | (key, v) :: rest, h => by
    simp only [areDataFields, Bool.and_eq_true] at h
    simp only [fieldEntries, hashableItems, hashable, hashable_entry h.1,
      hashable_fieldEntries h.2, Bool.and_self]

end

end Value

namespace Memory
open Docbase.Action (Preserves)

variable {keys : List String} {d patch : Document} {name : String}

theorem Index.hashable_entryOf {entry : List Value} (data : (Value.doc d).isData = true)
    (run : Index.entryOf keys d = .ok entry) : Value.hashableItems entry = true := by
  have each : ∀ v ∈ entry, v.hashable = true := by
    intro v mem
    obtain ⟨key, -, read⟩ := Except.mem_of_mapM_ok run v mem
    obtain ⟨w, found, read⟩ := Except.bind_eq_ok.1 read
    obtain rfl := Except.pure_eq_ok.1 read
    apply Value.hashable_entry
    refine Value.follow_induction (P := fun v => v.isData = true) rfl ?_ ?_ data found
    · exact fun fields h => Value.isData_doc.1 h
    · exact fun items h => Value.areData_iff.1 h
  clear run
  induction entry with
  | nil => rfl
  | cons v rest ih =>
    obtain ⟨here, there⟩ := List.forall_mem_cons.1 each
    rw [Value.hashableItems, here, ih there, Bool.and_self]

theorem isData_set {parts : List String} {v : Value} (data : v.isData = true)
    (h : (Value.doc d).isData = true) : (Value.doc (Document.set parts v d)).isData = true := by
  refine Document.set_induction (P := fun v => v.isData = true) rfl ?_ ?_ data h
  · intro d key v h data
    refine Value.isData_doc.2 fun f mem => ?_
    rcases Fields.mem_set mem with mem | rfl
    · exact Value.isData_doc.1 h f mem
    · exact data
  · exact fun d key v h found => Value.isData_doc.1 h _ (Fields.mem_of_lookup found)

theorem isData_patched (data : (Value.doc patch).isData = true)
    (h : (Value.doc d).isData = true) :
    (Value.doc (Contents.patched d patch)).isData = true := by
  refine List.foldlRecOn (motive := fun d => (Value.doc d).isData = true) patch _ h ?_
  exact fun d h field mem => isData_set (Value.isData_doc.1 data field mem) h

theorem isData_recordOf {fallback : Value} (key : fallback.isData = true)
    (h : (Value.doc d).isData = true) :
    (Value.doc (Collection.recordOf fallback d).2).isData = true := by
  cases found : d.lookup "_id" with
  | some v =>
    have has : Fields.has "_id" d = true := by rw [Fields.has, found, Option.isSome_some]
    rw [Collection.recordOf, has, if_pos rfl]
    exact h
  | none =>
    have has : Fields.has "_id" d = false := by rw [Fields.has, found, Option.isSome_none]
    simp only [Collection.recordOf, has, found, Bool.false_eq_true, if_false, Option.getD_none]
    refine Value.isData_doc.2 fun f mem => ?_
    rcases List.mem_append.1 mem with mem | mem
    · exact Value.isData_doc.1 h f mem
    · obtain rfl := List.mem_singleton.1 mem
      exact key

/-! ## Writing -/

namespace Contents

def HoldsData (name : String) (contents : Contents) : Prop :=
  ∀ r ∈ (contents.collection name).records, (Value.doc r.2).isData = true

variable {contents : Contents} {other : String}

theorem HoldsData.put (h : contents.HoldsData name) {c : Collection}
    (hc : name = other → ∀ r ∈ c.records, (Value.doc r.2).isData = true) :
    (contents.put other c).HoldsData name := by
  by_cases same : name = other
  · subst same
    rw [HoldsData, collection_put_self]
    exact hc rfl
  · rwa [HoldsData, collection_put_of_ne same]

theorem preserves_holdsData_insertKeyed (number : Nat) {document : Value}
    (data : document.isData = true) :
    Preserves (HoldsData name) (insertKeyed other number document) := by
  cases document with
  | doc d =>
    refine preserves_change fun contents key c before run => before.put ?_
    rintro rfl r mem
    obtain ⟨-, -, -, -, rfl⟩ := Collection.insert_eq_ok.1 run
    rcases List.mem_append.1 mem with mem | mem
    · exact before r mem
    · obtain rfl := List.mem_singleton.1 mem
      exact isData_recordOf rfl data
  | _ => exact Action.preserves_throw _

theorem preserves_holdsData_update (filter : Value) {patch : Value} (data : patch.isData = true) :
    Preserves (HoldsData name) (update other filter patch) := by
  intro contents before
  refine update_of_records before fun r mem => preserves_updateRecord ?_
  rintro contents' fields rfl before' -
  refine before'.put ?_
  rintro rfl r' mem'
  rcases mem_replaceIn mem' with mem' | ⟨-, -, -, new⟩
  · exact before' r' mem'
  · rw [new]
    exact isData_patched data (before r mem)

theorem preserves_holdsData_delete (filter : Value) :
    Preserves (HoldsData name) (delete other filter) := by
  refine preserves_change fun contents n c before run => before.put ?_
  rintro rfl r mem
  obtain ⟨doomed, -, run⟩ := Except.bind_eq_ok.1 run
  obtain ⟨rfl, rfl⟩ := Prod.mk.inj (Except.pure_eq_ok.1 run)
  exact before r (List.mem_filter.1 mem).1

theorem preserves_holdsData_createIndex (keys : List Value) (unique : Bool) :
    Preserves (HoldsData name) (createIndex other keys unique) := by
  refine preserves_createIndex_of (fun contents c before same => before.put ?_) keys unique
  rintro rfl r mem
  exact before r (same ▸ mem)

end Contents

def Write.isData (op : Write) : Bool := op.handed.all Value.isData

theorem Write.preserves_holdsData {op : Write} (data : op.isData = true) (number : Nat) :
    Preserves (Contents.HoldsData name) (op.change number) := by
  have handed : ∀ v ∈ op.handed, v.isData = true := List.all_eq_true.1 data
  exact preserves_of
    (fun _ number document mem =>
      Contents.preserves_holdsData_insertKeyed number (handed document mem))
    (fun _ filter patch mem => Contents.preserves_holdsData_update filter (handed patch mem))
    (fun _ filter => Contents.preserves_holdsData_delete filter)
    (fun _ keys unique _ => Contents.preserves_holdsData_createIndex keys unique)
    (fun _ _ before => before.put fun _ => nofun) (fun _ => nofun) number

end Memory
end Docbase
