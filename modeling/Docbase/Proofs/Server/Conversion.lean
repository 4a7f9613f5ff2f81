import Docbase.Proofs.Text.Quoted
import Docbase.Server.Reading

/-!
# Conversion of object identifiers

An answer of a server is passed on with the text of each object identifier in its place. Positions
in documents and lists tell what else it is: everything that it was.
-/

namespace Docbase

namespace ObjectId

theorem hexValue_text (id : ObjectId) : Text.hexValue id.text.toList = id.number := by
  rw [text, String.toList_ofList, Text.hexValue_hex]

theorem length_text {id : ObjectId} (twelveBytes : id.number < Nat.pow 16 24) :
    id.text.length = 24 := by
  rw [text, String.length_ofList, Text.length_hex (by decide) twelveBytes]

end ObjectId

namespace Value

variable {v w : Value}

/-! ## Positions -/

def parts : Value → List Value
  | .list items => items
  | .doc fields => fields.map (·.2)
  | _ => []

@[simp] theorem parts_list (items : List Value) : (list items).parts = items := rfl

@[simp] theorem parts_doc (fields : List (String × Value)) :
    (doc fields).parts = fields.map (·.2) := rfl

/-- The value that a row of positions leads to, through documents and lists. -/
def inside? : List Nat → Value → Option Value
  | [], v => some v
  | i :: rest, v => v.parts[i]?.bind (inside? rest)

/-- No object identifier stands in the value, be it itself or at any depth. -/
def HoldsNoId (v : Value) : Prop := ∀ path id, v.inside? path ≠ some (.objectId id)

theorem sizeOf_lt_of_mem_parts (mem : w ∈ v.parts) : sizeOf w < sizeOf v := by
  cases v with
  | list items =>
    rw [parts_list] at mem
    have smaller := List.sizeOf_lt_of_mem mem
    rw [list.sizeOf_spec]
    omega
  | doc fields =>
    rw [parts_doc] at mem
    obtain ⟨⟨key, u⟩, there, rfl⟩ := List.mem_map.1 mem
    have smaller := List.sizeOf_lt_of_mem there
    rw [Prod.mk.sizeOf_spec] at smaller
    rw [doc.sizeOf_spec]
    dsimp only
    omega
  | _ => cases mem

theorem parts_induction {P : Value → Prop} (step : ∀ v, (∀ w ∈ v.parts, P w) → P v) (v : Value) :
    P v :=
  step v fun w mem =>
    have := sizeOf_lt_of_mem_parts mem
    parts_induction step w
termination_by sizeOf v

theorem HoldsNoId.part (free : v.HoldsNoId) (mem : w ∈ v.parts) : w.HoldsNoId := by
  obtain ⟨i, found⟩ := List.getElem?_of_mem mem
  intro path id
  have there := free (i :: path) id
  rwa [inside?, found] at there

end Value

namespace Server

open Value (parts inside?)

variable {v w : Value}

/-! ## What is converted -/

theorem itemsWithoutIds_eq_map (items : List Value) :
    itemsWithoutIds items = items.map withoutIds := by
  induction items with
  | nil => rfl
  | cons v rest ih => rw [itemsWithoutIds, ih, List.map_cons]

theorem fieldsWithoutIds_eq_map (fields : List (String × Value)) :
    fieldsWithoutIds fields = fields.map fun field => (field.1, withoutIds field.2) := by
  induction fields with
  | nil => rfl
  | cons field rest ih => rw [fieldsWithoutIds, ih, List.map_cons]

theorem withoutIds_list (items : List Value) :
    withoutIds (.list items) = .list (items.map withoutIds) := by
  rw [withoutIds, itemsWithoutIds_eq_map]

theorem withoutIds_doc (fields : List (String × Value)) :
    withoutIds (.doc fields) = .doc (fields.map fun field => (field.1, withoutIds field.2)) := by
  rw [withoutIds, fieldsWithoutIds_eq_map]

theorem withoutIds_of_other (flat : v.isContainer = false) (other : ∀ id, v ≠ .objectId id) :
    withoutIds v = v := by
  cases v with
  | objectId id => exact absurd rfl (other id)
  | list | doc => cases flat
  | _ => rfl

theorem withoutIds_ne_objectId (v : Value) (id : ObjectId) : withoutIds v ≠ .objectId id := by
  cases v <;> exact nofun

theorem converted_eq (boxed : ∀ id, v ≠ .objectId id) : converted v = withoutIds v := by
  cases v with
  | objectId id => exact absurd rfl (boxed id)
  | _ => rfl

theorem parts_withoutIds (v : Value) : (withoutIds v).parts = v.parts.map withoutIds := by
  cases v with
  | list items => rw [withoutIds_list, Value.parts_list, Value.parts_list]
  | doc fields =>
    rw [withoutIds_doc, Value.parts_doc, Value.parts_doc, List.map_map, List.map_map]
    rfl
  | _ => rfl

theorem inside?_withoutIds (path : List Nat) (v : Value) :
    (withoutIds v).inside? path = (v.inside? path).map withoutIds := by
  induction path generalizing v with
  | nil => rfl
  | cons i rest ih =>
    rw [inside?, inside?, parts_withoutIds, List.getElem?_map]
    cases v.parts[i]? with
    | none => rfl
    | some part => exact ih part

theorem holdsNoId_withoutIds (v : Value) : (withoutIds v).HoldsNoId := by
  intro path id
  rw [inside?_withoutIds]
  cases v.inside? path with
  | none => exact nofun
  | some u => exact fun same => withoutIds_ne_objectId u id (Option.some.inj same)

/-! ## What a conversion is -/

/-- One value is the conversion of another: it holds no identifier, and at each position it has the
text of the identifier that stands there in the other one, or a document with the same keys in the
same order, or a list of the same length, or the same value. -/
structure Converts (v w : Value) : Prop where
  free : w.HoldsNoId
  texts : ∀ path id, v.inside? path = some (.objectId id) → w.inside? path = some (.str id.text)
  documents : ∀ path fields, v.inside? path = some (.doc fields) →
    ∃ fields', w.inside? path = some (.doc fields') ∧ Fields.keys fields' = Fields.keys fields
  lists : ∀ path items, v.inside? path = some (.list items) →
    ∃ items', w.inside? path = some (.list items') ∧ items'.length = items.length
  others : ∀ path u, v.inside? path = some u → u.isContainer = false → (∀ id, u ≠ .objectId id) →
    w.inside? path = some u

theorem converts_withoutIds (v : Value) : Converts v (withoutIds v) where
  free := holdsNoId_withoutIds v
  texts path id found := by rw [inside?_withoutIds, found]; rfl
  documents path fields found := by
    refine ⟨_, by rw [inside?_withoutIds, found, Option.map_some, withoutIds_doc], ?_⟩
    rw [Fields.keys, List.map_map]
    rfl
  lists path items found := by
    refine ⟨_, by rw [inside?_withoutIds, found, Option.map_some, withoutIds_list], ?_⟩
    exact List.length_map _
  others path u found flat other := by
    rw [inside?_withoutIds, found, Option.map_some, withoutIds_of_other flat other]

theorem converts_self (free : v.HoldsNoId) : Converts v v where
  free := free
  texts path id found := absurd found (free path id)
  documents _ fields found := ⟨fields, found, rfl⟩
  lists _ items found := ⟨items, found, rfl⟩
  others _ _ found _ _ := found

theorem Converts.part (h : Converts v w) {i : Nat} {a b : Value} (here : v.parts[i]? = some a)
    (there : w.parts[i]? = some b) : Converts a b := by
  have from_v (path : List Nat) : v.inside? (i :: path) = a.inside? path := by
    rw [inside?, here]; rfl
  have from_w (path : List Nat) : w.inside? (i :: path) = b.inside? path := by
    rw [inside?, there]; rfl
  refine ⟨h.free.part (List.mem_of_getElem? there), ?_, ?_, ?_, ?_⟩
  · intro path id found
    rw [← from_w, h.texts (i :: path) id (by rw [from_v, found])]
  · intro path fields found
    rw [← from_w]
    exact h.documents (i :: path) fields (by rw [from_v, found])
  · intro path items found
    rw [← from_w]
    exact h.lists (i :: path) items (by rw [from_v, found])
  · intro path u found flat other
    rw [← from_w]
    exact h.others (i :: path) u (by rw [from_v, found]) flat other

theorem parts_eq_map (h : Converts v w) (length : w.parts.length = v.parts.length)
    (each : ∀ a ∈ v.parts, ∀ b, Converts a b → b = withoutIds a) :
    w.parts = v.parts.map withoutIds := by
  refine List.ext_getElem (by rw [length, List.length_map]) fun i left right => ?_
  have inside : i < v.parts.length := length ▸ left
  rw [List.getElem_map]
  exact each _ (List.getElem_mem inside) _
    (h.part (List.getElem?_eq_getElem inside) (List.getElem?_eq_getElem left))

theorem Converts.eq (h : Converts v w) : w = withoutIds v := by
  induction v using Value.parts_induction generalizing w with
  | step v ih =>
    have each : ∀ a ∈ v.parts, ∀ b, Converts a b → b = withoutIds a := fun a mem b h => ih a mem h
    cases v with
    | objectId id => exact Option.some.inj (h.texts [] id rfl)
    | list items =>
      obtain ⟨items', same, length⟩ := h.lists [] items rfl
      obtain rfl := Option.some.inj same
      have values := parts_eq_map h length each
      rw [Value.parts_list, Value.parts_list] at values
      rw [withoutIds_list, values]
    | doc fields =>
      obtain ⟨fields', same, keys⟩ := h.documents [] fields rfl
      obtain rfl := Option.some.inj same
      have length : fields'.length = fields.length := by
        simpa only [Fields.keys, List.length_map] using congrArg List.length keys
      have values := parts_eq_map h (by simpa using length) each
      rw [← parts_withoutIds, withoutIds_doc, Value.parts_doc, Value.parts_doc] at values
      rw [withoutIds_doc, List.zip_of_prod keys values, ← List.zip_of_prod _ rfl]
      rw [Fields.keys, List.map_map]
      rfl
    | _ => exact Option.some.inj (h.others [] _ rfl rfl fun id same => by cases same)

theorem converts_iff : Converts v w ↔ w = withoutIds v := by
  refine ⟨Converts.eq, ?_⟩
  rintro rfl
  exact converts_withoutIds v

theorem withoutIds_eq_self_iff : withoutIds v = v ↔ v.HoldsNoId := by
  constructor
  · intro same
    rw [← same]
    exact holdsNoId_withoutIds v
  · exact fun free => (converts_self free).eq.symm

theorem withoutIds_withoutIds (v : Value) : withoutIds (withoutIds v) = withoutIds v :=
  withoutIds_eq_self_iff.2 (holdsNoId_withoutIds v)

theorem converts_iff_eq_converted (boxed : ∀ id, v ≠ .objectId id) :
    Converts v w ↔ w = converted v := by
  rw [converted_eq boxed]
  exact converts_iff

theorem converted_converted (v : Value) : converted (converted v) = converted v := by
  by_cases bare : ∃ id, v = .objectId id
  · obtain ⟨id, rfl⟩ := bare
    rfl
  · have boxed : ∀ id, v ≠ .objectId id := fun id same => bare ⟨id, same⟩
    rw [converted_eq boxed, converted_eq (withoutIds_ne_objectId v), withoutIds_withoutIds]

end Server
end Docbase
