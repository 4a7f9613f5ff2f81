import Docbase.Proofs.Memory.Contents
import Docbase.Proofs.Memory.Everywhere
import Mathlib.Data.Set.Function

/-!
# The indexes of a collection

Every index stands under the name that is made of its keys, so there is at most one over any keys.
Writes to documents leave the indexes alone. A new index takes the place of another one if both
have one name, which takes two different sequences of keys.
-/

namespace Docbase.Memory
open Docbase.Action (Preserves)

variable {indexes : List (String × Index)} {keys : List String} {i j : String × Index}

/-! ## Names -/

namespace Index

theorem append_direction_inj {key other rest rest' : List Char} (plain : ¬['_', '1'] <:+: key)
    (plain' : ¬['_', '1'] <:+: other)
    (same : key ++ '_' :: '1' :: rest = other ++ '_' :: '1' :: rest') :
    key = other ∧ rest = rest' := by
  induction key generalizing other with
  | nil =>
    match other with
    | [] => simpa using same
    | [c] => simp at same
    | c :: d :: tail =>
      obtain ⟨isBar, isOne, -⟩ : c = '_' ∧ d = '1' ∧ _ := by simpa [eq_comm] using same
      subst isBar isOne
      exact absurd ⟨[], tail, rfl⟩ plain'
  | cons c key ih =>
    match other with
    | [] =>
      match key with
      | [] => simp at same
      | d :: tail =>
        obtain ⟨isBar, isOne, -⟩ : c = '_' ∧ d = '1' ∧ _ := by simpa using same
        subst isBar isOne
        exact absurd ⟨[], tail, rfl⟩ plain
    | d :: other =>
      obtain ⟨first, others⟩ : c = d ∧ key ++ '_' :: '1' :: rest = other ++ '_' :: '1' :: rest' := by
        simpa using same
      obtain ⟨keys, rests⟩ := ih (fun h => plain (List.infix_cons h))
        (fun h => plain' (List.infix_cons h)) others
      exact ⟨by rw [first, keys], rests⟩

def marked (key : String) : List Char := '_' :: (key.toList ++ ['_', '1'])

theorem cons_nameOf (key : String) (rest : List String) :
    '_' :: (nameOf (key :: rest)).toList = (key :: rest).flatMap marked := by
  induction rest generalizing key with
  | nil => simp [nameOf, marked]
  | cons next rest ih =>
    rw [List.flatMap_cons, ← ih next]
    simp [nameOf, marked, String.intercalate_cons_cons]

theorem flatMap_marked_injOn :
    Set.InjOn (List.flatMap marked) {keys | ∀ key ∈ keys, ¬['_', '1'] <:+: key.toList} := by
  intro keys plain others plain' same
  induction keys generalizing others with
  | nil =>
    cases others with
    | nil => rfl
    | cons other others => simp [marked] at same
  | cons key keys ih =>
    cases others with
    | nil => simp [marked] at same
    | cons other others =>
      obtain ⟨here, there⟩ := List.forall_mem_cons.1 plain
      obtain ⟨here', there'⟩ := List.forall_mem_cons.1 plain'
      have texts : key.toList ++ '_' :: '1' :: keys.flatMap marked =
          other.toList ++ '_' :: '1' :: others.flatMap marked := by
        simpa [marked] using same
      obtain ⟨first, later⟩ := append_direction_inj here here' texts
      rw [String.toList_inj.1 first, ih there there' later]

theorem nameOf_cons_ne_nil (key : String) (rest : List String) :
    nameOf (key :: rest) ≠ nameOf [] := by
  intro same
  have marks := cons_nameOf key rest
  rw [same] at marks
  simp [nameOf, marked] at marks

/-- Names tell keys apart in which no direction is written. -/
theorem nameOf_injOn :
    Set.InjOn nameOf {keys | ∀ key ∈ keys, ¬['_', '1'] <:+: key.toList} := by
  intro keys plain others plain' same
  cases keys with
  | nil =>
    cases others with
    | nil => rfl
    | cons other others => exact absurd same.symm (nameOf_cons_ne_nil other others)
  | cons key keys =>
    cases others with
    | nil => exact absurd same (nameOf_cons_ne_nil key keys)
    | cons other others =>
      apply flatMap_marked_injOn plain plain'
      rw [← cons_nameOf, ← cons_nameOf, same]

def uniqueOver (keys : List String) : String × Index := (nameOf keys, { keys, unique := true })

end Index

/-! ## Catalogs -/

/-- Indexes under their names, no two of which are the same. -/
structure IsCatalog (indexes : List (String × Index)) : Prop where
  named : ∀ i ∈ indexes, i.1 = Index.nameOf i.2.keys
  nodup : (Fields.keys indexes).Nodup

namespace IsCatalog

theorem nil : IsCatalog [] := ⟨fun _ mem => absurd mem List.not_mem_nil, List.nodup_nil⟩

theorem set (h : IsCatalog indexes) (keys : List String) (unique : Bool) :
    IsCatalog (Fields.set (Index.nameOf keys) { keys, unique } indexes) := by
  refine ⟨fun i mem => ?_, Fields.nodup_set _ _ h.nodup⟩
  rcases Fields.mem_set mem with mem | rfl
  · exact h.named i mem
  · rfl

theorem eq_of_keys (h : IsCatalog indexes) (hi : i ∈ indexes) (hj : j ∈ indexes)
    (same : i.2.keys = j.2.keys) : i = j := by
  have name : i.1 = j.1 := by rw [h.named i hi, h.named j hj, same]
  have first : indexes.lookup i.1 = some i.2 := Fields.lookup_of_mem h.nodup hi
  have second : indexes.lookup j.1 = some j.2 := Fields.lookup_of_mem h.nodup hj
  rw [name, second] at first
  exact Prod.ext name (Option.some.inj first).symm

theorem length_filter_le_one (h : IsCatalog indexes) (keys : List String) :
    (indexes.filter fun i => i.2.keys = keys).length ≤ 1 := by
  have nodup : (indexes.filter fun i => i.2.keys = keys).Nodup :=
    (List.Nodup.of_map Prod.fst h.nodup).filter _
  match found : indexes.filter fun i => i.2.keys = keys with
  | [] => simp [found]
  | [i] => simp [found]
  | i :: j :: rest =>
    have held (k) (mem : k ∈ i :: j :: rest) : k ∈ indexes ∧ k.2.keys = keys := by
      rw [← found] at mem
      simpa using List.mem_filter.1 mem
    obtain ⟨hi, first⟩ := held i List.mem_cons_self
    obtain ⟨hj, second⟩ := held j (List.mem_cons_of_mem _ List.mem_cons_self)
    obtain rfl := h.eq_of_keys hi hj (first.trans second.symm)
    rw [found] at nodup
    simp at nodup

theorem filter_eq_singleton (h : IsCatalog indexes) (mem : i ∈ indexes) :
    (indexes.filter fun j => j.2.keys = i.2.keys) = [i] := by
  have there : i ∈ indexes.filter fun j => j.2.keys = i.2.keys := List.mem_filter.2 ⟨mem, by simp⟩
  have few := h.length_filter_le_one i.2.keys
  obtain ⟨a, one⟩ := List.length_eq_one_iff.1
    (Nat.le_antisymm few (List.length_pos_of_mem there))
  rw [one] at there ⊢
  rw [List.mem_singleton.1 there]

/-- An index stays if the new one is over other keys, and these show in the names. -/
theorem mem_set (h : IsCatalog indexes) (mem : i ∈ indexes) (other : i.2.keys ≠ keys)
    (apart : Index.nameOf i.2.keys = Index.nameOf keys → i.2.keys = keys) (index : Index) :
    i ∈ Fields.set (Index.nameOf keys) index indexes := by
  have name : i.1 ≠ Index.nameOf keys := by
    rw [h.named i mem]
    exact fun same => other (apart same)
  have found : (Fields.set (Index.nameOf keys) index indexes).lookup i.1 = some i.2 := by
    rw [Fields.lookup_set_of_ne name]
    exact Fields.lookup_of_mem h.nodup mem
  exact Fields.mem_of_lookup found

end IsCatalog

namespace Collection

variable {c c' : Collection} {name indexName : String} {unique : Bool} {failure : Failure}

theorem hasIndex_of_mem (mem : Index.uniqueOver keys ∈ c.indexes) :
    c.hasIndex keys true = true :=
  List.any_eq_true.2 ⟨_, mem, by simp [Index.uniqueOver]⟩

theorem hasIndex_iff (h : IsCatalog c.indexes) :
    c.hasIndex keys true = true ↔ Index.uniqueOver keys ∈ c.indexes := by
  refine ⟨fun there => ?_, hasIndex_of_mem⟩
  obtain ⟨⟨name, index⟩, mem, there⟩ := List.any_eq_true.1 there
  obtain ⟨rfl, isUnique⟩ : index.keys = keys ∧ index.unique = true := by simpa using there
  have named : name = Index.nameOf index.keys := h.named _ mem
  rw [Index.uniqueOver, ← named, ← isUnique]
  exact mem

theorem indexOver_eq_none_iff :
    c.indexOver keys = none ↔ ∀ i ∈ c.indexes, i.2.keys ≠ keys := by
  rw [indexOver, List.find?_eq_none, List.forall_mem_map]
  simp

theorem indexes_addIndex (run : c.addIndex name keys unique = .ok (indexName, c')) :
    (∀ i ∈ c.indexes, i.2.keys ≠ keys) ∧
      c'.indexes = Fields.set (Index.nameOf keys) { keys, unique } c.indexes := by
  obtain ⟨absent, -, -, rfl⟩ := addIndex_eq_ok.1 run
  exact ⟨indexOver_eq_none_iff.1 absent, rfl⟩

theorem uniqueOver_mem_addIndex (run : c.addIndex name keys true = .ok (indexName, c')) :
    Index.uniqueOver keys ∈ c'.indexes := by
  rw [(indexes_addIndex run).2]
  exact Fields.mem_of_lookup (Fields.lookup_set_self _ _ _)

theorem kind_of_checkDistinct {index : String} {seen : List (List Value)} {docs : List Document}
    (run : checkDistinct name index keys seen docs = .error failure) :
    failure.kind ≠ .indexExists := by
  induction docs generalizing seen with
  | nil => cases run
  | cons d rest ih =>
    simp only [checkDistinct, Except.bind_eq_error, Except.liftMisuse_eq_error] at run
    obtain ⟨m, -, rfl⟩ | ⟨entry, -, run⟩ := run
    · simp [Failure.kind]
    · split at run
      · split at run
        · obtain rfl := Except.error.inj run
          simp [Failure.kind]
        · exact ih run
      · obtain rfl := Except.error.inj run
        simp [Failure.kind]

theorem addIndex_eq_error (run : c.addIndex name keys true = .error failure) :
    c.hasIndex keys true = true ∧ failure.kind = .indexExists ∨
      (∃ i ∈ c.indexes, i.2.keys = keys ∧ i.2.unique = false) ∧ failure.kind = .store ∨
      checkDistinct name (Index.nameOf keys) keys [] c.documents = .error failure := by
  unfold addIndex at run
  cases found : c.indexOver keys with
  | some index =>
    rw [found] at run
    obtain ⟨i, mem, rfl⟩ := List.mem_map.1 (List.mem_of_find?_eq_some found)
    have same : i.2.keys = keys := by simpa using List.find?_some found
    cases unique : i.2.unique with
    | true =>
      simp only [unique] at run
      obtain rfl := Except.error.inj run
      exact .inl ⟨List.any_eq_true.2 ⟨i, mem, by simp [same, unique]⟩, rfl⟩
    | false =>
      simp only [unique] at run
      obtain rfl := Except.error.inj run
      exact .inr (.inl ⟨⟨i, mem, same, unique⟩, rfl⟩)
  | none =>
    rw [found] at run
    simp only [if_true, Except.bind_eq_error] at run
    obtain checked | ⟨-, -, run⟩ := run
    · exact .inr (.inr checked)
    · cases run

end Collection

/-! ## Contents -/

namespace Contents

variable {name other : String} {P : List (String × Index) → Prop}

def Catalog (P : List (String × Index) → Prop) (name : String) (contents : Contents) : Prop :=
  P (contents.collection name).indexes

theorem Catalog.put {contents : Contents} (h : contents.Catalog P name) {c : Collection}
    (same : c.indexes = (contents.collection other).indexes) :
    (contents.put other c).Catalog P name := by
  unfold Catalog
  by_cases here : name = other
  · subst here
    rw [collection_put_self, same]
    exact h
  · rw [collection_put_of_ne here]
    exact h

theorem preserves_catalog_insertKeyed (number : Nat) (document : Value) :
    Preserves (Catalog P name) (insertKeyed other number document) := by
  cases document with
  | doc d =>
    refine preserves_change fun contents key c before run => before.put ?_
    obtain ⟨-, -, -, -, rfl⟩ := Collection.insert_eq_ok.1 run
    rfl
  | _ => exact Action.preserves_throw _

theorem preserves_catalog_update (filter patch : Value) :
    Preserves (Catalog P name) (update other filter patch) := by
  intro contents before
  refine update_of_records before fun r mem => preserves_updateRecord ?_
  exact fun contents' fields _ before' _ => before'.put rfl

theorem preserves_catalog_delete (filter : Value) :
    Preserves (Catalog P name) (delete other filter) := by
  refine preserves_change fun contents n c before run => before.put ?_
  obtain ⟨doomed, -, run⟩ := Except.bind_eq_ok.1 run
  obtain ⟨rfl, rfl⟩ := Prod.mk.inj (Except.pure_eq_ok.1 run)
  rfl

theorem preserves_catalog_createIndex (keys : List Value) (unique : Bool)
    (new : ∀ indexes texts, name = other → keyTexts keys = some texts → P indexes →
      (∀ i ∈ indexes, i.2.keys ≠ texts) →
      P (Fields.set (Index.nameOf texts) { keys := texts, unique } indexes)) :
    Preserves (Catalog P name) (createIndex other keys unique) := by
  unfold createIndex
  cases read : keyTexts keys with
  | none => exact Action.preserves_throw _
  | some texts =>
    refine preserves_change fun contents n c before run => ?_
    obtain ⟨absent, added⟩ := Collection.indexes_addIndex run
    by_cases here : name = other
    · subst here
      rw [Catalog, collection_put_self, added]
      exact new _ texts rfl read before absent
    · rwa [Catalog, collection_put_of_ne here]

end Contents

theorem Write.preserves_catalog {P : List (String × Index) → Prop} {name : String} {op : Write}
    (empty : op = .clearAll → P [])
    (new : ∀ keys unique indexes texts, op = .createIndex name keys unique →
      Contents.keyTexts keys = some texts → P indexes → (∀ i ∈ indexes, i.2.keys ≠ texts) →
      P (Fields.set (Index.nameOf texts) { keys := texts, unique } indexes)) (number : Nat) :
    Preserves (Contents.Catalog P name) (op.change number) := by
  refine preserves_of
    (fun _ number document _ => Contents.preserves_catalog_insertKeyed number document)
    (fun _ filter patch _ => Contents.preserves_catalog_update filter patch)
    (fun _ filter => Contents.preserves_catalog_delete filter) ?_
    (fun _ _ before => before.put rfl) empty number
  rintro collection keys unique rfl
  refine Contents.preserves_catalog_createIndex keys unique ?_
  rintro indexes texts rfl read before absent
  exact new keys unique indexes texts rfl read before absent

namespace Contents

def IsIndexed (contents : Contents) : Prop := ∀ name, contents.Catalog IsCatalog name

theorem isIndexed_empty : IsIndexed {} := fun _ => IsCatalog.nil

theorem preserves_isIndexed_createIndex (place : String) (keys : List Value) (unique : Bool) :
    Preserves IsIndexed (createIndex place keys unique) := by
  intro contents before name
  refine preserves_catalog_createIndex keys unique ?_ contents (before name)
  exact fun indexes texts _ _ before _ => before.set texts unique

theorem preserves_isIndexed_write (op : Write) (number : Nat) :
    Preserves IsIndexed (op.change number) := by
  intro contents before name
  refine Write.preserves_catalog (fun _ => .nil) ?_ number contents (before name)
  exact fun keys unique indexes texts _ _ before _ => before.set texts unique

end Contents

theorem World.isIndexed_after {w : World} (h : w.Everywhere Contents.IsIndexed) (e : Event) :
    (e.after w).Everywhere Contents.IsIndexed :=
  h.after fun _ op _ _ number => Contents.preserves_isIndexed_write op number

end Docbase.Memory
