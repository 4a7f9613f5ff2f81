import Docbase.Proofs.Memory.Identified

/-!
# Records under keys of their own

A delete finds the records again that it is to remove, and an update those that it is to replace, by
their keys. Every write keeps the keys of a collection apart, so that each finds its own record.
-/

namespace Docbase.Memory
open Docbase.Action (Preserves)

structure Stays (record : Value × Document) (records : List (Value × Document)) : Prop where
  mem : record ∈ records
  alone : ∀ r ∈ records, r = record ∨ Value.same record.1 r.1 = false

variable {record : Value × Document} {records : List (Value × Document)} {name : String}
  {filter : Value} {contents : Contents}

theorem Collection.IsTable.stays {c : Collection} (h : c.IsTable) (mem : record ∈ c.records) :
    Stays record c.records := by
  let R (r s : Value × Document) : Prop :=
    Value.same r.1 s.1 = false ∧ Value.same s.1 r.1 = false
  have symm : Std.Symm R := ⟨fun _ _ h => ⟨h.2, h.1⟩⟩
  have apart : c.records.Pairwise R := h.keys.imp_of_mem fun hr hs apart =>
    ⟨apart, (Value.same_comm (Value.isProper_of_hashable (h.hashable _ hs))
      (Value.isProper_of_hashable (h.hashable _ hr))).trans apart⟩
  refine ⟨mem, fun r hr => ?_⟩
  by_cases same : r = record
  · exact .inl same
  · exact .inr (apart.forall mem hr (Ne.symm same)).1

theorem Stays.replaceIn (h : Stays record records) {key : Value}
    (other : Value.same record.1 key = false) (d : Document) :
    Stays record (Collection.replaceIn key d records) := by
  constructor
  · have mem := h.mem
    clear h
    induction records with
    | nil => cases mem
    | cons r rest ih =>
      obtain ⟨k, old⟩ := r
      rw [Collection.replaceIn]
      rcases List.mem_cons.1 mem with rfl | mem
      · rw [if_neg (Bool.eq_false_iff.1 other)]
        exact List.mem_cons_self
      · split
        · exact List.mem_cons_of_mem _ mem
        · exact List.mem_cons_of_mem _ (ih mem)
  · intro r mem
    rcases Contents.mem_replaceIn mem with mem | ⟨old, mem, same, -⟩
    · exact h.alone r mem
    · rcases h.alone _ mem with rfl | apart
      · rw [other] at same
        cases same
      · exact .inr apart

theorem Stays.sift (h : Stays record records) {p : Value × Document → Bool}
    (kept : p record = true) : Stays record (records.filter p) :=
  ⟨List.mem_filter.2 ⟨h.mem, kept⟩, fun r mem => h.alone r (List.mem_filter.1 mem).1⟩

/-! ## Removing by key -/

namespace Collection

variable {c : Collection}

theorem IsTable.remove_filter (h : c.IsTable) (p : Value × Document → Bool) :
    c.remove ((c.records.filter p).map (·.1)) =
      { c with records := c.records.filter fun r => !p r } := by
  rw [remove]
  congr 1
  refine List.filter_congr fun r mem => ?_
  congr 1
  rw [Bool.eq_iff_iff, List.any_eq_true]
  constructor
  · rintro ⟨key, doomed, same⟩
    obtain ⟨s, there, rfl⟩ := List.mem_map.1 doomed
    obtain ⟨mem', accepted⟩ := List.mem_filter.1 there
    rcases (h.stays mem).alone s mem' with rfl | other
    · exact accepted
    · rw [other] at same
      cases same
  · intro accepted
    exact ⟨r.1, List.mem_map_of_mem (List.mem_filter.2 ⟨mem, accepted⟩),
      Value.same_self (h.hashable r mem)⟩

def without (filter : Value) (c : Collection) : Collection :=
  { c with records := c.records.filter fun r =>
      !Except.accepts (Filter.holds (.doc r.2) filter) }

theorem IsTable.sublist (h : c.IsTable) {records : List (Value × Document)}
    (kept : records.Sublist c.records) : IsTable { c with records } :=
  ⟨h.keys.sublist kept, fun r mem => h.hashable r (kept.subset mem)⟩

theorem isTable_iff :
    c.IsTable ↔ ((c.records.map (·.1)).Pairwise fun k l => Value.same k l = false) ∧
      ∀ key ∈ c.records.map (·.1), key.hashable = true := by
  rw [List.pairwise_map, List.forall_mem_map]
  exact ⟨fun h => ⟨h.keys, h.hashable⟩, fun h => ⟨h.1, h.2⟩⟩

end Collection

namespace Contents

theorem delete_apply (table : (contents.collection name).IsTable) {selected : List Document}
    (select : Filter.select filter (contents.documents name) = .ok selected) :
    delete name filter contents =
      (.ok selected.length, contents.put name ((contents.collection name).without filter)) := by
  obtain ⟨tested, rfl⟩ := Except.filterM_eq_ok.1 select
  have doomed : (contents.collection name).records.filterM
      (fun r => Filter.holds (.doc r.2) filter) =
        .ok ((contents.collection name).records.filter fun r =>
          Except.accepts (Filter.holds (.doc r.2) filter)) :=
    Except.filterM_eq_ok.2 ⟨fun r mem => tested r.2 (List.mem_map_of_mem mem), rfl⟩
  rw [delete, change_apply, doomed]
  simp only [documents, Collection.documents, List.filter_map, List.length_map, Function.comp_def,
    Collection.without, ← table.remove_filter]
  rfl

/-! ## Writes -/

def HasTables (contents : Contents) : Prop := ∀ name, (contents.collection name).IsTable

theorem hasTables_empty : HasTables {} := fun _ => Collection.consistent_empty.isTable

theorem HasTables.put (h : contents.HasTables) (name : String) {c : Collection}
    (table : c.IsTable) : (contents.put name c).HasTables :=
  forall_put h name table

theorem preserves_tables_of_keys {α : Type} {a : Action Contents α}
    (h : ∀ known, Preserves (HasKeys known) a) : Preserves HasTables a := by
  intro contents before name
  have same : (a contents).2.keys name = contents.keys name :=
    h (fun name => contents.keys name) contents (fun _ => rfl) name
  rw [Collection.isTable_iff]
  unfold keys at same
  rw [same]
  exact Collection.isTable_iff.1 (before name)

theorem preserves_tables_insertKeyed (name : String) (number : Nat) (document : Value) :
    Preserves HasTables (insertKeyed name number document) := by
  cases document with
  | doc d =>
    exact preserves_change fun contents key c before run =>
      before.put name ((before name).insert run)
  | _ => exact Action.preserves_throw _

theorem preserves_tables_delete (name : String) (filter : Value) :
    Preserves HasTables (delete name filter) := by
  refine preserves_change fun contents n c before run => before.put name ?_
  obtain ⟨doomed, -, run⟩ := Except.bind_eq_ok.1 run
  obtain ⟨rfl, rfl⟩ := Prod.mk.inj (Except.pure_eq_ok.1 run)
  exact (before name).sublist List.filter_sublist

end Contents

open Contents

theorem Write.preserves_tables (op : Write) (number : Nat) :
    Preserves HasTables (op.change number) :=
  preserves_of (fun name number document _ => preserves_tables_insertKeyed name number document)
    (fun _ filter patch _ =>
      preserves_tables_of_keys fun known => preserves_keys_update known filter patch)
    preserves_tables_delete
    (fun _ keys unique _ =>
      preserves_tables_of_keys fun known => preserves_keys_createIndex known keys unique)
    (fun name _ before => before.put name ((before name).sublist (List.nil_sublist _)))
    (fun _ => hasTables_empty) number

theorem World.tables_replay (connected : Bool) (events : List Event) :
    ((empty connected).replay events).Everywhere HasTables :=
  replay_preserves (fun _ _ (_ : True) h => h.after fun _ op _ _ => op.preserves_tables)
    (fun _ _ => trivial) (everywhere_empty hasTables_empty connected)

end Docbase.Memory
