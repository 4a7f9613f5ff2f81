import Docbase.Proofs.Memory.Contents

namespace Docbase.Memory.Contents
open Docbase.Action (Preserves)

def EachRecord (R : Value × Document → Prop) (contents : Contents) : Prop :=
  ∀ name, ∀ r ∈ (contents.collection name).records, R r

variable {R : Value × Document → Prop} {name : String} {contents : Contents}

theorem eachRecord_empty : EachRecord R {} := fun _ _ mem => absurd mem List.not_mem_nil

theorem EachRecord.put (h : contents.EachRecord R) {c : Collection} (hc : ∀ r ∈ c.records, R r) :
    (contents.put name c).EachRecord R :=
  forall_put (P := fun c => ∀ r ∈ c.records, R r) h name hc

theorem preserves_each_insertKeyed {d : Document}
    (new : ∀ fallback, (Collection.recordOf fallback d).1.hashable = true →
      R (Collection.recordOf fallback d)) (name : String) (number : Nat) :
    Preserves (EachRecord R) (insertKeyed name number (.doc d)) := by
  refine preserves_change fun contents key c before run => before.put ?_
  obtain ⟨hashable, -, -, -, rfl⟩ := Collection.insert_eq_ok.1 run
  intro r mem
  rcases List.mem_append.1 mem with mem | mem
  · exact before name r mem
  · obtain rfl := List.mem_singleton.1 mem
    exact new _ hashable

theorem mem_replaceIn {key : Value} {d : Document} {records : List (Value × Document)}
    {r : Value × Document} (mem : r ∈ Collection.replaceIn key d records) :
    r ∈ records ∨ ∃ old, (r.1, old) ∈ records ∧ Value.same r.1 key = true ∧ r.2 = d := by
  induction records with
  | nil => cases mem
  | cons head rest ih =>
    obtain ⟨k, old⟩ := head
    rw [Collection.replaceIn] at mem
    split at mem
    · rename_i same
      rcases List.mem_cons.1 mem with rfl | mem
      · exact .inr ⟨old, List.mem_cons_self, same, rfl⟩
      · exact .inl (List.mem_cons_of_mem _ mem)
    · rcases List.mem_cons.1 mem with rfl | mem
      · exact .inl List.mem_cons_self
      · rcases ih mem with mem | ⟨old', mem, same⟩
        · exact .inl (List.mem_cons_of_mem _ mem)
        · exact .inr ⟨old', List.mem_cons_of_mem _ mem, same⟩

theorem each_update {filter patch : Value} (h : contents.EachRecord R)
    (replaced : ∀ fields, patch = .doc fields → (Value.str "_id").foundIn patch = .ok false →
      ∀ r ∈ (contents.collection name).records, ∀ key old, R (key, old) →
        Value.same key r.1 = true → R (key, patched r.2 fields)) :
    (update name filter patch contents).2.EachRecord R := by
  refine update_of_unnamed h fun unnamed r mem => preserves_updateRecord ?_
  intro contents' fields same before _
  refine before.put fun r' mem' => ?_
  rcases mem_replaceIn mem' with mem' | ⟨old, mem', same', new⟩
  · exact before name r' mem'
  · have known := replaced fields same unnamed r mem r'.1 old (before name _ mem') same'
    rwa [← new] at known

theorem preserves_each_delete (name : String) (filter : Value) :
    Preserves (EachRecord R) (delete name filter) := by
  refine preserves_change fun contents n c before run => before.put ?_
  obtain ⟨doomed, -, run⟩ := Except.bind_eq_ok.1 run
  obtain ⟨rfl, rfl⟩ := Prod.mk.inj (Except.pure_eq_ok.1 run)
  exact fun r mem => before name r (List.mem_filter.1 mem).1

theorem preserves_createIndex_of {P : Contents → Prop}
    (records : ∀ contents (c : Collection), P contents →
      c.records = (contents.collection name).records → P (contents.put name c))
    (keys : List Value) (unique : Bool) : Preserves P (createIndex name keys unique) := by
  unfold createIndex
  split
  · refine preserves_change fun contents n c before run => records contents c before ?_
    obtain ⟨-, -, -, rfl⟩ := Collection.addIndex_eq_ok.1 run
    rfl
  · exact Action.preserves_throw _

theorem preserves_each_createIndex (name : String) (keys : List Value) (unique : Bool) :
    Preserves (EachRecord R) (createIndex name keys unique) :=
  preserves_createIndex_of (fun _ _ before same => before.put fun r mem =>
    before name r (same ▸ mem)) keys unique

end Docbase.Memory.Contents
