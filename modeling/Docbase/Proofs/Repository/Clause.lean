import Docbase.Proofs.Repository.Requests
import Docbase.Proofs.Repository.Selection

/-!
# One selection for every operation

The documents that a where clause selects are the same for all operations: they are those that a
read lists, that a count counts and that a delete removes, and an update changes no others. Reads
and counts find them by a pipeline, writes by a walk over the records.

* `Repository.results_of_filter`, `Repository.delete_apply` and
  `Repository.forall₂_records_update`: the three ways to them.
* `Repository.clause_selects` is the theorem.
-/

namespace Docbase
open Docbase.Action (Preserves)

namespace Memory

variable {name : String} {filter : Value}

structure Contents.Spares (name : String) (filter : Value) (before after : Contents) : Prop where
  keys : ∀ other, after.keys other = before.keys other
  stays : ∀ r ∈ (before.collection name).records,
    Filter.holds (.doc r.2) filter ≠ .ok true → after.HasRecord name r

namespace Contents

variable {before after : Contents}

theorem spares_self (table : (before.collection name).IsTable) : before.Spares name filter before :=
  ⟨fun _ => rfl, fun _ mem _ => table.stays mem⟩

theorem preserves_spares_update (patch : Value) :
    Preserves (before.Spares name filter) (update name filter patch) := fun after spared =>
  ⟨preserves_keys_update _ filter patch after spared.keys, fun r mem refused =>
    preserves_stays_update refused after (spared.stays r mem refused)⟩

theorem preserves_spares_createIndex (other : String) (keys : List Value) (unique : Bool) :
    Preserves (before.Spares name filter) (createIndex other keys unique) := fun after spared =>
  ⟨preserves_keys_createIndex _ keys unique after spared.keys, fun r mem refused =>
    preserves_stays_createIndex other keys unique after (spared.stays r mem refused)⟩

/-- Record by record, the keys are the same, and so is all that the filter refuses. -/
theorem Spares.forall₂ (h : before.Spares name filter after)
    (table : (before.collection name).IsTable) :
    List.Forall₂ (fun r s => s.1 = r.1 ∧ (Filter.holds (.doc r.2) filter ≠ .ok true → s = r))
      (before.collection name).records (after.collection name).records := by
  have keys : List.Forall₂ (fun r s : Value × Document => r.1 = s.1)
      (before.collection name).records (after.collection name).records := by
    have same := (h.keys name).symm
    rw [Contents.keys, Contents.keys, ← List.forall₂_eq_eq_eq] at same
    rwa [List.forall₂_map_left_iff, List.forall₂_map_right_iff] at same
  obtain ⟨length, keys⟩ := List.forall₂_iff_zip.1 keys
  refine List.forall₂_iff_zip.2 ⟨length, fun {r s} mem => ?_⟩
  obtain ⟨hr, hs⟩ := List.of_mem_zip mem
  have key : r.1 = s.1 := keys mem
  refine ⟨key.symm, fun refused => ?_⟩
  rcases (h.stays r hr refused).alone s hs with same | apart
  · exact same
  · rw [← key, Value.same_self (table.hashable r hr)] at apart
    cases apart

end Contents
end Memory

namespace Repository

open Memory (World SessionId Step)

/-- What a query of a clause alone finds. -/
theorem results_of_filter {identity : Identity} {foreign : String → List Document}
    {documents selected : List Document} {p : Option Predicate} {filter : Document}
    (read : Where.toFilter (Predicate.clause p) = .ok filter)
    (select : Filter.select (.doc (identity.toInternal filter)) documents = .ok selected) :
    results identity foreign documents { filter := p } = .ok (selected, selected.length) := by
  have planned : Plan.filterStages identity (Predicate.clause p) =
      .ok (if (identity.toInternal filter).isEmpty then [] else [.keep (identity.toInternal filter)]) :=
    Except.bind_eq_ok.2 ⟨filter, Except.liftFault_eq_ok.2 read, rfl⟩
  have kept := Pipeline.runStages_filterStages_of_select foreign planned read select
  refine results_eq_ok.2 ⟨_, [], _, selected.map .ofDocument, planned, rfl, kept, rfl, ?_, ?_⟩
  · rw [Pipeline.cut_of_nonpos (Int.le_refl _) (Int.le_refl _), Draft.map_document_ofDocument]
  · rw [List.length_map]

variable {store : String} {r : Repository World SessionId} {caller : Option SessionId} {w : World}
  {clause : Value} {filter : Document} {selected : List Document}

theorem filter_eq_ok :
    r.filter clause = .ok filter ↔
      ∃ written, Where.toFilter clause = .ok written ∧ filter = r.identity.toInternal written := by
  rw [Repository.filter, Except.bind_eq_ok]
  simp only [Except.liftFault_eq_ok, Except.pure_eq_ok]
  exact exists_congr fun _ => and_congr_right fun _ => eq_comm

theorem findMany_where (stored : r.backend = Memory.backend store)
    (accepted : w.refusal store caller = none) (compiled : r.filter clause = .ok filter)
    (select : Filter.select (.doc filter) ((w.contents store).documents r.name) = .ok selected) :
    (r.findMany (.data (.doc [("where", clause)])) caller w).1 =
      .ok { documents := selected.map r.identity.toExternal, total := .int selected.length } := by
  obtain ⟨written, toFilter, rfl⟩ := filter_eq_ok.1 compiled
  obtain ⟨p, read, -⟩ := Except.bind_eq_ok.1 toFilter
  have found : results r.identity (fun other => (w.contents store).documents other)
      ((w.contents store).documents r.name) { filter := p } = .ok (selected, selected.length) :=
    results_of_filter ((Where.toFilter_clause read).trans toFilter) select
  exact (findMany_eq_ok stored (QueryInput.read_where read)).2 ⟨accepted, _, _, found, rfl⟩

theorem count_where (stored : r.backend = Memory.backend store)
    (accepted : w.refusal store caller = none) (compiled : r.filter clause = .ok filter)
    (select : Filter.select (.doc filter) ((w.contents store).documents r.name) = .ok selected) :
    (r.count clause caller w).1 = .ok (.int selected.length) := by
  obtain ⟨written, toFilter, rfl⟩ := filter_eq_ok.1 compiled
  have planned : Plan.filterStages r.identity clause = .ok _ :=
    Except.bind_eq_ok.2 ⟨written, Except.liftFault_eq_ok.2 toFilter, rfl⟩
  have kept := Pipeline.runStages_filterStages_of_select
    (fun other => (w.contents store).documents other) planned toFilter select
  refine (count_eq_ok stored).2 ⟨accepted, _, _, planned, kept, ?_⟩
  rw [List.length_map]

theorem delete_apply (stored : r.backend = Memory.backend store)
    (table : ((w.contents store).collection r.name).IsTable)
    (accepted : w.refusal store caller = none) (compiled : r.filter clause = .ok filter)
    (select : Filter.select (.doc filter) ((w.contents store).documents r.name) = .ok selected) :
    r.delete clause caller w = (.ok (.int selected.length), w.setContents store
      ((w.contents store).put r.name
        (((w.contents store).collection r.name).without (.doc filter)))) := by
  have opened : r.delete clause caller = (do
      let filter ← r.filter clause
      r.attributing "delete data" (.doc filter) (r.backend.delete r.name filter caller)) := rfl
  have removed : r.backend.delete r.name filter caller w =
      (.ok (.int selected.length), w.setContents store ((w.contents store).put r.name
        (((w.contents store).collection r.name).without (.doc filter)))) := by
    rw [stored]
    change (do return .ofNat (← World.check store caller >>= fun _ => World.onContents store
      (Memory.Contents.delete r.name (.doc filter))) : Action World Value) w = _
    rw [Action.bind_apply, World.check_bind_apply, accepted]
    simp only [World.onContents, Action.within, Memory.Contents.delete_apply table select]
    rfl
  rw [opened, compiled, Action.bind_apply]
  change r.attributing _ _ _ w = _
  rw [attributing_apply, removed]
  rfl

theorem forall₂_records_update (stored : r.backend = Memory.backend store)
    (table : ((w.contents store).collection r.name).IsTable)
    (compiled : r.filter clause = .ok filter) (data declared : Value) :
    List.Forall₂ (fun x y => y.1 = x.1 ∧
        (Filter.holds (.doc x.2) (.doc filter) ≠ .ok true → y = x))
      ((w.contents store).collection r.name).records
      (((r.update clause data declared caller w).2.contents store).collection r.name).records := by
  let P (v : World) : Prop := (w.contents store).Spares r.name (.doc filter) (v.contents store)
  have indexing : r.backend.PreservesIndexing P := by
    rw [stored]
    exact Memory.preservesIndexing_backend fun other keys => World.preserves_onContents fun _ =>
      Memory.Contents.preserves_spares_createIndex other keys true
  have kept : Preserves P (r.update clause data declared caller) := by
    refine preserves_update_where indexing (fun filter' patch compiled' _ => ?_) declared
    obtain rfl := Except.ok.inj (compiled.symm.trans compiled')
    rw [stored]
    exact Memory.preserves_backend_update (World.preserves_onContents fun _ =>
      Memory.Contents.preserves_spares_update (.doc patch))
  exact (kept w (Memory.Contents.spares_self table)).forall₂ table

/-- What a where clause selects of the records that a run has left is what a read lists, in the
order of the store, what a count counts, what a delete takes away, and all that an update can have
changed when it returns or fails. -/
theorem clause_selects (stored : r.backend = Memory.backend store) (connected : Bool)
    {steps : List Step} (spares : ∀ s ∈ steps, s.SparesStores) :
    let w := (World.empty connected).runSteps steps
    let records := ((w.contents store).collection r.name).records
    w.refusal store caller = none → r.filter clause = .ok filter →
    Filter.select (.doc filter) ((w.contents store).documents r.name) = .ok selected →
      (r.findMany (.data (.doc [("where", clause)])) caller w).1 =
          .ok { documents := selected.map r.identity.toExternal, total := .int selected.length } ∧
        (r.count clause caller w).1 = .ok (.int selected.length) ∧
        r.delete clause caller w = (.ok (.int selected.length), w.setContents store
          ((w.contents store).put r.name
            (((w.contents store).collection r.name).without (.doc filter)))) ∧
        ∀ data declared, List.Forall₂ (fun x y => y.1 = x.1 ∧
            (Filter.holds (.doc x.2) (.doc filter) ≠ .ok true → y = x)) records
          (((r.update clause data declared caller w).2.contents store).collection r.name).records := by
  intro w records accepted compiled select
  have tables : w.Everywhere Memory.Contents.HasTables :=
    (World.everywhere_empty Memory.Contents.hasTables_empty connected).runSteps
      Memory.Write.preserves_tables spares
  have table := tables.contents store r.name
  exact ⟨findMany_where stored accepted compiled select,
    count_where stored accepted compiled select,
    delete_apply stored table accepted compiled select,
    forall₂_records_update stored table compiled⟩

def noted : List Step :=
  [[("_id", .str "a"), ("by", .str "ann")],
    [("_id", .str "b"), ("by", .str "bob"), ("rank", .int 1)],
    [("_id", .str "c"), ("by", .str "cleo"), ("rank", .int 2)]].map fun d =>
      .event (.write "main" (.insert "notes" (.doc d)) none)

def annOrRanked : Value :=
  .doc [("or", .list [.doc [("by", .str "ann")], .doc [("and", .list [
    .doc [("rank", .doc [("$exists", .bool true)])], .doc [("by", .doc [("$ne", .str "bob")])]])]])]

def annOrRankedFilter : Document :=
  [("$or", .list [.doc [("by", .str "ann")], .doc [("$and", .list [
    .doc [("rank", .doc [("$exists", .bool true)])], .doc [("by", .doc [("$ne", .str "bob")])]])]])]

theorem clause_selects_annOrRanked :
    let w := (World.empty true).runSteps noted
    (∀ s ∈ noted, s.SparesStores) ∧ w.refusal "main" none = none ∧
      notes.filter annOrRanked = .ok annOrRankedFilter ∧
      (notes.findMany (.data (.doc [("where", annOrRanked)])) none w).1 = .ok {
        documents := [[("by", .str "ann"), ("id", .str "a")],
          [("by", .str "cleo"), ("rank", .int 2), ("id", .str "c")]]
        total := .int 2 } ∧
      (notes.count annOrRanked none w).1 = .ok (.int 2) ∧
      (notes.delete annOrRanked none w).1 = .ok (.int 2) ∧
      ∀ data declared, (.str "b", [("_id", .str "b"), ("by", .str "bob"), ("rank", .int 1)]) ∈
        (((notes.update annOrRanked data declared none w).2.contents "main").collection
          "notes").records := by
  intro w
  have stored : notes.backend = Memory.backend "main" := rfl
  have spares : ∀ s ∈ noted, s.SparesStores := List.forall_mem_map.2 fun _ _ => trivial
  have accepted : w.refusal "main" none = none := rfl
  have compiled : notes.filter annOrRanked = .ok annOrRankedFilter := by with_unfolding_all rfl
  have select : Filter.select (.doc annOrRankedFilter) ((w.contents "main").documents "notes") =
      .ok [[("_id", .str "a"), ("by", .str "ann")],
        [("_id", .str "c"), ("by", .str "cleo"), ("rank", .int 2)]] := by with_unfolding_all rfl
  have refused : Filter.holds (.doc [("_id", .str "b"), ("by", .str "bob"), ("rank", .int 1)])
      (.doc annOrRankedFilter) = .ok false := by with_unfolding_all rfl
  obtain ⟨found, counted, deleted, updated⟩ :=
    clause_selects stored true spares accepted compiled select
  refine ⟨spares, accepted, compiled, found, counted, congrArg Prod.fst deleted, ?_⟩
  intro data declared
  obtain ⟨_, _, -, there, after⟩ := List.forall₂_cons_left_iff.1 (updated data declared)
  obtain ⟨b, _, ⟨-, kept⟩, -, rfl⟩ := List.forall₂_cons_left_iff.1 there
  obtain rfl := kept fun holds => nomatch refused.symm.trans holds
  exact after.symm ▸ List.mem_cons_of_mem _ List.mem_cons_self

end Repository
end Docbase
