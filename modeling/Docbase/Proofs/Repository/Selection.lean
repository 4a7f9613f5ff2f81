import Docbase.Proofs.Identity
import Docbase.Proofs.Memory.Backend
import Docbase.Proofs.Memory.Tables
import Docbase.Proofs.Repository.Reading

/-!
# What a where clause lets through

A delete and an update leave every record alone that does not meet the filter of their clause, and
what is read is computed from the documents that meet it. The filter is the one that the caller
wrote, tested on documents under both names of their identifiers.

* `Memory.Contents.preserves_stays_delete`, `Memory.Contents.preserves_stays_update`: a record that
  a filter does not hold of stays.
* `Repository.spares_unless_holds` is the theorem, `Repository.condition_lost` what comes of a clause
  that names both identifiers in one mapping.
-/

namespace Docbase

namespace Memory
open Docbase.Action (Preserves)

variable {record : Value × Document} {records : List (Value × Document)} {name : String}
  {filter patch : Value}

namespace Contents

def HasRecord (name : String) (record : Value × Document) (contents : Contents) : Prop :=
  Stays record (contents.collection name).records

theorem HasRecord.put {contents : Contents} {c : Collection} (h : Stays record c.records) :
    (contents.put name c).HasRecord name record := by
  rwa [HasRecord, collection_put_self]

theorem preserves_stays_createIndex (other : String) (keys : List Value) (unique : Bool) :
    Preserves (HasRecord name record) (createIndex other keys unique) := by
  refine preserves_createIndex_of (fun contents c before same => ?_) keys unique
  by_cases there : name = other
  · subst there
    exact HasRecord.put (same ▸ before)
  · rwa [HasRecord, collection_put_of_ne there]

theorem updateRecord_of_refused {key : Value} {d : Document}
    (refused : Filter.holds (.doc d) filter ≠ .ok true) (contents : Contents) :
    (updateRecord name filter patch key d contents).2 = contents := by
  rw [updateRecord, Action.bind_apply, Action.liftM_apply]
  cases answer : Filter.holds (.doc d) filter with
  | error failure => rfl
  | ok held =>
    cases held with
    | true => exact absurd answer refused
    | false => rfl

theorem preserves_stays_update (refused : Filter.holds (.doc record.2) filter ≠ .ok true) :
    Preserves (HasRecord name record) (update name filter patch) := by
  intro contents before
  refine update_of_records before fun r mem => ?_
  rcases before.alone r mem with rfl | other
  · intro contents' before'
    rwa [updateRecord_of_refused refused]
  · exact preserves_updateRecord fun contents' fields _ before' _ =>
      HasRecord.put (before'.replaceIn other _)

theorem preserves_stays_delete (refused : Filter.holds (.doc record.2) filter ≠ .ok true) :
    Preserves (HasRecord name record) (delete name filter) := by
  refine preserves_change fun contents n c before run => ?_
  obtain ⟨doomed, chosen, run⟩ := Except.bind_eq_ok.1 run
  obtain ⟨rfl, rfl⟩ := Prod.mk.inj (Except.pure_eq_ok.1 run)
  obtain ⟨-, rfl⟩ := Except.filterM_eq_ok.1 chosen
  refine HasRecord.put (before.sift ?_)
  rw [Bool.not_eq_true', List.any_eq_false]
  intro key doomed
  obtain ⟨r, there, rfl⟩ := List.mem_map.1 doomed
  obtain ⟨mem, accepted⟩ := List.mem_filter.1 there
  rcases before.alone r mem with rfl | other
  · cases answer : Filter.holds (.doc r.2) filter with
    | error failure =>
      rw [answer] at accepted
      cases accepted
    | ok held =>
      rw [answer] at accepted refused
      exact absurd (congrArg Except.ok accepted) refused
  · exact Bool.eq_false_iff.1 other

end Contents

end Memory

/-! ## Reading -/

theorem Pipeline.runStages_filterStages_of_select {identity : Identity} {clause : Value}
    (foreign : String → List Document) {stages : List Stage} {filter : Document}
    {documents selected : List Document} (h : Plan.filterStages identity clause = .ok stages)
    (read : Where.toFilter clause = .ok filter)
    (select : Filter.select (.doc (identity.toInternal filter)) documents = .ok selected) :
    runStages foreign (Stage.renderAll stages) (documents.map .ofDocument) =
      .ok (selected.map .ofDocument) := by
  obtain ⟨filter', read', h⟩ := Except.bind_eq_ok.1 h
  obtain rfl := Except.ok.inj (read.symm.trans (Except.liftFault_eq_ok.1 read'))
  obtain rfl := Except.pure_eq_ok.1 h
  split
  · rename_i nothing
    rw [List.isEmpty_iff.1 nothing, select_nil] at select
    obtain rfl := Except.ok.inj select
    rfl
  · rw [runStages_singleton, runStage_keep, filterM_ofDocument]
    exact ⟨selected, select, rfl⟩

namespace Repository

open Memory (World SessionId)

variable {store : String} {r : Repository World SessionId} {clause : Value} {filter : Document}

/-- Whether a stored document meets a filter that is written in the names of callers. -/
def meets (identity : Identity) (filter d : Document) : Bool :=
  Except.accepts (Filter.holds (.doc (identity.revealed d)) (.doc filter))

theorem select_meets {identity : Identity} {documents selected : List Document}
    (same : ∀ d ∈ documents, Filter.holds (.doc d) (.doc (identity.toInternal filter)) =
      Filter.holds (.doc (identity.revealed d)) (.doc filter))
    (select : Filter.select (.doc (identity.toInternal filter)) documents = .ok selected) :
    selected = documents.filter (meets identity filter) ∧
      Filter.select (.doc (identity.toInternal filter)) selected = .ok selected := by
  obtain ⟨tested, rfl⟩ := Except.filterM_eq_ok.1 select
  constructor
  · refine List.filter_congr fun d mem => ?_
    rw [meets, same d mem]
  · refine Except.filterM_eq_ok.2 ⟨fun d mem => tested d (List.mem_filter.1 mem).1, ?_⟩
    rw [List.filter_filter]
    simp only [Bool.and_self]

theorem results_meets {identity : Identity} {foreign : String → List Document}
    {documents found : List Document} {q : Query} {total : Nat}
    (read : Where.toFilter (Predicate.clause q.filter) = .ok filter)
    (same : ∀ d ∈ documents, Filter.holds (.doc d) (.doc (identity.toInternal filter)) =
      Filter.holds (.doc (identity.revealed d)) (.doc filter))
    (h : results identity foreign documents q = .ok (found, total)) :
    results identity foreign (documents.filter (meets identity filter)) q = .ok (found, total) := by
  obtain ⟨stages, shape, kept, shaped, planned, shapes, keeps, run, rfl, rfl⟩ := results_eq_ok.1 h
  obtain ⟨filter', selected, read', select, rfl⟩ := Pipeline.runStages_filterStages planned keeps
  obtain rfl := Except.ok.inj (read.symm.trans read')
  obtain ⟨selected_eq, again⟩ := select_meets same select
  rw [← selected_eq]
  have keeps' := Pipeline.runStages_filterStages_of_select foreign planned read again
  exact results_eq_ok.2 ⟨stages, shape, _, shaped, planned, shapes, keeps', run, rfl, rfl⟩

theorem eq_toInternal_of_read (read : Where.toFilter clause = .ok filter) {compiled : Document}
    (h : r.filter clause = .ok compiled) : compiled = r.identity.toInternal filter := by
  obtain ⟨filter', read', h⟩ := Except.bind_eq_ok.1 h
  obtain rfl := Except.ok.inj (read.symm.trans (Except.liftFault_eq_ok.1 read'))
  exact (Except.pure_eq_ok.1 h).symm

section
variable (stored : r.backend = Memory.backend store) (read : Where.toFilter clause = .ok filter)
include stored read

section
variable {record : Value × Document} {caller : Option SessionId}
  (refused : Filter.holds (.doc record.2) (.doc (r.identity.toInternal filter)) ≠ .ok true)
include refused

theorem preserves_hasRecord_delete :
    Action.Preserves (fun w => (w.contents store).HasRecord r.name record)
      (r.delete clause caller) := by
  refine preserves_delete_where fun compiled h => ?_
  obtain rfl := eq_toInternal_of_read read h
  rw [stored]
  exact Memory.preserves_backend_delete
    (World.preserves_onContents fun _ => Memory.Contents.preserves_stays_delete refused)

theorem preserves_hasRecord_update (data : Value) (declared : Value) :
    Action.Preserves (fun w => (w.contents store).HasRecord r.name record)
      (r.update clause data declared caller) := by
  have indexing : r.backend.PreservesIndexing
      fun w => (w.contents store).HasRecord r.name record := by
    rw [stored]
    exact Memory.preservesIndexing_backend fun other keys =>
      World.preserves_onContents fun _ =>
        Memory.Contents.preserves_stays_createIndex other keys true
  refine preserves_update_where indexing (fun compiled patch h _ => ?_) declared
  obtain rfl := eq_toInternal_of_read read h
  rw [stored]
  exact Memory.preserves_backend_update
    (World.preserves_onContents fun _ => Memory.Contents.preserves_stays_update refused)

end

section
variable {w : World} {caller : Option SessionId}
  (same : ∀ d ∈ (w.contents store).documents r.name,
    Filter.holds (.doc d) (.doc (r.identity.toInternal filter)) =
      Filter.holds (.doc (r.identity.revealed d)) (.doc filter))
include same

theorem count_meets {n : Value} (counted : (r.count clause caller w).1 = .ok n) :
    n = .int (((w.contents store).documents r.name).filter (meets r.identity filter)).length := by
  obtain ⟨-, stages, kept, planned, keeps, rfl⟩ := (count_eq_ok stored).1 counted
  obtain ⟨filter', selected, read', select, rfl⟩ := Pipeline.runStages_filterStages planned keeps
  obtain rfl := Except.ok.inj (read.symm.trans read')
  rw [← (select_meets same select).1, List.length_map]

theorem findMany_meets {input : QueryInput} {page : Page} (asks : input.clause = clause)
    (returned : (r.findMany input caller w).1 = .ok page) :
    ∃ query found total, input.read = .ok query ∧
      results r.identity (fun other => (w.contents store).documents other)
        (((w.contents store).documents r.name).filter (meets r.identity filter))
        (query.getD {}) = .ok (found, total) ∧
      page = { documents := found.map r.identity.toExternal, total := .int total } := by
  subst asks
  obtain ⟨query, asked⟩ := read_of_findMany returned
  obtain ⟨-, found, total, run, rfl⟩ := (findMany_eq_ok stored asked).1 returned
  rw [← QueryInput.toFilter_clause_of_read asked] at read
  exact ⟨query, found, total, asked, results_meets read same run, rfl⟩

end

end

open Docbase.Filter (everyMapping)

/-- On stored documents the filter of a clause comes to what the clause comes to on documents under
both names. Records that do not meet it stay as they are through deletes and updates, and no read
takes account of them. -/
theorem spares_unless_holds (stored : r.backend = Memory.backend store)
    (plain : r.identity.IsPlain) (read : Where.toFilter clause = .ok filter)
    (built : everyMapping r.identity.isBuilt (.doc filter) = true)
    (apart : everyMapping r.identity.isApart (.doc filter) = true) :
    (∀ d : Document, d.lookup r.identity.external = none →
      Filter.holds (.doc d) (.doc (r.identity.toInternal filter)) =
        Filter.holds (.doc (r.identity.revealed d)) (.doc filter)) ∧
    ∀ w : World, ((w.contents store).collection r.name).Consistent →
      (∀ x ∈ ((w.contents store).collection r.name).records,
        x.2.lookup r.identity.external = none) → ∀ caller : Option SessionId,
      (∀ x ∈ ((w.contents store).collection r.name).records,
        Filter.holds (.doc (r.identity.revealed x.2)) (.doc filter) ≠ .ok true →
        x ∈ (((r.delete clause caller w).2.contents store).collection r.name).records ∧
        ∀ data declared, x ∈
          (((r.update clause data declared caller w).2.contents store).collection r.name).records) ∧
      (∀ n, (r.count clause caller w).1 = .ok n →
        n = .int (((w.contents store).documents r.name).filter (meets r.identity filter)).length) ∧
      ∀ input page, input.clause = clause → (r.findMany input caller w).1 = .ok page →
        ∃ query found total, input.read = .ok query ∧
          results r.identity (fun other => (w.contents store).documents other)
            (((w.contents store).documents r.name).filter (meets r.identity filter))
            (query.getD {}) = .ok (found, total) ∧
          page = { documents := found.map r.identity.toExternal, total := .int total } := by
  have same (d : Document) (hidden : d.lookup r.identity.external = none) :
      Filter.holds (.doc d) (.doc (r.identity.toInternal filter)) =
        Filter.holds (.doc (r.identity.revealed d)) (.doc filter) :=
    Identity.holds_toInternal plain hidden built apart
  refine ⟨same, fun w consistent hidden caller => ?_⟩
  have same_of_mem : ∀ d ∈ (w.contents store).documents r.name,
      Filter.holds (.doc d) (.doc (r.identity.toInternal filter)) =
        Filter.holds (.doc (r.identity.revealed d)) (.doc filter) := by
    intro d mem
    obtain ⟨x, there, rfl⟩ := List.mem_map.1 mem
    exact same x.2 (hidden x there)
  refine ⟨fun x mem fails => ?_, fun n counted => count_meets stored read same_of_mem counted,
    fun input page asks returned => findMany_meets stored read same_of_mem asks returned⟩
  have refused : Filter.holds (.doc x.2) (.doc (r.identity.toInternal filter)) ≠ .ok true := by
    rwa [same x.2 (hidden x mem)]
  have stays : (w.contents store).HasRecord r.name x := consistent.isTable.stays mem
  exact ⟨(preserves_hasRecord_delete stored read refused w stays).mem, fun data declared =>
    (preserves_hasRecord_update stored read refused data declared w stays).mem⟩

def exceptB : Document := [("id", .doc [("$in", .list [.str "a", .str "b"])]),
  ("$nor", .list [.doc [("id", .str "b")]])]

theorem consistent_notes : ((notebook.contents "main").collection "notes").Consistent where
  keys := by decide
  hashable := by decide
  proper r mem := Value.isProper_doc.1 <| by
    revert r
    decide
  enforced _ mem := nomatch mem

/-- The note under b stays through a delete by that clause and through any update. -/
theorem spares_unless_holds_exceptB :
    ∃ x ∈ ((notebook.contents "main").collection "notes").records, x.1 = .str "b" ∧
      x ∈ (((notes.delete (.doc exceptB) none notebook).2.contents "main").collection
        "notes").records ∧
      ∀ data declared, x ∈ (((notes.update (.doc exceptB) data declared none notebook).2.contents
        "main").collection "notes").records := by
  have plain : notes.identity.IsPlain := ⟨by decide, by decide, by decide, by decide⟩
  have read : Where.toFilter (.doc exceptB) = .ok exceptB := by with_unfolding_all rfl
  have hidden : ∀ x ∈ ((notebook.contents "main").collection "notes").records,
      x.2.lookup notes.identity.external = none := by
    intro x mem
    rcases List.mem_cons.1 mem with rfl | mem
    · rfl
    · rcases List.mem_cons.1 mem with rfl | mem
      · rfl
      · obtain rfl := List.mem_singleton.1 mem
        rfl
  have fails : Filter.holds (.doc (notes.identity.revealed [("_id", .str "b"), ("by", .str "bob")]))
      (.doc exceptB) = .ok false := by with_unfolding_all rfl
  have mem : ((.str "b", [("_id", .str "b"), ("by", .str "bob")]) : Value × Document) ∈
      ((notebook.contents "main").collection "notes").records :=
    List.mem_cons_of_mem _ List.mem_cons_self
  obtain ⟨stays, -⟩ := (spares_unless_holds rfl plain read (by decide) (by decide)).2 notebook
    consistent_notes hidden none
  obtain ⟨deleted, updated⟩ := stays _ mem fun holds => nomatch fails.symm.trans holds
  exact ⟨_, mem, rfl, deleted, updated⟩

/-- Where both names meet in one mapping, only one of the conditions is tested: a delete that asks
for the keys a and b at once takes the note under b. -/
theorem condition_lost :
    Filter.holds (.doc [("_id", .str "b")]) (.doc ((default : Identity).toInternal
      [("_id", .str "a"), ("id", .str "b")])) = .ok true ∧
    Filter.holds (.doc ((default : Identity).revealed [("_id", .str "b")]))
      (.doc [("_id", .str "a"), ("id", .str "b")]) = .ok false ∧
    (((notes.delete (.doc [("_id", .str "a"), ("id", .str "b")]) none notebook).2.contents
      "main").collection "notes").records.map Prod.fst = [.str "a", .str "c"] :=
  ⟨by with_unfolding_all rfl, by with_unfolding_all rfl, by with_unfolding_all rfl⟩

end Repository

end Docbase
