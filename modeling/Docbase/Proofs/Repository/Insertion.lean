import Docbase.Proofs.Memory.Bulk
import Docbase.Proofs.Repository.Reading
import Docbase.Proofs.Repository.Requests

namespace Docbase
open Docbase.Action (Preserves)

theorem Repository.insertedKeys_of_kind {failure : Failure} (h : failure.kind ≠ .bulkInsert) :
    insertedKeys (.error failure) = .error failure := by
  unfold insertedKeys
  split
  · rename_i same
    cases same
  · rename_i same
    cases same
    exact absurd rfl h
  · rename_i same
    cases same
    exact absurd rfl h
  · rename_i same
    rw [same]

namespace Memory

variable {store name : String} {u v w : World} {added more : List (Value × Document)}
  {caller : Option SessionId}

/-! ## Worlds with more records -/

namespace World

/-- Some records have come to the end of a collection, and the store is open to the same callers. -/
structure Adds (store name : String) (added : List (Value × Document)) (w v : World) : Prop where
  records : ((v.contents store).collection name).records =
    ((w.contents store).collection name).records ++ added
  refusal : ∀ caller, v.refusal store caller = w.refusal store caller

theorem adds_nil (store name : String) (w : World) : w.Adds store name [] w :=
  ⟨(List.append_nil _).symm, fun _ => rfl⟩

theorem Adds.trans (h : u.Adds store name added v) (h' : v.Adds store name more w) :
    u.Adds store name (added ++ more) w := by
  refine ⟨?_, fun caller => (h'.refusal caller).trans (h.refusal caller)⟩
  rw [h'.records, h.records, List.append_assoc]

theorem Adds.after (h : w.Adds store name added v) {u : World}
    (records : ((u.contents store).collection name).records =
      ((v.contents store).collection name).records)
    (refusal : ∀ caller, u.refusal store caller = v.refusal store caller) :
    w.Adds store name added u :=
  ⟨records.trans h.records, fun caller => (refusal caller).trans (h.refusal caller)⟩

theorem adds_draw {keys : KeySource} (texts : keys.DrawsTexts) :
    Action.Yields (w.Adds store name added) (fun key => ∃ s, key = .str s) keys.draw := by
  intro v before
  obtain ⟨contents, sessions, text⟩ := texts v
  refine ⟨before.after (by rw [contents store]) ?_, text⟩
  exact refusal_congr ((keys.keeps v).connected store) sessions

theorem adds_indexing (store name : String) (added : List (Value × Document)) (w : World) :
    (backend store).PreservesIndexing (w.Adds store name added) := by
  refine preservesIndexing_backend fun collection keys v before => ?_
  have records : Preserves (fun contents => (contents.collection name).records =
      ((v.contents store).collection name).records)
      (Contents.createIndex collection keys true) := by
    refine Contents.preserves_createIndex_of (fun contents c before same => ?_) keys true
    by_cases here : name = collection
    · subst here
      rw [Contents.collection_put_self, same, before]
    · rwa [Contents.collection_put_of_ne here]
  refine before.after ?_ (refusal_congr (connected_setContents store store _ v) rfl)
  change (((v.setContents store _).contents store).collection name).records = _
  rw [contents_setContents_self]
  exact records _ rfl

theorem adds_ensure (store name : String) (w : World) (collection : String) (declared : Value) :
    Preserves (w.Adds store name added) (UniqueField.ensure (backend store) collection declared) :=
  UniqueField.preserves_ensure (adds_indexing store name added w) collection declared

end World

/-! ## Contents -/

namespace Contents

variable {contents contents' : Contents}

theorem recordsOf_keyed {number : Nat} {documents : List Document}
    (keyed : ∀ d ∈ documents, ∃ s, d.lookup "_id" = some (.str s)) :
    ∀ r ∈ recordsOf number (documents.map .doc),
      ∃ s, r.1 = .str s ∧ r.2.lookup "_id" = some r.1 := by
  induction documents generalizing number with
  | nil => exact fun r mem => absurd mem List.not_mem_nil
  | cons d rest ih =>
    obtain ⟨⟨s, found⟩, others⟩ := List.forall_mem_cons.1 keyed
    rw [List.map_cons, recordsOf, Collection.recordOf_of_lookup found]
    exact List.forall_mem_cons.2 ⟨⟨s, rfl, found⟩, ih others⟩

theorem insertAll_adds {number : Nat} {documents : List Document}
    {outcome : Except Failure Value} {keys : Value}
    (keyed : ∀ d ∈ documents, ∃ s, d.lookup "_id" = some (.str s))
    (run : (listed .str <$> insertAll name number (documents.map .doc) false) contents =
      (outcome, contents'))
    (told : Repository.insertedKeys outcome = .ok keys) :
    ∃ added ids, (contents'.collection name).records =
        (contents.collection name).records ++ added ∧
      (∀ r ∈ added, r.2.lookup "_id" = some r.1) ∧ added.map (·.1) = ids.map .str ∧
      keys = listed .str ids := by
  rw [Action.map_apply, insertAll, Action.bind_apply] at run
  rcases bulk : insertFrom name number false 0 (documents.map .doc) contents with
    ⟨failure | result, after⟩
  · rw [bulk] at run
    cases run
    obtain ⟨_, _, _, _, -, -, -, -, stop⟩ := insertFrom_fails bulk
    rw [Except.map, Repository.insertedKeys_of_kind (insertKeyed_fails stop).2] at told
    cases told
  · obtain ⟨added, appends, part, ids⟩ := insertFrom_returns bulk
    have known : ∀ r ∈ added, ∃ s, r.1 = .str s ∧ r.2.lookup "_id" = some r.1 :=
      fun r mem => recordsOf_keyed keyed r (part.subset mem)
    have stored : ∀ r ∈ added, r.2.lookup "_id" = some r.1 := fun r mem =>
      (known r mem).elim fun _ keyed => keyed.2
    have texts : added.map (·.1) = result.inserted.map .str := by
      rw [ids, List.map_map]
      refine List.map_congr_left fun r mem => ?_
      obtain ⟨s, key, -⟩ := known r mem
      rw [Function.comp_apply, key, Value.text]
    rw [bulk] at run
    dsimp only at run
    split at run
    all_goals
      cases run
      cases told
      exact ⟨added, result.inserted, appends.records, stored, texts, rfl⟩

end Contents

/-! ## Writes of a backend -/

theorem backend_insert_returns {d : Document} {id key : Value} (found : d.lookup "_id" = some id)
    (run : (backend store).insert name d caller w = (.ok key, v)) :
    w.refusal store caller = none ∧ ((w.contents store).collection name).hasKey id = false ∧
      key = .str id.text ∧ w.Adds store name [(id, d)] v := by
  have written : (Write.insert name (.doc d)).perform store caller w = (.ok key, v) := run
  rcases Write.perform_cases written with ⟨_, -, ⟨⟩, -⟩ | ⟨accepted, changed, refusal⟩
  rw [Write.change, Action.map_apply, Contents.insert, Action.bind_apply] at changed
  rcases inserted : Contents.insertKeyed name w.generated (.doc d) (w.contents store) with
    ⟨failure | id', after⟩
  · rw [inserted] at changed
    cases changed
  · rw [inserted] at changed
    obtain ⟨_, ⟨⟩, rfl, fresh, appends⟩ := Contents.insertKeyed_returns inserted
    rw [Collection.recordOf_of_lookup found] at fresh appends changed
    obtain ⟨text, rfl⟩ := Prod.mk.inj changed
    exact ⟨accepted, fresh, (Except.ok.inj text).symm, appends.records, refusal⟩

theorem backend_insertEach_adds {documents : List Document} {outcome : Except Failure Value}
    {keys : Value} (keyed : ∀ d ∈ documents, ∃ s, d.lookup "_id" = some (.str s))
    (run : (backend store).insertEach name documents caller w = (outcome, v))
    (told : Repository.insertedKeys outcome = .ok keys) :
    ∃ added ids, w.Adds store name added v ∧ (∀ r ∈ added, r.2.lookup "_id" = some r.1) ∧
      added.map (·.1) = ids.map .str ∧ keys = listed .str ids := by
  have written : (Write.insertAll name (documents.map .doc) false).perform store caller w =
      (outcome, v) := run
  rcases Write.perform_cases written with ⟨failure, refused, rfl, -⟩ | ⟨-, changed, refusal⟩
  · rw [Repository.insertedKeys_of_kind (World.kind_of_refusal refused)] at told
    cases told
  · obtain ⟨added, ids, records, stored, texts, rfl⟩ := Contents.insertAll_adds keyed changed told
    exact ⟨added, ids, ⟨records, refusal⟩, stored, texts, rfl⟩

end Memory

namespace Repository

open Memory (World SessionId Handle)

variable {h : Handle} {store : String} {u v w : World} {caller : Option SessionId}
  {data datas declared : Value}

theorem attributing_returns {σ ι α : Type} {r : Repository σ ι} {operation : String}
    {payload : Value} {a : Action σ α} {s t : σ} {result : α} :
    r.attributing operation payload a s = (.ok result, t) ↔ a s = (.ok result, t) := by
  rw [attributing_apply]
  rcases a s with ⟨failure | result', u⟩
  · exact ⟨nofun, nofun⟩
  · exact Iff.rfl

theorem insert_returns (texts : h.keys.DrawsTexts) (internal : h.identity.internal = "_id")
    {id : String} (run : (h.repository store).insert data declared caller w = (.ok id, v)) :
    ∃ fields, data = .doc fields ∧ w.refusal store caller = none ∧
      ((w.contents store).collection h.name).hasKey (.str id) = false ∧
      w.Adds store h.name [(.str id, ("_id", .str id) :: h.identity.strip fields)] v := by
  obtain ⟨d, _, given, run⟩ := Action.bind_returns.1 run
  obtain ⟨stripped, rfl⟩ := Action.liftM_returns.1 given
  obtain ⟨fields, rfl, rfl⟩ := stripped_eq_ok stripped
  obtain ⟨key, _, attributed, run⟩ := Action.bind_returns.1 run
  obtain ⟨rfl, rfl⟩ := Action.pure_returns.1 run
  obtain ⟨_, indexed, ensured, run⟩ := Action.bind_returns.1 (attributing_returns.1 attributed)
  obtain ⟨new, ready, drawn, inserted⟩ := Action.bind_returns.1 run
  have unchanged : w.Adds store h.name [] indexed :=
    (World.adds_ensure store h.name w h.name declared).after (World.adds_nil store h.name w) ensured
  obtain ⟨unchanged, s, rfl⟩ := (World.adds_draw texts).returned unchanged drawn
  have names : (h.repository store).identity.internal = "_id" := internal
  rw [names] at inserted
  obtain ⟨accepted, fresh, rfl, adds⟩ :=
    Memory.backend_insert_returns List.lookup_cons_self inserted
  have same : ((ready.contents store).collection h.name).hasKey (.str s) =
      ((w.contents store).collection h.name).hasKey (.str s) := by
    rw [Memory.Collection.hasKey, unchanged.records, List.append_nil, Memory.Collection.hasKey]
  exact ⟨fields, rfl, (unchanged.refusal caller).symm.trans accepted, same.symm.trans fresh,
    unchanged.trans adds⟩

/-- A bulk insert that returns has added a record for each of the identifiers that it returns. -/
theorem insertMany_returns (texts : h.keys.DrawsTexts) (internal : h.identity.internal = "_id")
    {ids : List String}
    (run : (h.repository store).insertMany datas declared caller w = (.ok ids, v)) :
    ∃ added, w.Adds store h.name added v ∧ (∀ r ∈ added, r.2.lookup "_id" = some r.1) ∧
      added.map (·.1) = ids.map .str := by
  rw [insertMany] at run
  split at run
  · obtain ⟨rfl, rfl⟩ := Action.pure_returns.1 run
    exact ⟨[], World.adds_nil store h.name w, nofun, rfl⟩
  · obtain ⟨members, _, listed, run⟩ := Action.bind_returns.1 run
    obtain ⟨-, rfl⟩ := Action.liftM_returns.1 listed
    obtain ⟨documents, drawn, keyed, run⟩ := Action.bind_returns.1 run
    obtain ⟨keys, _, attributed, run⟩ := Action.bind_returns.1 run
    obtain ⟨shown, _, read, run⟩ := Action.bind_returns.1 run
    obtain ⟨rfl, rfl⟩ := Action.pure_returns.1 run
    obtain ⟨members_eq, rfl⟩ := Action.liftM_returns.1 read
    obtain ⟨_, indexed, ensured, run⟩ := Action.bind_returns.1 (attributing_returns.1 attributed)
    obtain ⟨outcome, _, bulk, reported⟩ := Action.bind_returns.1 run
    rw [Action.attempt_returns] at bulk
    obtain ⟨told, rfl⟩ := Action.liftM_returns.1 reported
    obtain ⟨unchanged, known⟩ := (yields_keyed (World.adds_draw texts) members).returned
      (World.adds_nil store h.name w) keyed
    have unchanged : w.Adds store h.name [] indexed :=
      (World.adds_ensure store h.name w h.name declared).after unchanged ensured
    have named : ∀ d ∈ documents, ∃ s, d.lookup "_id" = some (.str s) := by
      intro d mem
      obtain ⟨_, _, stripped, ⟨s, rfl⟩, -, rfl⟩ := known d mem
      have names : (h.repository store).identity.internal = "_id" := internal
      rw [names]
      exact ⟨s, List.lookup_cons_self⟩
    obtain ⟨added, ids, adds, stored, keys, rfl⟩ :=
      Memory.backend_insertEach_adds named bulk told
    obtain rfl := Except.ok.inj (Except.liftMisuse_eq_ok.1 members_eq)
    refine ⟨added, unchanged.trans adds, stored, keys.trans ?_⟩
    simp [Value.text]

end Repository
end Docbase
