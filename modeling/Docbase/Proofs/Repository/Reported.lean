import Docbase.Proofs.Identity
import Docbase.Proofs.Repository.Identifiers
import Docbase.Proofs.Repository.Insertion

/-!
# The identifiers that inserts return

Where documents are stored under their internal identifier, `_id`, the identifiers that an insert
returns are those under which reads list what it has added. Under another internal name the store
makes up an `_id` of its own, and inserts return that one, which no read reports.

* `Repository.identifiers_reported` is the theorem, `Repository.identifier_unreported` what comes of
  another internal name.
-/

namespace Docbase

def Page.followedBy (page : Page) (documents : List Document) : Page :=
  { documents := page.documents ++ documents
    total := .int (page.documents ++ documents).length }

namespace Repository

open Memory (World SessionId Handle KeySource)

variable {h : Handle} {store : String} {v w : World} {reader : Option SessionId}

theorem everything_of_adds (internal : h.identity.internal = "_id")
    (ids : List String) {added : List (Value × Document)} (adds : w.Adds store h.name added v)
    (stored : ∀ r ∈ added, r.2.lookup "_id" = some r.1) (texts : added.map (·.1) = ids.map .str) :
    ∃ shown : List Document,
      shown.map (fun d => d.lookup h.identity.external) = ids.map (fun id => some (.str id)) ∧
        (h.repository store).everything store v =
          ((h.repository store).everything store w).followedBy shown := by
  have shown : ∀ r ∈ added, (h.identity.toExternal r.2).lookup h.identity.external = some r.1 := by
    intro r mem
    have key : r.1 ∈ ids.map .str := texts ▸ List.mem_map_of_mem mem
    obtain ⟨id, -, key⟩ := List.mem_map.1 key
    rw [← key]
    exact Identity.lookup_external_toExternal (by rw [internal, stored r mem, key])
  refine ⟨added.map fun r => h.identity.toExternal r.2, ?_, ?_⟩
  · calc (added.map fun r => h.identity.toExternal r.2).map (fun d => d.lookup h.identity.external)
        = added.map (fun r => some r.1) := by
          rw [List.map_map]
          exact List.map_congr_left shown
      _ = (added.map (·.1)).map some := List.map_map.symm
      _ = ids.map (fun id => some (.str id)) := by
          rw [texts, List.map_map]
          rfl
  · have records : ((v.contents store).documents h.name) =
        (w.contents store).documents h.name ++ added.map (·.2) := by
      rw [Memory.Contents.documents, Memory.Collection.documents, adds.records, List.map_append]
      rfl
    have name : (h.repository store).name = h.name := rfl
    simp only [everything, Page.followedBy, name, records, List.map_append, List.map_map,
      List.length_append, List.length_map]
    rfl

/-- Whatever is in the store, inserts return the identifiers under which reads list afterwards what
they have added, in order, be it all that they were handed or not. -/
theorem identifiers_reported (internal : h.identity.internal = "_id") (texts : h.keys.DrawsTexts)
    (accepted : w.refusal store reader = none) :
    let r := h.repository store
    ∃ before, (r.findMany (.data .null) reader w).1 = .ok before ∧
      (∀ data declared caller id v, r.insert data declared caller w = (.ok id, v) →
        ∃ d : Document, d.lookup h.identity.external = some (.str id) ∧
          (r.findMany (.data .null) reader v).1 = .ok (before.followedBy [d])) ∧
      ∀ datas declared caller ids v, r.insertMany datas declared caller w = (.ok ids, v) →
        ∃ added : List Document,
          added.map (fun d => d.lookup h.identity.external) =
              ids.map (fun id => some (.str id)) ∧
            (r.findMany (.data .null) reader v).1 = .ok (before.followedBy added) := by
  intro r
  have stored : r.backend = Memory.backend store := rfl
  refine ⟨_, findMany_everything stored accepted rfl rfl, ?_, ?_⟩
  · intro data declared caller id v inserted
    obtain ⟨fields, rfl, -, -, adds⟩ := insert_returns texts internal inserted
    obtain ⟨shown, identifiers, after⟩ := everything_of_adds internal [id] adds
      (List.forall_mem_singleton.2 List.lookup_cons_self) rfl
    obtain ⟨d, rfl, identifier⟩ := List.map_eq_singleton_iff.1 identifiers
    refine ⟨d, identifier, ?_⟩
    rw [findMany_everything stored ((adds.refusal reader).trans accepted) rfl rfl, after]
  · intro datas declared caller ids v inserted
    obtain ⟨added, adds, named, ids_eq⟩ := insertMany_returns texts internal inserted
    obtain ⟨shown, identifiers, after⟩ := everything_of_adds internal ids adds named ids_eq
    refine ⟨shown, identifiers, ?_⟩
    rw [findMany_everything stored ((adds.refusal reader).trans accepted) rfl rfl, after]

def clashing : Handle := { name := "notes", keys := World.users.keys }

def annAndBob : Value := .list [.doc [("by", .str "ann")], .doc [("by", .str "bob")]]

theorem identifiers_reported_annAndBob :
    let r := clashing.repository "main"
    ∃ before added v, r.insertMany annAndBob .null none notebook = (.ok ["k1"], v) ∧
      (r.findMany (.data .null) none notebook).1 = .ok before ∧
      added.map (fun d => d.lookup "id") = [some (.str "k1")] ∧
      (r.findMany (.data .null) none v).1 = .ok (before.followedBy added) := by
  intro r
  have inserted : r.insertMany annAndBob .null none notebook =
      (.ok ["k1"], (r.insertMany annAndBob .null none notebook).2) :=
    Prod.ext (by with_unfolding_all rfl) rfl
  have internal : clashing.identity.internal = "_id" := rfl
  have accepted : notebook.refusal "main" none = none := rfl
  obtain ⟨before, listed, -, bulk⟩ :=
    identifiers_reported internal World.users_isKnownBy.keys accepted
  obtain ⟨added, identifiers, after⟩ := bulk _ _ _ _ _ inserted
  exact ⟨before, added, _, inserted, listed, identifiers, after⟩

/-- Users who are stored under their internal identifier in a field of its own. -/
def usersByKey : Handle := { World.users with identity := .keyed }

/-- The user is listed under the key that was drawn, but the insert has returned another one, which
the store has made up. -/
theorem identifier_unreported :
    usersByKey.keys.DrawsTexts ∧
      let r := usersByKey.repository "main"
      let added := r.insert (.doc [("name", .str "Ann")]) .null none (World.empty true)
      added.1 = .ok "00000000-0000-4000-8000-000000000000" ∧
        (r.findMany (.data .null) none added.2).1 = .ok {
          documents := [[("name", .str "Ann"),
            ("_id", .str "00000000-0000-4000-8000-000000000000"), ("id", .str "k1")]]
          total := .int 1 } :=
  ⟨World.users_isKnownBy.keys, by with_unfolding_all rfl, by with_unfolding_all rfl⟩

end Repository
end Docbase
