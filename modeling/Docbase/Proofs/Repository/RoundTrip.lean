import Docbase.Proofs.Memory.Located
import Docbase.Proofs.Repository.Clause
import Docbase.Proofs.Repository.Insertion
import Docbase.Proofs.Repository.Single

/-!
# Reading what was inserted

The identifier that an insert returns is that of one document, which comes back as it was handed
over, but for the identifiers that its data may have named. Every other identifier leads where it
led before.

* `Repository.findSingle_byIdentifier`: what a read by an identifier returns.
* `Repository.findSingle_of_insert` is the theorem.
-/

namespace Docbase

namespace Identity

variable {identity : Identity} {d : Document} {key : String}

theorem toInternal_external (identity : Identity) (v : Value) :
    identity.toInternal [(identity.external, v)] = [(identity.internal, v)] := by
  rw [toInternal, renameFields_external, renameFields]
  rfl

theorem erase_internal_strip (identity : Identity) (d : Document) :
    Fields.erase identity.internal (identity.strip d) = identity.strip d := by
  refine List.filter_eq_self.2 fun field mem => bne_iff_ne.2 ?_
  exact (mem_keys_strip (Fields.mem_keys_of_mem mem)).2.2

theorem toExternal_cons_strip (identity : Identity) (key : String) (d : Document) :
    identity.toExternal ((identity.internal, .str key) :: identity.strip d) =
      identity.strip d ++ [(identity.external, .str key)] := by
  have found : ((identity.internal, .str key) :: identity.strip d).lookup identity.internal =
      some (.str key) := List.lookup_cons_self
  have hidden : identity.external ∉ Fields.keys (identity.strip d) := fun mem =>
    (mem_keys_strip mem).2.1 rfl
  have erased : Fields.erase identity.internal ((identity.internal, .str key) :: identity.strip d) =
      identity.strip d := by
    rw [← erase_internal_strip identity d]
    simp [Fields.erase]
  rw [toExternal, found]
  dsimp only
  rw [erased]
  exact Fields.set_of_notMem hidden _

end Identity

namespace Repository

open Memory (World SessionId Step Handle)

/-! ## Reading by an identifier -/

def identified (identity : Identity) (id : String) : Value := .doc [(identity.external, .str id)]

def byIdentifier (identity : Identity) (id : String) : QueryInput :=
  .data (.doc [("where", identified identity id)])

def isIdentified (id : String) (d : Document) : Bool :=
  Filter.isEqual (Value.field "_id" d) (.str id)

theorem holds_identified (d : Document) (id : String) :
    Filter.holds (.doc d) (.doc [("_id", .str id)]) = .ok (isIdentified id d) := by
  have name : Path.IsName "_id" := by decide
  have read : (Value.doc d).get "_id" = .ok (Value.field "_id" d) := by
    rw [Value.get_doc name.parts, Value.follow]
  have met : Filter.meets (Value.field "_id" d) (.str id) = .ok (isIdentified id d) := rfl
  rw [Filter.holds, Filter.holdsFields_path rfl rfl, read]
  change (Filter.meets (Value.field "_id" d) (.str id) >>= _) = _
  rw [met]
  cases isIdentified id d <;> rfl

theorem select_identified (documents : List Document) (id : String) :
    Filter.select (.doc [("_id", .str id)]) documents =
      .ok (documents.filter (isIdentified id)) := by
  refine Except.filterM_eq_ok.2 ⟨fun d _ => ⟨_, holds_identified d id⟩, ?_⟩
  simp only [holds_identified]
  rfl

variable {store : String} {r : Repository World SessionId} {caller : Option SessionId} {w : World}
  {id : String}

theorem filter_identified (internal : r.identity.internal = "_id")
    (free : Junction.ofKey? r.identity.external = none) (id : String) :
    r.filter (identified r.identity id) = .ok [("_id", .str id)] := by
  refine filter_eq_ok.2 ⟨[(r.identity.external, .str id)], ?_, ?_⟩
  · exact Except.bind_eq_ok.2 ⟨_, Where.read_field_of_none free, Where.filterOf_field_of_none free⟩
  · rw [Identity.toInternal_external, internal]

theorem findSingle_byIdentifier (stored : r.backend = Memory.backend store)
    (internal : r.identity.internal = "_id") (free : Junction.ofKey? r.identity.external = none)
    (accepted : w.refusal store caller = none) (id : String) :
    (r.findSingle (byIdentifier r.identity id) caller w).1 =
      r.firstOf (byIdentifier r.identity id)
        (((w.contents store).documents r.name).filter (isIdentified id)) := by
  obtain ⟨written, toFilter, compiled⟩ := filter_eq_ok.1 (filter_identified internal free id)
  obtain ⟨p, read, -⟩ := Except.bind_eq_ok.1 toFilter
  have select := select_identified ((w.contents store).documents r.name) id
  rw [compiled] at select
  exact findSingle_of_results stored (QueryInput.read_where read) accepted
    (results_of_filter ((Where.toFilter_clause read).trans toFilter) select)

theorem count_identified (stored : r.backend = Memory.backend store)
    (internal : r.identity.internal = "_id") (free : Junction.ofKey? r.identity.external = none)
    (accepted : w.refusal store caller = none) (id : String) :
    (r.count (identified r.identity id) caller w).1 =
      .ok (.int (((w.contents store).documents r.name).filter (isIdentified id)).length) :=
  count_where stored accepted (filter_identified internal free id) (select_identified _ id)

/-! ## Inserting -/

variable {h : Handle} {v : World} {x : Document} {declared : Value} {key : String}

theorem filter_isIdentified_of_adds (located : (w.contents store).EachRecord Memory.Located)
    (fresh : ((w.contents store).collection h.name).hasKey (.str key) = false)
    (adds : w.Adds store h.name [(.str key, ("_id", .str key) :: x)] v) :
    ((v.contents store).documents h.name).filter (isIdentified key) = [("_id", .str key) :: x] ∧
      ∀ id, id ≠ key → ((v.contents store).documents h.name).filter (isIdentified id) =
        ((w.contents store).documents h.name).filter (isIdentified id) := by
  have documents : (v.contents store).documents h.name =
      (w.contents store).documents h.name ++ [("_id", .str key) :: x] := by
    rw [Memory.Contents.documents, Memory.Collection.documents, adds.records, List.map_append]
    rfl
  have identified (id : String) : isIdentified id (("_id", .str key) :: x) = (id == key) := by
    rw [isIdentified, Value.field, List.lookup_cons_self, Option.getD_some, Pipeline.isEqual_str]
    rfl
  have unknown : ((w.contents store).documents h.name).filter (isIdentified key) = [] := by
    rw [List.filter_eq_nil_iff]
    intro d mem known
    obtain ⟨record, there, rfl⟩ := List.mem_map.1 mem
    have under : record.1 = .str key := located h.name record there key known
    have absent := List.any_eq_false.1 fresh record there
    rw [under] at absent
    exact absent (Value.same_self rfl)
  constructor
  · rw [documents, List.filter_append, unknown, List.nil_append, List.filter_singleton, identified]
    simp
  · intro id other
    rw [documents, List.filter_append, List.filter_singleton, identified, beq_false_of_ne other]
    exact List.append_nil _

/-- What an insert has stored comes back under the identifier that it returned, without what its
data named as identifiers, and no other identifier leads anywhere else. -/
theorem findSingle_of_insert (connected : Bool) {steps : List Step}
    (spares : ∀ s ∈ steps, s.SparesStores) (texts : h.keys.DrawsTexts)
    (internal : h.identity.internal = "_id") (free : Junction.ofKey? h.identity.external = none) :
    let w := (World.empty connected).runSteps steps
    let r := h.repository store
    r.insert (.doc x) declared caller w = (.ok key, v) →
      ∀ reader : Option SessionId, w.refusal store reader = none →
        (r.findSingle (byIdentifier h.identity key) reader v).1 =
            .ok (h.identity.strip x ++ [(h.identity.external, .str key)]) ∧
          (r.count (identified h.identity key) reader v).1 = .ok (.int 1) ∧
          ∀ id, id ≠ key → (r.findSingle (byIdentifier h.identity id) reader v).1 =
            (r.findSingle (byIdentifier h.identity id) reader w).1 := by
  intro w r inserted reader accepted
  have everywhere : w.Everywhere (Memory.Contents.EachRecord Memory.Located) :=
    (World.everywhere_empty Memory.Contents.eachRecord_empty connected).runSteps
      Memory.Write.preserves_located spares
  obtain ⟨fields, same, -, fresh, adds⟩ := insert_returns texts internal inserted
  obtain rfl := Value.doc.inj same
  have accepted' : v.refusal store reader = none := (adds.refusal reader).trans accepted
  obtain ⟨this, others⟩ := filter_isIdentified_of_adds (everywhere.contents store) fresh adds
  have stored : r.backend = Memory.backend store := rfl
  refine ⟨?_, ?_, fun id other => ?_⟩
  · have found := findSingle_byIdentifier stored internal free accepted' key
    have shown := Identity.toExternal_cons_strip h.identity key x
    rw [internal] at shown
    exact (found.trans (congrArg (r.firstOf _) this)).trans (congrArg Except.ok shown)
  · have counted := count_identified stored internal free accepted' key
    have one : (((v.contents store).documents h.name).filter (isIdentified key)).length = 1 :=
      congrArg List.length this
    exact counted.trans (congrArg (fun n : Nat => Except.ok (Value.int n)) one)
  · have before := findSingle_byIdentifier stored internal free accepted id
    have after := findSingle_byIdentifier stored internal free accepted' id
    exact (after.trans (congrArg (r.firstOf _) (others id other))).trans before.symm

def bobRenamed : List Step :=
  [.event (.write "main" (.insert "users" (.doc [("_id", .str "a"), ("name", .str "Bob")])) none),
    .event (.write "main" (.insert "users" (.doc [("_id", .str "b"), ("name", .str "Bo")])) none),
    .event (.write "main" (.update "users" (.doc [("name", .str "Bo")])
      (.doc [("_id.x", .str "k1")])) none)]

def annUnderB : Document := [("_id", .str "b"), ("name", .str "Ann"), ("id", .str "a")]

theorem findSingle_of_insert_annUnderB :
    let w := (World.empty true).runSteps bobRenamed
    let r := World.users.repository "main"
    let v := (r.insert (.doc annUnderB) .null none w).2
    (∀ s ∈ bobRenamed, s.SparesStores) ∧ (r.insert (.doc annUnderB) .null none w).1 = .ok "k1" ∧
      (r.findSingle (byIdentifier default "k1") none v).1 =
        .ok [("name", .str "Ann"), ("id", .str "k1")] ∧
      (r.count (identified default "k1") none v).1 = .ok (.int 1) ∧
      (r.findSingle (byIdentifier default "a") none v).1 =
        (r.findSingle (byIdentifier default "a") none w).1 := by
  intro w r v
  have spares : ∀ s ∈ bobRenamed, s.SparesStores := by
    intro s mem
    simp only [bobRenamed, List.mem_cons, List.not_mem_nil, or_false] at mem
    rcases mem with rfl | rfl | rfl <;> trivial
  have inserted : r.insert (.doc annUnderB) .null none w = (.ok "k1", v) :=
    Prod.ext (by with_unfolding_all rfl) rfl
  obtain ⟨found, counted, others⟩ := findSingle_of_insert true spares World.users_isKnownBy.keys rfl
    (by decide) inserted none rfl
  exact ⟨spares, congrArg Prod.fst inserted, found, counted, others "a" (by decide)⟩

end Repository
end Docbase
