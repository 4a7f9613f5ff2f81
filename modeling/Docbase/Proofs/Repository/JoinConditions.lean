import Docbase.Proofs.Filter.Rewriting
import Docbase.Proofs.Pipeline.Joined
import Docbase.Proofs.Query.Grammar
import Docbase.Proofs.Repository.Clause
import Docbase.Proofs.Repository.Restriction

/-!
# Conditions of joins and where clauses

A condition of a join that is flat selects what it selects as a where clause: the documents in a
joined field are those that a read of the other collection finds by the identifiers that were
joined and by the condition. A condition that uses the keys of junctions is taken for conditions on
fields with these names, and selects other documents than as a where clause.

* `Filter.select_referenceFilter`: a read by identifiers and a condition keeps what a join keeps.
* `Repository.findMany_join`: what a read with one join returns.
* `Repository.join_selects` is the theorem, and `Repository.join_misses` shows a junction.
-/

namespace Docbase

open Memory (World SessionId)

/-! ## Reads by identifiers -/

namespace Where

variable {identity : Identity} {fields : Document}

/-- The clause that asks for documents with one of some identifiers that meet a condition. -/
def reference (external : String) (keys : List String) (fields : Document) : Value :=
  .doc [("and", .list [.doc [(external, .doc [("$in", .list (keys.map .str))])], .doc fields])]

def referenceFilter (keys : List String) (filter : Document) : Document :=
  [("$and", .list [.doc [("_id", .doc [("$in", .list (keys.map .str))])], .doc filter])]

theorem exists_read_flat (flat : ∀ kind : Junction, kind.key ∉ Fields.keys fields) :
    ∃ p, read (.doc fields) = .ok p := by
  by_cases single : fields.length = 1
  · obtain ⟨⟨key, v⟩, rfl⟩ := List.length_eq_one_iff.1 single
    rw [plain_iff] at flat
    exact ⟨_, read_field_of_none (by simpa using flat)⟩
  · exact (exists_read_fields_iff single).2 flat

theorem toFilter_reference {external : String} (plain : ∀ kind : Junction, kind.key ≠ external)
    (flat : ∀ kind : Junction, kind.key ∉ Fields.keys fields) (keys : List String) :
    toFilter (reference external keys fields) = .ok [("$and", .list [
      .doc [(external, .doc [("$in", .list (keys.map .str))])], .doc fields])] := by
  have identified (kind : Junction) :
      kind.key ∉ Fields.keys [(external, Value.doc [("$in", .list (keys.map .str))])] := by
    simpa [Fields.keys] using plain kind
  have known : Junction.ofKey? "and" = some .all := rfl
  obtain ⟨p, accepted⟩ := (exists_read_junction_iff known).2 ⟨List.cons_ne_nil _ _,
    List.forall_mem_cons.2 ⟨exists_read_flat identified,
      List.forall_mem_singleton.2 (exists_read_flat flat)⟩⟩
  have members := filtersOf_eq_ok_iff.2
    (.cons (filterOf_flat identified) (.cons (filterOf_flat flat) .nil))
  refine Except.bind_eq_ok.2 ⟨p, accepted, ?_⟩
  rw [reference, filterOf_field_of_some known (.inl rfl)]
  exact Except.bind_eq_ok.2 ⟨_, members, rfl⟩

theorem toInternal_reference (internal : identity.internal = "_id")
    (plain : identity.external ≠ "$and") (keys : List String) (fields : Document) :
    identity.toInternal [("$and", .list [
      .doc [(identity.external, .doc [("$in", .list (keys.map .str))])], .doc fields])] =
        referenceFilter keys (identity.toInternal fields) := by
  have connective : Identity.isConnective "$and" = true := by decide
  have renamed : identity.toInternal
      [(identity.external, .doc [("$in", .list (keys.map .str))])] =
        [("_id", .doc [("$in", .list (keys.map .str))])] := by
    simp [Identity.toInternal, Identity.renameFields, internal, Fields.ofWrites, Fields.set]
  rw [referenceFilter, ← renamed]
  simp only [Identity.toInternal, Identity.renameFields, Identity.renameItems, plain.symm,
    connective, if_false, if_true]
  rfl

end Where

namespace Filter

theorem meetsSome_keys (key : String) (keys : List String) :
    meetsSome (.str key) (keys.map .str) =
      .ok (Pipeline.refersTo key (.list (keys.map .str))) := by
  induction keys with
  | nil => rfl
  | cons other rest ih =>
    have first : meets (.str key) (.str other) = .ok (Pipeline.isKey key (.str other)) := by
      rw [← Pipeline.isEqual_str]
      rfl
    rw [List.map_cons, meetsSome, first, ih]
    simp only [Pipeline.refersTo, List.any_cons]
    cases Pipeline.isKey key (.str other) <;> rfl

theorem holds_referenceFilter {g : Document} {key : String}
    (stored : g.lookup "_id" = some (.str key)) (keys : List String) (filter : Document) :
    holds (.doc g) (.doc (Where.referenceFilter keys filter)) =
      if Pipeline.refersTo key (.list (keys.map .str)) then holds (.doc g) (.doc filter)
      else .ok false := by
  have name : Path.IsName "_id" := by decide
  have read : (Value.doc g).get "_id" = .ok (.str key) := by
    rw [Value.get_doc name.parts, Value.field, stored]
    rfl
  have identified : holds (.doc g) (.doc [("_id", .doc [("$in", .list (keys.map .str))])]) =
      .ok (Pipeline.refersTo key (.list (keys.map .str))) := by
    rw [holds_single_path (by decide) read, meets_among, meetsSome_keys]
  have known : Connective.ofKey? "$and" = some .and := rfl
  rw [Where.referenceFilter, holds_single_list known]
  simp only [holdsList, holdsEvery, identified]
  cases Pipeline.refersTo key (.list (keys.map .str)) with
  | false => rfl
  | true => exact bind_true_or _

/-- The documents that such a filter keeps are those of a join. -/
theorem select_referenceFilter {documents : List Document} {filter : Document}
    (keyed : ∀ g ∈ documents, ∃ key, g.lookup "_id" = some (.str key))
    (tested : ∀ g ∈ documents, ∃ answer, holds (.doc g) (.doc filter) = .ok answer)
    (keys : List String) :
    select (.doc (Where.referenceFilter keys filter)) documents =
      .ok (Join.meeting filter documents (.list (keys.map .str))) := by
  refine Except.filterM_eq_ok.2 ⟨fun g mem => ?_, ?_⟩
  · obtain ⟨key, stored⟩ := keyed g mem
    rw [holds_referenceFilter stored]
    split
    · exact tested g mem
    · exact ⟨false, rfl⟩
  · rw [Join.meeting, Pipeline.targets, List.filter_filter]
    refine List.filter_congr fun g mem => ?_
    obtain ⟨key, stored⟩ := keyed g mem
    rw [holds_referenceFilter stored, Value.field, stored, Option.getD_some, Value.text]
    cases Pipeline.refersTo key (.list (keys.map .str)) with
    | false => exact Bool.and_false _
    | true => exact Bool.and_true _

end Filter

namespace Identity

variable {identity : Identity} {d : Document} {documents : List Document} {path : String}

theorem toInternalValue_doc (identity : Identity) (fields : Document) :
    identity.toInternalValue (.doc fields) = .ok (identity.toInternal fields) := by
  cases fields with
  | nil => simp [toInternalValue, Value.truthy, toInternal, renameFields, Fields.ofWrites]
  | cons first rest => rfl

theorem get_toExternal (internal : Path.first path ≠ identity.internal)
    (external : Path.first path ≠ identity.external) :
    (Value.doc (identity.toExternal d)).get path = (Value.doc d).get path := by
  obtain ⟨rest, parts⟩ := Path.exists_parts path
  rw [Value.get_doc parts, Value.get_doc parts]
  cases found : d.lookup identity.internal with
  | none => rw [toExternal, found]
  | some key => rw [field_toExternal found, if_neg external, if_neg internal]

theorem exists_identifiers
    (keyed : ∀ g ∈ documents, ∃ key, g.lookup "_id" = some (.str key)) :
    ∃ identifiers : List String, documents.map (Value.field "_id") = identifiers.map .str := by
  refine ⟨documents.map fun g => (Value.field "_id" g).text, ?_⟩
  rw [List.map_map]
  refine List.map_congr_left fun g mem => ?_
  obtain ⟨key, found⟩ := keyed g mem
  rw [Function.comp_apply, Value.field, found]
  rfl

theorem identifiers_toExternal (internal : identity.internal = "_id")
    (keyed : ∀ g ∈ documents, ∃ key, g.lookup "_id" = some (.str key)) :
    (documents.map identity.toExternal).map (Value.field identity.external) =
      documents.map (Value.field "_id") := by
  rw [List.map_map]
  refine List.map_congr_left fun g mem => ?_
  obtain ⟨key, found⟩ := keyed g mem
  have shown : (identity.toExternal g).lookup identity.external = some (.str key) :=
    lookup_external_toExternal (by rw [internal, found])
  rw [Function.comp_apply, Value.field, shown, Value.field, found]

end Identity

theorem Path.first_ne_of_list {d : Document} {name key path : String} {items : List Value}
    (stored : d.lookup name = some (.str key)) (read : (Value.doc d).get path = .ok (.list items)) :
    Path.first path ≠ name := by
  -- Behind a text there is no list, and nothing else.
  rintro rfl
  obtain ⟨rest, parts⟩ := Path.exists_parts path
  rw [Value.get_doc parts, Value.field, stored, Option.getD_some] at read
  cases rest with
  | nil => cases read
  | cons part rest =>
    have missing : Value.follow (part :: rest) (.str key) = .ok .missing :=
      Value.follow_missing rest
    rw [missing] at read
    cases read

namespace Repository

variable {store : String} {r t : Repository World SessionId} {caller : Option SessionId} {w : World}
  {j : Join} {input : QueryInput} {conditions : Value} {fields filter : Document}

theorem filter_reference (internal : r.identity.internal = "_id")
    (plain : r.identity.external ∉ ["or", "and", "$and"])
    (flat : ∀ kind : Junction, kind.key ∉ Fields.keys fields) (keys : List String) :
    r.filter (Where.reference r.identity.external keys fields) =
      .ok (Where.referenceFilter keys (r.identity.toInternal fields)) := by
  have junction (kind : Junction) : kind.key ≠ r.identity.external := by
    intro used
    rw [← used] at plain
    cases kind <;> exact plain (by decide)
  have connective : r.identity.external ≠ "$and" := by
    intro used
    rw [used] at plain
    exact plain (by decide)
  refine filter_eq_ok.2 ⟨_, Where.toFilter_reference junction flat keys, ?_⟩
  rw [Where.toInternal_reference internal connective]

theorem results_join {identity : Identity} {contents : Memory.Contents}
    (internal : identity.internal = "_id")
    (keyed : ∀ g ∈ contents.documents j.source, ∃ key, g.lookup "_id" = some (.str key))
    (condition : Plan.targetFilter identity conditions j.field = .ok filter)
    (tested : ∀ g ∈ contents.documents j.source, ∃ answer,
      Filter.holds (.doc g) (.doc filter) = .ok answer)
    {documents found : List Document} {total : Nat} :
    results identity (fun other => contents.documents other) documents
        { join := some [j.entry], joinConditions := conditions } = .ok (found, total) ↔
      ∃ drafts, documents.mapM (j.carryOut identity filter (contents.documents j.source)) =
          .ok drafts ∧
        found = drafts.map Draft.document ∧ total = documents.length := by
  obtain ⟨stage, planned, runs⟩ := Pipeline.runStage_carryOut internal keyed condition tested
  have unfiltered : Plan.filterStages identity (Predicate.clause none) = .ok [] :=
    Plan.filterStages_null identity
  have shaped : Plan.shaping identity { join := some [j.entry], joinConditions := conditions } =
      .ok [stage] := by
    have single : Plan.joinStages identity
        { join := some [j.entry], joinConditions := conditions } = .ok [stage] :=
      Except.mapM_eq_ok.2 (.cons planned .nil)
    exact Except.bind_eq_ok.2 ⟨_, single, rfl⟩
  have whole (drafts : List Draft) : Pipeline.cut none none drafts = drafts :=
    Pipeline.cut_of_nonpos (Int.le_refl _) (Int.le_refl _) drafts
  rw [← runs]
  constructor
  · intro found
    obtain ⟨_, _, _, drafts, h, h', kept, run, rfl, rfl⟩ := results_eq_ok.1 found
    obtain rfl := Except.ok.inj (unfiltered.symm.trans h)
    obtain rfl := Except.ok.inj (shaped.symm.trans h')
    obtain rfl := Except.ok.inj kept
    rw [Pipeline.runStages_singleton] at run
    exact ⟨drafts, run, by rw [whole], List.length_map _⟩
  · rintro ⟨drafts, run, rfl, rfl⟩
    rw [← Pipeline.runStages_singleton] at run
    exact results_eq_ok.2 ⟨[], [stage], _, drafts, unfiltered, shaped, rfl, run, by rw [whole],
      (List.length_map _).symm⟩

/-- What a read with one join returns. -/
theorem findMany_join (stored : r.backend = Memory.backend store)
    (accepted : w.refusal store caller = none) (internal : r.identity.internal = "_id")
    (keyed : ∀ g ∈ (w.contents store).documents j.source, ∃ key, g.lookup "_id" = some (.str key))
    (asked : input.read = .ok (some { join := some [j.entry], joinConditions := conditions }))
    (condition : Plan.targetFilter r.identity conditions j.field = .ok filter)
    (tested : ∀ g ∈ (w.contents store).documents j.source, ∃ answer,
      Filter.holds (.doc g) (.doc filter) = .ok answer) {page : Page} :
    (r.findMany input caller w).1 = .ok page ↔ ∃ drafts,
      ((w.contents store).documents r.name).mapM
        (j.carryOut r.identity filter ((w.contents store).documents j.source)) = .ok drafts ∧
      page = { documents := drafts.map fun d => r.identity.toExternal d.document,
               total := .int ((w.contents store).documents r.name).length } := by
  rw [findMany_eq_ok stored asked, Option.getD_some]
  constructor
  · rintro ⟨-, _, _, found, rfl⟩
    obtain ⟨drafts, run, rfl, rfl⟩ := (results_join internal keyed condition tested).1 found
    exact ⟨drafts, run, by rw [List.map_map]; rfl⟩
  · rintro ⟨drafts, run, rfl⟩
    exact ⟨accepted, _, _, (results_join internal keyed condition tested).2 ⟨drafts, run, rfl, rfl⟩,
      by rw [List.map_map]; rfl⟩

theorem exists_findMany_join (stored : r.backend = Memory.backend store)
    (accepted : w.refusal store caller = none) (internal : r.identity.internal = "_id")
    (keyed : ∀ g ∈ (w.contents store).documents j.source, ∃ key, g.lookup "_id" = some (.str key))
    (asked : input.read = .ok (some { join := some [j.entry], joinConditions := conditions }))
    (condition : Plan.targetFilter r.identity conditions j.field = .ok filter)
    (tested : ∀ g ∈ (w.contents store).documents j.source, ∃ answer,
      Filter.holds (.doc g) (.doc filter) = .ok answer)
    (readable : ∀ d ∈ (w.contents store).documents r.name,
      ∃ v, (Value.doc d).get j.field = .ok v)
    (names : ∀ name ∈ j.select.getD [], Path.IsReadable name) :
    ∃ page, (r.findMany input caller w).1 = .ok page := by
  have every : ∀ d ∈ (w.contents store).documents r.name, ∃ draft, j.carryOut r.identity filter
      ((w.contents store).documents j.source) d = .ok draft := by
    intro d mem
    obtain ⟨v, read⟩ := readable d mem
    exact Join.exists_carryOut _ _ _ names read
  obtain ⟨drafts, run⟩ := Except.exists_mapM_eq_ok every
  exact ⟨_, (findMany_join stored accepted internal keyed asked condition tested).2
    ⟨drafts, run, rfl⟩⟩

theorem exists_joined (target : t.backend = Memory.backend store) (same : t.identity = r.identity)
    (source : j.source = t.name) (accepted : w.refusal store caller = none)
    (internal : r.identity.internal = "_id") (external : Path.IsName r.identity.external)
    (plain : r.identity.external ∉ ["or", "and", "$and"])
    (keyed : ∀ g ∈ (w.contents store).documents t.name, ∃ key, g.lookup "_id" = some (.str key))
    (field : Path.first j.field ≠ r.identity.external)
    (selected : ∀ name ∈ j.select.getD [], name = r.identity.external ∨
      Path.first name ≠ r.identity.external)
    (flat : ∀ kind : Junction, kind.key ∉ Fields.keys fields)
    (tested : ∀ g ∈ (w.contents store).documents t.name, ∃ answer,
      Filter.holds (.doc g) (.doc (r.identity.toInternal fields)) = .ok answer)
    {d : Document} {draft : Draft} {key : String} (stored : d.lookup "_id" = some (.str key))
    (carried : j.carryOut r.identity (r.identity.toInternal fields)
      ((w.contents store).documents j.source) d = .ok draft) {keys : List String}
    (read : (Value.doc d).get j.field = .ok (.list (keys.map .str))) :
    ∃ (joined : List Document) (listed : Page) (identifiers : List String),
      (Value.doc (r.identity.toExternal draft.document)).get j.field =
        .ok (.list (joined.map .doc)) ∧
      (t.findMany (.data (.doc [("where",
        Where.reference r.identity.external keys fields)])) caller w).1 = .ok listed ∧
      joined.map (Value.field r.identity.external) = identifiers.map .str ∧
      listed.documents.map (Value.field r.identity.external) = identifiers.map .str := by
  obtain ⟨joined, there, identified⟩ := Join.carryOut_identifies internal external selected
    (source ▸ keyed) read carried
  have compiled : t.filter (Where.reference t.identity.external keys fields) = _ :=
    filter_reference (same ▸ internal) (same ▸ plain) flat keys
  rw [same] at compiled
  have listed := findMany_where target accepted compiled
    (Filter.select_referenceFilter keyed tested keys)
  rw [source] at identified
  -- Both ways lead to the documents that meet the condition, in the order of the collection.
  have meeting (g) (mem : g ∈ Join.meeting (r.identity.toInternal fields)
      ((w.contents store).documents t.name) (.list (keys.map .str))) :
      ∃ key, g.lookup "_id" = some (.str key) :=
    keyed g (List.mem_filter.1 (List.mem_filter.1 mem).1).1
  have first : Path.first j.field ≠ r.identity.internal :=
    internal ▸ Path.first_ne_of_list stored read
  obtain ⟨identifiers, known⟩ := Identity.exists_identifiers meeting
  refine ⟨joined, _, identifiers, ?_, listed, identified.trans known, ?_⟩
  · rw [Identity.get_toExternal first field, there]
  · rw [same]
    exact (Identity.identifiers_toExternal internal meeting).trans known

/-- A flat condition of a join selects what it selects as a where clause: where a document has a
list of identifiers, the documents in the joined field are those that a read of the other
collection finds by these identifiers and the condition. -/
theorem join_selects (root : r.backend = Memory.backend store)
    (target : t.backend = Memory.backend store) (same : t.identity = r.identity)
    (source : j.source = t.name) (accepted : w.refusal store caller = none)
    (internal : r.identity.internal = "_id") (external : Path.IsName r.identity.external)
    (plain : r.identity.external ∉ ["or", "and", "$and"])
    (keyed : ∀ name, ∀ g ∈ (w.contents store).documents name,
      ∃ key, g.lookup "_id" = some (.str key))
    (field : Path.first j.field ≠ r.identity.external)
    (selected : ∀ name ∈ j.select.getD [], name = r.identity.external ∨
      Path.first name ≠ r.identity.external)
    (asked : input.read = .ok (some { join := some [j.entry], joinConditions := conditions }))
    (condition : Plan.joinCondition conditions j.field = .ok (.doc fields))
    (flat : ∀ kind : Junction, kind.key ∉ Fields.keys fields)
    (tested : ∀ g ∈ (w.contents store).documents t.name, ∃ answer,
      Filter.holds (.doc g) (.doc (r.identity.toInternal fields)) = .ok answer) :
    (∀ page, (r.findMany input caller w).1 = .ok page →
      List.Forall₂ (fun d shown => ∀ keys : List String,
        (Value.doc d).get j.field = .ok (.list (keys.map .str)) →
          ∃ (joined : List Document) (listed : Page) (identifiers : List String),
            (Value.doc shown).get j.field = .ok (.list (joined.map .doc)) ∧
            (t.findMany (.data (.doc [("where",
              Where.reference r.identity.external keys fields)])) caller w).1 = .ok listed ∧
            joined.map (Value.field r.identity.external) = identifiers.map .str ∧
            listed.documents.map (Value.field r.identity.external) = identifiers.map .str)
        ((w.contents store).documents r.name) page.documents) ∧
    ((∀ d ∈ (w.contents store).documents r.name, ∃ v, (Value.doc d).get j.field = .ok v) →
      (∀ name ∈ j.select.getD [], Path.IsReadable name) →
        ∃ page, (r.findMany input caller w).1 = .ok page) := by
  have written : Plan.targetFilter r.identity conditions j.field =
      .ok (r.identity.toInternal fields) := by
    refine Except.bind_eq_ok.2 ⟨_, condition, ?_⟩
    rw [Identity.toInternalValue_doc]
    rfl
  refine ⟨fun page shown => ?_, exists_findMany_join root accepted internal (keyed j.source) asked
    written (source ▸ tested)⟩
  obtain ⟨drafts, run, rfl⟩ := (findMany_join root accepted internal (keyed j.source) asked written
    (source ▸ tested)).1 shown
  dsimp only
  rw [List.forall₂_map_right_iff]
  refine ((List.forall₂_and_left _ _).2 ⟨keyed r.name, Except.mapM_eq_ok.1 run⟩).imp ?_
  rintro d draft ⟨⟨key, stored⟩, carried⟩ keys read
  exact exists_joined target same source accepted internal external plain (keyed t.name) field
    selected flat tested stored carried read

/-! ## Members of teams -/

def crew : List String := ["u3", "u2", "u1", "u3", "gone"]

def teamwork : World :=
  (World.empty true).setContents "main" { collections := [
    ("users", { records := records [
      [("_id", .str "u1"), ("name", .str "Ann"), ("role", .str "lead")],
      [("_id", .str "u2"), ("name", .str "Bob"), ("role", .str "lead")],
      [("_id", .str "u3"), ("name", .str "Cleo")]] }),
    ("projects", { records := records [
      [("_id", .str "p1"), ("team", .doc [("members", .list (crew.map .str))])],
      [("_id", .str "p2"), ("team", .doc [("members", .str "u1")])]] })] }

def users : Repository World SessionId :=
  { backend := Memory.backend "main", name := "users", identity := default,
    newKey := return .null }

def projects : Repository World SessionId := { users with name := "projects" }

def withMembers (condition : Document) : QueryInput :=
  .data (.doc [
    ("join", .doc [("team.members", .doc [("collection_name", .str "users"),
      ("select", .list [.str "name", .str "id"])])]),
    ("joinConditions", .doc [("team.members", .doc condition)])])

theorem join_selects_others :
    ∃ (page : Page) (shown : Document) (joined : List Document),
      (projects.findMany (withMembers [("id", .doc [("$ne", .str "u2")])]) none teamwork).1 =
        .ok page ∧
      shown ∈ page.documents ∧
      (Value.doc shown).get "team.members" = .ok (.list (joined.map .doc)) ∧
      joined.map (Value.field "id") = [.str "u1", .str "u3"] := by
  let j : Join :=
    { field := "team.members", source := "users", select := some ["name", "id"] }
  have keyed : ∀ name, ∀ g ∈ (teamwork.contents "main").documents name,
      ∃ key, g.lookup "_id" = some (.str key) := by
    intro name
    by_cases first : name = "users"
    · subst first
      exact List.forall_mem_cons.2 ⟨⟨"u1", rfl⟩, List.forall_mem_cons.2
        ⟨⟨"u2", rfl⟩, List.forall_mem_singleton.2 ⟨"u3", rfl⟩⟩⟩
    · by_cases second : name = "projects"
      · subst second
        exact List.forall_mem_cons.2 ⟨⟨"p1", rfl⟩, List.forall_mem_singleton.2 ⟨"p2", rfl⟩⟩
      · have nothing : (teamwork.contents "main").documents name = [] := by
          simp [teamwork, World.contents, World.setContents, Memory.Contents.documents,
            Memory.Contents.collection, Memory.Collection.documents, List.lookup_cons,
            beq_false_of_ne first, beq_false_of_ne second]
        rw [nothing]
        exact fun g mem => absurd mem List.not_mem_nil
  have tested : ∀ g ∈ (teamwork.contents "main").documents "users", ∃ answer,
      Filter.holds (.doc g) (.doc (users.identity.toInternal [("id", .doc [("$ne", .str "u2")])])) =
        .ok answer :=
    List.forall_mem_cons.2 ⟨⟨true, by with_unfolding_all rfl⟩, List.forall_mem_cons.2
      ⟨⟨false, by with_unfolding_all rfl⟩,
        List.forall_mem_singleton.2 ⟨true, by with_unfolding_all rfl⟩⟩⟩
  have selected : ∀ name ∈ j.select.getD [], name = "id" ∨ Path.first name ≠ "id" := by
    decide
  have accepted : teamwork.refusal "main" none = none := rfl
  have asked : (withMembers [("id", .doc [("$ne", .str "u2")])]).read = .ok (some {
      join := some [j.entry],
      joinConditions := .doc [("team.members", .doc [("id", .doc [("$ne", .str "u2")])])] }) := by
    with_unfolding_all rfl
  obtain ⟨every, returns⟩ := join_selects (r := projects) (t := users) rfl rfl rfl rfl accepted rfl
    (by decide) (by decide) keyed (by decide) selected asked (by with_unfolding_all rfl)
    (Where.plain_iff.2 (by decide)) tested
  have readable : ∀ d ∈ (teamwork.contents "main").documents "projects",
      ∃ v, (Value.doc d).get "team.members" = .ok v :=
    List.forall_mem_cons.2 ⟨⟨_, by with_unfolding_all rfl⟩,
      List.forall_mem_singleton.2 ⟨_, by with_unfolding_all rfl⟩⟩
  obtain ⟨page, returned⟩ := returns readable (by decide)
  have documents : (teamwork.contents "main").documents projects.name = [
      [("_id", .str "p1"), ("team", .doc [("members", .list (crew.map .str))])],
      [("_id", .str "p2"), ("team", .doc [("members", .str "u1")])]] := rfl
  have each := every page returned
  rw [documents, List.forall₂_cons_left_iff] at each
  obtain ⟨shown, rest, here, -, all⟩ := each
  have members : (Value.doc [("_id", .str "p1"),
      ("team", .doc [("members", .list (crew.map .str))])]).get "team.members" =
        .ok (.list (crew.map .str)) := by
    with_unfolding_all rfl
  obtain ⟨joined, listed, identifiers, there, found, same, expected⟩ := here crew members
  have users : (users.findMany (.data (.doc [("where", Where.reference "id" crew
      [("id", .doc [("$ne", .str "u2")])])])) none teamwork).1 =
        .ok { documents := [[("name", .str "Ann"), ("role", .str "lead"), ("id", .str "u1")],
                [("name", .str "Cleo"), ("id", .str "u3")]],
              total := .int 2 } := by
    with_unfolding_all rfl
  obtain rfl := Except.ok.inj (users.symm.trans found)
  exact ⟨page, shown, joined, returned, all ▸ List.mem_cons_self, there, same.trans expected.symm⟩

def leadsOr (name : String) : Document :=
  [("or", .list [.doc [("role", .str "lead")], .doc [("name", .str name)]])]

def teamSize? (d : Document) : Option Nat :=
  ((Value.doc d).get "team.members").toOption.bind Value.length?

/-- A junction that selects two users as a where clause selects none of them in a join. -/
theorem join_misses :
    (∃ page, (projects.findMany (withMembers (leadsOr "Dora")) none teamwork).1 = .ok page ∧
      page.documents.map teamSize? = [some 0, some 0]) ∧
    (users.findMany (.data (.doc [("where", Where.reference "id" crew (leadsOr "Dora"))])) none
      teamwork).1 = .ok {
        documents := [[("name", .str "Ann"), ("role", .str "lead"), ("id", .str "u1")],
          [("name", .str "Bob"), ("role", .str "lead"), ("id", .str "u2")]],
        total := .int 2 } := by
  have returns : ((projects.findMany (withMembers (leadsOr "Dora")) none
      teamwork).1.toOption.map fun page => page.documents.map teamSize?) =
        some [some 0, some 0] := by
    decide +kernel
  exact ⟨Except.exists_ok_of_map returns, by with_unfolding_all rfl⟩

end Repository
end Docbase
