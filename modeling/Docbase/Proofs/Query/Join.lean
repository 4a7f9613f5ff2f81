import Docbase.Memory.Contents
import Docbase.Proofs.Pipeline.Lookup
import Docbase.Proofs.Query.Plan

/-!
# Joins

A joined field comes to the documents of a collection that it refers to and that meet the condition
of the join, in the order of the collection. Of each of them its identifier stays, and what the join
selects.

* `Join.apply`: what a join makes of a document, without any stages.
* `Plan.joins_found`: the lookup stages of a query do that for each of its joins, whatever the others
  are.
-/

namespace Docbase

/-- A join of a top-level field with a collection, and the fields to keep of its documents. -/
structure Join where
  field : String
  source : String
  select : Option (List String) := none

namespace Join

variable {identity : Identity} {filter : Document} {documents : List Document} {j : Join}

def entry (j : Join) : String × JoinTarget :=
  (j.field, { collection := .str j.source, select := j.select.map fun names => names.map .str })

structure IsPlain (j : Join) : Prop where
  field : Path.IsName j.field
  select : ∀ name ∈ j.select.getD [], Path.IsName name

def names (identity : Identity) (j : Join) : List String :=
  ((j.select.getD []).filter fun name =>
    !(name == identity.external || name == identity.internal)).eraseDups

theorem mem_names {name : String} : name ∈ j.names identity ↔
    name ∈ j.select.getD [] ∧ name ≠ identity.external ∧ name ≠ identity.internal := by
  rw [names, List.mem_eraseDups, List.mem_filter]
  simp

def reduced (identity : Identity) (j : Join) (g : Document) : Document :=
  (identity.external, .str (Value.field identity.internal g).text) ::
    Pipeline.pick (j.names identity) g

def found (identity : Identity) (filter : Document) (documents : List Document) (j : Join)
    (v : Value) : List Document :=
  ((Pipeline.targets documents v).filter fun g =>
    Except.accepts (Filter.holds (.doc g) (.doc filter))).map (j.reduced identity)

def apply (identity : Identity) (filter : Document) (documents : List Document) (j : Join)
    (d : Document) : Document :=
  Fields.set j.field
    (.list ((j.found identity filter documents (Value.field j.field d)).map .doc)) d

/-! ## Several joins -/

section
variable {filters : String → Document} {contents : Memory.Contents} {joins : List Join}

def applyAll (identity : Identity) (filters : String → Document) (contents : Memory.Contents)
    (joins : List Join) (d : Document) : Document :=
  joins.foldl (fun d j => j.apply identity (filters j.field) (contents.documents j.source) d) d

theorem lookup_applyAll_of_notMem (identity : Identity) (filters : String → Document)
    (contents : Memory.Contents) {name : String} (other : name ∉ joins.map Join.field)
    (d : Document) :
    (applyAll identity filters contents joins d).lookup name = d.lookup name := by
  induction joins generalizing d with
  | nil => rfl
  | cons j rest ih =>
    obtain ⟨here, there⟩ := List.ne_and_not_mem_of_not_mem_cons other
    have later := ih there (j.apply identity (filters j.field) (contents.documents j.source) d)
    rw [apply, Fields.lookup_set_of_ne here] at later
    exact later

theorem lookup_applyAll_of_mem (distinct : (joins.map Join.field).Nodup) (mem : j ∈ joins)
    (d : Document) :
    (applyAll identity filters contents joins d).lookup j.field =
      some (.list ((j.found identity (filters j.field) (contents.documents j.source)
        (Value.field j.field d)).map .doc)) := by
  induction joins generalizing d with
  | nil => cases mem
  | cons first rest ih =>
    obtain ⟨others, distinct⟩ := List.nodup_cons.1 distinct
    rcases List.mem_cons.1 mem with rfl | mem
    · have later := lookup_applyAll_of_notMem identity filters contents others
        (j.apply identity (filters j.field) (contents.documents j.source) d)
      rw [apply, Fields.lookup_set_self] at later
      exact later
    · have different : j.field ≠ first.field := by
        intro same
        rw [← same] at others
        exact others (List.mem_map_of_mem mem)
      have later := ih distinct mem
        (first.apply identity (filters first.field) (contents.documents first.source) d)
      have unchanged : Value.field j.field (first.apply identity (filters first.field)
          (contents.documents first.source) d) = Value.field j.field d := by
        rw [Value.field, apply, Fields.lookup_set_of_ne different, Value.field]
      rw [unchanged] at later
      exact later

end

end Join

namespace Plan

variable {identity : Identity} {q : Query}

def targetFilter (identity : Identity) (conditions : Value) (field : String) :
    Except Failure Document := do
  identity.toInternalValue (← joinCondition conditions field)

def joinStages (identity : Identity) (q : Query) : Except Failure (List Stage) :=
  (q.join.getD []).mapM fun (field, target) => lookupStage identity q.joinConditions field target

theorem targetProjection_entry (identity : Identity) (j : Join) :
    targetProjection identity j.entry.2 =
      .ok ((identity.external, identifierText identity) :: (identity.internal, .int 0) ::
        (j.names identity).map fun name => (name, .int 1)) := by
  have select : j.entry.2.select.getD [] = (j.select.getD []).map .str := by
    rw [Join.entry]
    cases j.select with
    | none => rfl
    | some names => rfl
  let kept := (j.select.getD []).filter fun name =>
    !(name == identity.external || name == identity.internal)
  have filtered : (j.entry.2.select.getD []).filterM (fun name => do
      return !(Value.same name (.str identity.external) || Value.same name (.str identity.internal)) :
        Value → Except Failure Bool) = .ok (kept.map .str) := by
    rw [select]
    refine Except.filterM_eq_ok.2 ⟨fun _ _ => ⟨_, rfl⟩, ?_⟩
    rw [List.filter_map]
    rfl
  have keys : (kept.map Value.str).mapM keyOf = .ok kept := by
    refine Except.mapM_eq_ok.2 ?_
    rw [List.forall₂_map_left_iff, List.forall₂_same]
    exact fun _ _ => rfl
  rw [targetProjection, filtered]
  change (do
    let names ← (kept.map Value.str).mapM keyOf
    return _ : Except Failure Document) = _
  rw [keys]
  refine congrArg Except.ok ?_
  let identifiers : Document :=
    [(identity.external, identifierText identity), (identity.internal, .int 0)]
  have nodup : (Fields.keys identifiers).Nodup := by
    simpa [identifiers, Fields.keys] using identity.distinct
  have new : ∀ name ∈ kept, name ∉ Fields.keys identifiers := by
    intro name mem
    simpa [identifiers, Fields.keys] using (List.mem_filter.1 mem).2
  rw [Fields.ofWrites, List.foldl_append]
  change List.foldl _ (Fields.ofWrites identifiers) _ = _
  rw [Fields.ofWrites_of_nodup nodup, Fields.foldl_set_same new]
  rfl

theorem lookupStage_entry {conditions : Value} {filter : Document} {j : Join}
    (condition : targetFilter identity conditions j.field = .ok filter) :
    ∃ keep : List Stage, lookupStage identity conditions j.field j.entry.2 =
        .ok (.lookup (.str j.source) j.field identity.internal j.field
          (keep ++ [.project ((identity.external, identifierText identity) ::
            (identity.internal, .int 0) ::
            (j.names identity).map fun name => (name, .int 1))])) ∧
      (keep = [.keep filter] ∨ keep = [] ∧ filter = []) := by
  obtain ⟨v, found, written⟩ := Except.bind_eq_ok.1 condition
  refine ⟨if v.truthy then [.keep filter] else [], ?_, ?_⟩
  · refine Except.bind_eq_ok.2 ⟨v, found, Except.bind_eq_ok.2 ⟨filter, written, ?_⟩⟩
    exact Except.bind_eq_ok.2 ⟨_, targetProjection_entry identity j, rfl⟩
  · cases asks : v.truthy with
    | true => exact .inl rfl
    | false =>
      have nothing : identity.toInternalValue v = .ok [] := by
        unfold Identity.toInternalValue
        rw [asks]
        rfl
      rw [nothing] at written
      exact .inr ⟨rfl, (Except.ok.inj written).symm⟩

end Plan

/-! ## Running the stages of joins -/

namespace Pipeline

open Memory (Contents)

variable {identity : Identity} {contents : Contents} {filter : Document} {j : Join}

theorem runStages_targets (foreign : String → List Document) {keep : List Stage}
    {documents : List Document} (kept : keep = [.keep filter] ∨ keep = [] ∧ filter = [])
    (tested : ∀ g ∈ documents, ∃ answer, Filter.holds (.doc g) (.doc filter) = .ok answer)
    (projection : Document) (v : Value) :
    runStages foreign (Stage.renderAll (keep ++ [.project projection]))
        ((targets documents v).map .ofDocument) =
      ((targets documents v).filter fun g =>
        Except.accepts (Filter.holds (.doc g) (.doc filter))).mapM fun g =>
          project (.doc projection) (.ofDocument g) := by
  have accepted : runStages foreign (Stage.renderAll keep)
      ((targets documents v).map .ofDocument) =
        .ok (((targets documents v).filter fun g =>
          Except.accepts (Filter.holds (.doc g) (.doc filter))).map .ofDocument) := by
    rcases kept with rfl | ⟨rfl, rfl⟩
    · rw [runStages_singleton, runStage_keep, filterM_ofDocument]
      refine ⟨_, Except.filterM_eq_ok.2 ⟨fun g mem => ?_, rfl⟩, rfl⟩
      exact tested g (List.mem_filter.1 mem).1
    · have all : (targets documents v).filter (fun g =>
          Except.accepts (Filter.holds (.doc g) (.doc []))) = targets documents v :=
        List.filter_true _
      rw [all]
      rfl
  rw [runStages_append, accepted]
  change runStages _ (Stage.renderAll [.project projection]) _ = _
  rw [runStages_singleton, runStage_project, List.mapM_map]
  rfl

theorem runStages_found (foreign : String → List Document) {keep : List Stage}
    (internal : identity.internal = "_id") (external : Path.IsName identity.external)
    (plain : j.IsPlain) {documents : List Document}
    (keyed : ∀ g ∈ documents, ∃ key, g.lookup "_id" = some (.str key))
    (kept : keep = [.keep filter] ∨ keep = [] ∧ filter = [])
    (tested : ∀ g ∈ documents, ∃ answer, Filter.holds (.doc g) (.doc filter) = .ok answer)
    (v : Value) :
    ∃ found, runStages foreign (Stage.renderAll (keep ++ [.project
        ((identity.external, Plan.identifierText identity) :: (identity.internal, .int 0) ::
          (j.names identity).map fun name => (name, .int 1))]))
        ((targets documents v).map .ofDocument) = .ok found ∧
      found.map Draft.document = j.found identity filter documents v := by
  rw [runStages_targets foreign kept tested, internal]
  refine Except.exists_mapM fun g mem => ?_
  obtain ⟨key, found⟩ := keyed g (List.mem_filter.1 (List.mem_filter.1 mem).1).1
  have stored := Node.lookup_ofFields_str found 1
  have text : Plan.identifierText identity = .doc [("$toString", .str "$_id")] := by
    rw [Plan.identifierText, internal]
    rfl
  have nodup : (identity.external :: j.names identity).Nodup :=
    List.nodup_cons.2 ⟨fun mem => (Join.mem_names.1 mem).2.1 rfl, Fields.nodup_eraseDups _⟩
  have named : ∀ name ∈ identity.external :: j.names identity, Path.IsName name ∧ name ≠ "_id" := by
    rw [← internal]
    refine List.forall_mem_cons.2 ⟨⟨external, identity.distinct⟩, fun name mem => ?_⟩
    obtain ⟨selected, -, other⟩ := Join.mem_names.1 mem
    exact ⟨plain.select name selected, other⟩
  obtain ⟨result, projected, document⟩ := project_target named nodup
    (Draft.sound_ofDocument g).inner stored
  refine ⟨result, ?_, ?_⟩
  · rw [text]
    exact projected
  · rw [document, Draft.document_ofDocument, Join.reduced, internal, Value.field, found]
    rfl

theorem runStage_join {conditions : Value}
    (internal : identity.internal = "_id") (external : Path.IsName identity.external)
    (plain : j.IsPlain)
    (keyed : ∀ g ∈ contents.documents j.source, ∃ key, g.lookup "_id" = some (.str key))
    (condition : Plan.targetFilter identity conditions j.field = .ok filter)
    (tested : ∀ g ∈ contents.documents j.source, ∃ answer,
      Filter.holds (.doc g) (.doc filter) = .ok answer) :
    ∃ stage, Plan.lookupStage identity conditions j.field j.entry.2 = .ok stage ∧
      ∀ drafts : List Draft, (∀ d ∈ drafts, d.Sound) → ∃ results,
        runStage (fun other => contents.documents other) stage.render drafts = .ok results ∧
        (∀ d ∈ results, d.Sound) ∧
        results.map Draft.document = (drafts.map Draft.document).map
          (j.apply identity filter (contents.documents j.source)) := by
  obtain ⟨keep, planned, kept⟩ := Plan.lookupStage_entry condition
  refine ⟨_, planned, fun drafts sound => ?_⟩
  have each := runStages_found (fun other => contents.documents other) internal external plain
    keyed kept tested
  choose found run documents using each
  have lookedUp := runStage_lookup_eq_ok keyed plain.field fun d (_ : d ∈ drafts) =>
    run (Value.field j.field d.document)
  rw [internal]
  rw [internal] at lookedUp
  refine ⟨_, lookedUp, List.forall_mem_map.2 fun d mem => (sound d mem).setDrafts plain.field _, ?_⟩
  rw [List.map_map, List.map_map]
  refine List.map_congr_left fun d mem => ?_
  have values : (found (Value.field j.field d.document)).map Draft.value =
      (j.found identity filter (contents.documents j.source)
        (Value.field j.field d.document)).map .doc := by
    rw [← documents, List.map_map]
    rfl
  rw [Function.comp_apply, Draft.document_setDrafts (sound d mem) plain.field, values]
  rfl

theorem runStages_joins {conditions : Value} {filters : String → Document} {joins : List Join}
    (internal : identity.internal = "_id") (external : Path.IsName identity.external)
    (plain : ∀ j ∈ joins, j.IsPlain)
    (keyed : ∀ j ∈ joins, ∀ g ∈ contents.documents j.source,
      ∃ key, g.lookup "_id" = some (.str key))
    (condition : ∀ j ∈ joins,
      Plan.targetFilter identity conditions j.field = .ok (filters j.field))
    (tested : ∀ j ∈ joins, ∀ g ∈ contents.documents j.source, ∃ answer,
      Filter.holds (.doc g) (.doc (filters j.field)) = .ok answer) :
    ∃ stages, (joins.map Join.entry).mapM (fun (field, target) =>
        Plan.lookupStage identity conditions field target) = .ok stages ∧
      ∀ drafts : List Draft, (∀ d ∈ drafts, d.Sound) → ∃ results,
        runStages (fun other => contents.documents other) (Stage.renderAll stages) drafts =
          .ok results ∧
        results.map Draft.document = (drafts.map Draft.document).map
          (Join.applyAll identity filters contents joins) := by
  induction joins with
  | nil =>
    refine ⟨[], rfl, fun drafts _ => ⟨drafts, rfl, ?_⟩⟩
    exact (List.map_id _).symm
  | cons j rest ih =>
    obtain ⟨plain, othersPlain⟩ := List.forall_mem_cons.1 plain
    obtain ⟨keyed, othersKeyed⟩ := List.forall_mem_cons.1 keyed
    obtain ⟨condition, otherConditions⟩ := List.forall_mem_cons.1 condition
    obtain ⟨tested, othersTested⟩ := List.forall_mem_cons.1 tested
    obtain ⟨stage, planned, here⟩ := runStage_join internal external plain keyed condition tested
    obtain ⟨stages, others, there⟩ := ih othersPlain othersKeyed otherConditions othersTested
    refine ⟨stage :: stages, ?_, fun drafts sound => ?_⟩
    · rw [Except.mapM_eq_ok] at others ⊢
      exact .cons planned others
    · obtain ⟨between, run, betweenSound, documents⟩ := here drafts sound
      obtain ⟨results, run', documents'⟩ := there between betweenSound
      refine ⟨results, Except.bind_eq_ok.2 ⟨between, run, run'⟩, ?_⟩
      rw [documents', documents, List.map_map]
      rfl

end Pipeline

namespace Plan

open Memory (Contents)

section
variable {identity : Identity} {contents : Contents} {q : Query} {joins : List Join}
  {filters : String → Document}

theorem run_joinStages (internal : identity.internal = "_id")
    (external : Path.IsName identity.external)
    (keyed : ∀ name, ∀ g ∈ contents.documents name, ∃ key, g.lookup "_id" = some (.str key))
    (asked : q.join.getD [] = joins.map Join.entry) (plain : ∀ j ∈ joins, j.IsPlain)
    (conditions : ∀ j ∈ joins,
      targetFilter identity q.joinConditions j.field = .ok (filters j.field))
    (tested : ∀ j ∈ joins, ∀ g ∈ contents.documents j.source, ∃ answer,
      Filter.holds (.doc g) (.doc (filters j.field)) = .ok answer) :
    ∃ lookups, joinStages identity q = .ok lookups ∧
      ∀ roots, Pipeline.run (fun other => contents.documents other) roots
        (.list (Stage.renderAll lookups)) =
          .ok (roots.map (Join.applyAll identity filters contents joins)) := by
  obtain ⟨lookups, planned, runs⟩ := Pipeline.runStages_joins internal external plain
    (fun j _ => keyed j.source) conditions tested
  rw [← asked] at planned
  refine ⟨lookups, planned, fun roots => ?_⟩
  have sound : ∀ d ∈ roots.map Draft.ofDocument, d.Sound :=
    List.forall_mem_map.2 fun d _ => Draft.sound_ofDocument d
  obtain ⟨results, run, documents⟩ := runs _ sound
  rw [Draft.map_document_ofDocument] at documents
  rw [← documents]
  exact Except.bind_eq_ok.2 ⟨results, run, rfl⟩

/-- The lookup stages of a query replace each joined field by the documents that its value refers
to and that meet the condition of the join, reduced to their identifiers and the selected fields.
All other fields stay, and each joined field becomes what it becomes without the other joins. -/
theorem joins_found (internal : identity.internal = "_id")
    (external : Path.IsName identity.external)
    (keyed : ∀ name, ∀ g ∈ contents.documents name, ∃ key, g.lookup "_id" = some (.str key))
    (asked : q.join.getD [] = joins.map Join.entry) (distinct : (joins.map Join.field).Nodup)
    (plain : ∀ j ∈ joins, j.IsPlain)
    (conditions : ∀ j ∈ joins,
      targetFilter identity q.joinConditions j.field = .ok (filters j.field))
    (tested : ∀ j ∈ joins, ∀ g ∈ contents.documents j.source, ∃ answer,
      Filter.holds (.doc g) (.doc (filters j.field)) = .ok answer) :
    ∃ lookups result, joinStages identity q = .ok lookups ∧
      (∀ single plan, ofQuery identity single q = .ok plan →
        ∃ before after, plan.stages = before ++ lookups ++ after) ∧
      (∀ roots, Pipeline.run (fun other => contents.documents other) roots
        (.list (Stage.renderAll lookups)) = .ok (roots.map result)) ∧
      (∀ d : Document, ∀ j ∈ joins, (result d).lookup j.field =
        some (.list ((j.found identity (filters j.field) (contents.documents j.source)
          (Value.field j.field d)).map .doc))) ∧
      (∀ d : Document, ∀ name, name ∉ joins.map Join.field →
        (result d).lookup name = d.lookup name) ∧
      ∀ j ∈ joins, ∃ lookup alone,
        joinStages identity { q with join := some [j.entry] } = .ok lookup ∧
        (∀ roots, Pipeline.run (fun other => contents.documents other) roots
          (.list (Stage.renderAll lookup)) = .ok (roots.map alone)) ∧
        ∀ d, (alone d).lookup j.field = (result d).lookup j.field := by
  obtain ⟨lookups, planned, runs⟩ :=
    run_joinStages internal external keyed asked plain conditions tested
  refine ⟨lookups, Join.applyAll identity filters contents joins, planned, ?_, runs,
    fun d j mem => Join.lookup_applyAll_of_mem distinct mem d,
    fun d name other => Join.lookup_applyAll_of_notMem identity filters contents other d, ?_⟩
  · intro single plan compiled
    obtain ⟨before, shape, -, shaped, rfl⟩ := ofQuery_eq_ok.1 compiled
    obtain ⟨lookups', planned', h⟩ := Except.bind_eq_ok.1 shaped
    obtain rfl := Except.ok.inj (planned.symm.trans planned')
    obtain ⟨aliases, -, h⟩ := Except.bind_eq_ok.1 h
    obtain ⟨projection, -, h⟩ := Except.bind_eq_ok.1 h
    obtain rfl := Except.pure_eq_ok.1 h
    exact ⟨before, _, by simp only [List.append_assoc]; rfl⟩
  · intro j mem
    have only {P : Join → Prop} (every : ∀ j ∈ joins, P j) : ∀ i ∈ [j], P i :=
      List.forall_mem_singleton.2 (every j mem)
    obtain ⟨lookup, planned, runs⟩ := run_joinStages (q := { q with join := some [j.entry] })
      internal external keyed rfl (only plain) (only conditions) (only tested)
    have single : ([j].map Join.field).Nodup := List.nodup_singleton j.field
    refine ⟨lookup, _, planned, runs, fun d => ?_⟩
    rw [Join.lookup_applyAll_of_mem single List.mem_cons_self,
      Join.lookup_applyAll_of_mem distinct mem]

end

def library : Contents :=
  { collections := [
    ("authors", { records := [
      (.str "ann", [("_id", .str "ann"), ("name", .str "Ann"), ("age", .int 40)]),
      (.str "bob", [("_id", .str "bob"), ("name", .str "Bob")])] }),
    ("tags", { records := [(.str "t", [("_id", .str "t"), ("label", .str "new")])] })] }

def credits : List Join :=
  [{ field := "by", source := "authors", select := some ["name", "id", "born", "name"] },
    { field := "tags", source := "tags" }]

def credited : Query :=
  { join := some (credits.map Join.entry), joinConditions := .doc [("by", .doc [("id", .str "ann")])] }

theorem joins_found_credited :
    ∃ lookups result, joinStages default credited = .ok lookups ∧
      (∀ roots, Pipeline.run (fun other => library.documents other) roots
        (.list (Stage.renderAll lookups)) = .ok (roots.map result)) ∧
      (result [("by", .list [.str "bob", .str "ann", .str "ann", .str "eve"]), ("n", .int 1)]).lookup
          "by" = some (.list [.doc [("id", .str "ann"), ("name", .str "Ann")]]) ∧
      (result [("by", .str "bob"), ("tags", .str "t")]).lookup "by" = some (.list []) ∧
      (result [("by", .str "bob"), ("tags", .str "t")]).lookup "tags" =
        some (.list [.doc [("id", .str "t")]]) ∧
      (result [("n", .int 1)]).lookup "tags" = some (.list []) := by
  have keyed : ∀ name, ∀ g ∈ library.documents name, ∃ key, g.lookup "_id" = some (.str key) := by
    intro name
    by_cases authors : name = "authors"
    · subst authors
      exact List.forall_mem_cons.2 ⟨⟨"ann", rfl⟩, List.forall_mem_singleton.2 ⟨"bob", rfl⟩⟩
    · by_cases tags : name = "tags"
      · subst tags
        exact List.forall_mem_singleton.2 ⟨"t", rfl⟩
      · have nothing : library.documents name = [] := by
          simp [library, Contents.documents, Contents.collection, Memory.Collection.documents,
            List.lookup_cons, beq_false_of_ne authors, beq_false_of_ne tags]
        rw [nothing]
        exact fun g mem => absurd mem List.not_mem_nil
  have plain : ∀ j ∈ credits, j.IsPlain :=
    List.forall_mem_cons.2 ⟨⟨by decide, by decide⟩,
      List.forall_mem_singleton.2 ⟨by decide, by decide⟩⟩
  let filters : String → Document := fun field => if field = "by" then [("_id", .str "ann")] else []
  have conditions : ∀ j ∈ credits,
      targetFilter default credited.joinConditions j.field = .ok (filters j.field) :=
    List.forall_mem_cons.2 ⟨by with_unfolding_all rfl,
      List.forall_mem_singleton.2 (by with_unfolding_all rfl)⟩
  have tested : ∀ j ∈ credits, ∀ g ∈ library.documents j.source, ∃ answer,
      Filter.holds (.doc g) (.doc (filters j.field)) = .ok answer :=
    List.forall_mem_cons.2 ⟨List.forall_mem_cons.2 ⟨⟨true, by with_unfolding_all rfl⟩,
        List.forall_mem_singleton.2 ⟨false, by with_unfolding_all rfl⟩⟩,
      List.forall_mem_singleton.2 (List.forall_mem_singleton.2 ⟨true, by with_unfolding_all rfl⟩)⟩
  obtain ⟨lookups, result, planned, -, runs, found, -⟩ := joins_found (q := credited)
    rfl (by decide) keyed rfl (by decide) plain conditions tested
  have by_mem : credits[0] ∈ credits := List.mem_cons_self
  have tags_mem : credits[1] ∈ credits := List.mem_cons_of_mem _ List.mem_cons_self
  exact ⟨lookups, result, planned, runs, (found _ _ by_mem).trans (by with_unfolding_all rfl),
    (found _ _ by_mem).trans (by with_unfolding_all rfl),
    (found _ _ tags_mem).trans (by with_unfolding_all rfl),
    (found _ _ tags_mem).trans (by with_unfolding_all rfl)⟩

end Plan
end Docbase
