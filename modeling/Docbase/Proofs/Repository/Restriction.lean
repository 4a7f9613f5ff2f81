import Docbase.Proofs.Pipeline.Projection
import Docbase.Proofs.Repository.Identifiers

/-!
# Reads of selected fields

A read that selects names returns the documents that it would return otherwise, each restricted to
its identifier and those names. The exception is a selection of the identifier alone, which selects
everything.

* `Repository.selection_restricts` is the theorem for every query without joins and sort keys that
  selects some other name, whose aliases leave the stored identifiers alone.
* `Repository.identifier_selects_all` shows the exception.
-/

namespace Docbase

namespace Identity

variable {identity : Identity} {d : Document} {key : Value}

def shownKey (key : Value) : Value := if key.isNull then .null else .str key.text

theorem field_toExternal (found : d.lookup identity.internal = some key) (name : String) :
    Value.field name (identity.toExternal d) =
      if name = identity.external then shownKey key
      else if name = identity.internal then .missing
      else Value.field name d := by
  rw [toExternal, found]
  dsimp only
  rw [← shownKey, Value.field]
  by_cases external : name = identity.external
  · rw [if_pos external, external, Fields.lookup_set_self, Option.getD_some]
  · rw [if_neg external, Fields.lookup_set_of_ne external]
    by_cases hidden : name = identity.internal
    · rw [if_pos hidden, hidden, Fields.lookup_erase_self, Option.getD_none]
    · rw [if_neg hidden, Fields.lookup_erase_of_ne hidden, Value.field]

theorem mem_selectedPaths {name : String} {names : List String}
    (external : name ≠ identity.external) (internal : name ≠ identity.internal) :
    name ∈ Plan.selectedPaths identity names ↔ name ∈ names := by
  rw [Plan.selectedPaths, List.mem_eraseDups, List.mem_map]
  constructor
  · rintro ⟨other, mem, rfl⟩
    rw [internalName] at internal ⊢
    split
    · rename_i same
      rw [if_pos same] at internal
      exact absurd rfl internal
    · exact mem
  · exact fun mem => ⟨name, mem, if_neg external⟩

theorem isName_selectedPaths {names : List String} (internal : identity.internal = "_id")
    (plain : ∀ name ∈ names, Path.IsName name) :
    ∀ path ∈ Plan.selectedPaths identity names, Path.IsName path := by
  intro path mem
  obtain ⟨name, there, rfl⟩ := List.mem_map.1 (List.mem_eraseDups.1 mem)
  rw [internalName]
  split
  · rw [internal]
    decide
  · exact plain name there

theorem exists_other_selectedPath {names : List String} (internal : identity.internal = "_id")
    (other : ∃ name ∈ names, name ≠ identity.external ∧ name ≠ "_id") :
    ∃ path ∈ Plan.selectedPaths identity names, path ≠ "_id" := by
  obtain ⟨name, there, external, different⟩ := other
  exact ⟨name, (mem_selectedPaths external (internal ▸ different)).2 there, different⟩

theorem field_toExternal_restricted (internal : identity.internal = "_id")
    (found : d.lookup "_id" = some key) (names : List String) (name : String) :
    Value.field name (identity.toExternal
        (Pipeline.restricted (Plan.selectedPaths identity names) d)) =
      if name = identity.external ∨ name ∈ names then Value.field name (identity.toExternal d)
      else .missing := by
  have kept : (Pipeline.restricted (Plan.selectedPaths identity names) d).lookup
      identity.internal = some key := by
    rw [internal, Pipeline.restricted, List.lookup_append, Fields.lookup_filter_self, found]
    rfl
  rw [← internal] at found
  rw [field_toExternal kept, field_toExternal found]
  by_cases external : name = identity.external
  · simp only [external, true_or, if_true]
  · by_cases hidden : name = identity.internal
    · simp only [if_neg external, if_pos hidden, ite_self]
    · rw [internal] at hidden
      have paths : name ∈ Plan.selectedPaths identity names ↔ name ∈ names :=
        mem_selectedPaths external (internal ▸ hidden)
      simp only [external, internal, hidden, if_false, false_or, Pipeline.field_restricted, paths]

end Identity

/-! ## Stages -/

namespace Plan

/-- The aliases leave each of some documents its stored identifier. -/
def KeepsKeys (identity : Identity) (aliases : Value) (documents : List Document) : Prop :=
  ∀ fields, aliasFields identity aliases = .ok fields → ∀ d ∈ documents, ∀ result,
    Pipeline.addFields (.doc fields) (.ofDocument d) = .ok result →
      Fields.has "_id" result.document = true

end Plan

namespace Write

variable {w : Write} {name first : String} {fields : List (String × Node)}

theorem Under.lookup_carryOutRoot_map (under : w.Under 0 first) (other : first ≠ name) :
    (w.carryOutRoot fields).lookup name = (fields.lookup name).map w.carryOut := by
  have carried := lookup_carryOutFields_eq w name fields
  rw [carryOutRoot]
  split
  · rename_i root
    have different : name ≠ w.key := by
      rw [under.key_eq root]
      exact other.symm
    rw [lookup_apply_of_ne different, carried]
  · exact carried

end Write

namespace Plan

variable {identity : Identity} {aliases : Value} {documents : List Document}

theorem keepsKeys_of_spares (identified : ∀ d ∈ documents, Fields.has "_id" d = true)
    (spares : ∀ names, aliases = .doc names →
      ∀ path ∈ Fields.keys names, ¬Path.IsWithin "_id" path) :
    KeepsKeys identity aliases documents := by
  intro fields aliased d mem result run
  have others : ∀ path ∈ Fields.keys fields, Path.first path ≠ "_id" := by
    intro path there same
    rcases keys_aliasFields aliased with rfl | ⟨names, rfl, keys⟩
    · cases there
    · exact spares names rfl path (keys ▸ there) (Path.isWithin_of_first_eq same)
  obtain ⟨⟨parts, between⟩, evaluated, h⟩ := Except.bind_eq_ok.1 run
  obtain rfl := Except.pure_eq_ok.1 h
  have sound := Draft.sound_ofDocument d
  have inner := Expression.gives_evaluateFields sound.inner fields _ sound.next_ne parts between
    evaluated
  rw [← Expression.keys_evaluateFields evaluated] at others
  have nothing : ∀ w ∈ ([] : List Write), w.BringsInner := fun w mem => nomatch mem
  have known : Node.AreInnerFields (Draft.ofDocument d).fields ∧
      ((Draft.ofDocument d).fields.lookup "_id").isSome = true := by
    refine ⟨sound.inner, ?_⟩
    have found := identified d mem
    rwa [← Draft.document_ofDocument d, Fields.has, Draft.document, Node.lookup_fieldValues,
      Option.isSome_map] at found
  obtain ⟨⟨-, found⟩, -⟩ := Pipeline.gives_assign
    (P := fun fields => Node.AreInnerFields fields ∧ (fields.lookup "_id").isSome = true)
    (fun known => known.1) inner.1
    (fun path mem w fields under known => ⟨Write.carryOutRoot_inner under.brings known.1, by
      rw [under.lookup_carryOutRoot_map (others path mem), Option.isSome_map]
      exact known.2⟩)
    nothing known between inner.2
  rw [Fields.has, Draft.document, Node.lookup_fieldValues, Option.isSome_map]
  exact found

end Plan

def Query.selecting (names : List String) (q : Query) : Query :=
  { q with select := some (names.map .str) }

namespace Repository

open Memory (World SessionId)

variable {identity : Identity} {foreign : String → List Document} {documents found : List Document}
  {q : Query} {names : List String} {total : Nat}

theorem results_unjoined (noJoin : q.join.getD [] = [])
    (selects : q.select.getD [] = names.map .str) :
    results identity foreign documents q = .ok (found, total) ↔
      ∃ filter aliases kept added projected sorted,
        Plan.filterStages identity (Predicate.clause q.filter) = .ok filter ∧
        Plan.aliasFields identity q.aliases = .ok aliases ∧
        Pipeline.runStages foreign (Stage.renderAll filter) (documents.map .ofDocument) =
          .ok kept ∧
        kept.mapM (Pipeline.addFields (.doc aliases)) = .ok added ∧
        added.mapM (Pipeline.project (.doc (Pipeline.inclusions
          (Plan.selectedPaths identity names)))) = .ok projected ∧
        Pipeline.runStages foreign (Stage.renderAll (Plan.unlessEmpty .sort
          (Plan.sortKeys identity (q.sort.getD [])))) projected = .ok sorted ∧
        found = (Pipeline.cut q.skip q.limit sorted).map Draft.document ∧
        total = kept.length := by
  simp only [results_eq_ok, Plan.shaping_eq_ok noJoin, selects, Plan.projection_names]
  constructor
  · rintro ⟨filter, _, kept, sorted, filtered, ⟨aliases, _, aliased, projects, rfl⟩, keeps, run,
      rfl, rfl⟩
    obtain rfl := Except.ok.inj projects
    rw [Pipeline.runStages_append, Pipeline.runStages_append] at run
    obtain ⟨projected, run, sorts⟩ := Except.bind_eq_ok.1 run
    obtain ⟨added, adds, projects⟩ := Except.bind_eq_ok.1 run
    rw [Pipeline.runStages_addFields] at adds
    rw [← Pipeline.inclusions, Pipeline.runStages_project] at projects
    exact ⟨filter, aliases, kept, added, projected, sorted, filtered, aliased, keeps, adds,
      projects, sorts, rfl, rfl⟩
  · rintro ⟨filter, aliases, kept, added, projected, sorted, filtered, aliased, keeps, adds,
      projects, sorts, rfl, rfl⟩
    refine ⟨filter, _, kept, sorted, filtered, ⟨aliases, _, aliased, rfl, rfl⟩, keeps, ?_, rfl, rfl⟩
    rw [Pipeline.runStages_append, Pipeline.runStages_append, ← Pipeline.inclusions]
    apply Except.bind_eq_ok.2
    refine ⟨projected, ?_, sorts⟩
    apply Except.bind_eq_ok.2
    refine ⟨added, ?_, ?_⟩
    · rw [Pipeline.runStages_addFields, adds]
    · rw [Pipeline.runStages_project, projects]

theorem results_unselected (noJoin : q.join.getD [] = []) (noSelect : q.select.getD [] = []) :
    results identity foreign documents q = .ok (found, total) ↔
      ∃ filter aliases kept added sorted,
        Plan.filterStages identity (Predicate.clause q.filter) = .ok filter ∧
        Plan.aliasFields identity q.aliases = .ok aliases ∧
        Pipeline.runStages foreign (Stage.renderAll filter) (documents.map .ofDocument) =
          .ok kept ∧
        kept.mapM (Pipeline.addFields (.doc aliases)) = .ok added ∧
        Pipeline.runStages foreign (Stage.renderAll (Plan.unlessEmpty .sort
          (Plan.sortKeys identity (q.sort.getD [])))) added = .ok sorted ∧
        found = (Pipeline.cut q.skip q.limit sorted).map Draft.document ∧
        total = kept.length := by
  have none : q.select.getD [] = ([] : List String).map .str := noSelect
  have nothing : Plan.selectedPaths identity [] = [] := rfl
  rw [results_unjoined noJoin none, nothing]
  simp only [Pipeline.mapM_project_nil, Except.ok.injEq]
  constructor
  · rintro ⟨filter, aliases, kept, added, _, sorted, filtered, aliased, keeps, adds, rfl, rest⟩
    exact ⟨filter, aliases, kept, added, sorted, filtered, aliased, keeps, adds, rest⟩
  · rintro ⟨filter, aliases, kept, added, sorted, filtered, aliased, keeps, adds, rest⟩
    exact ⟨filter, aliases, kept, added, added, sorted, filtered, aliased, keeps, adds, rfl, rest⟩

theorem exists_results_of_selecting (noJoin : q.join.getD [] = [])
    (noSort : q.sort.getD [] = []) (noSelect : q.select.getD [] = [])
    (run : results identity foreign documents (q.selecting names) = .ok (found, total)) :
    ∃ found, results identity foreign documents q = .ok (found, total) := by
  obtain ⟨filter, aliases, kept, added, -, -, filtered, aliased, keeps, adds, -, -, -, rfl⟩ :=
    (results_unjoined (q := q.selecting names) noJoin rfl).1 run
  refine ⟨_, (results_unselected noJoin noSelect).2
    ⟨filter, aliases, kept, added, added, filtered, aliased, keeps, adds, ?_, rfl, rfl⟩⟩
  rw [noSort]
  rfl

theorem sound_added (keeps : Plan.KeepsKeys identity q.aliases documents)
    {filter : List Stage} {aliases : Document} {kept added : List Draft}
    (filtered : Plan.filterStages identity (Predicate.clause q.filter) = .ok filter)
    (aliased : Plan.aliasFields identity q.aliases = .ok aliases)
    (run : Pipeline.runStages foreign (Stage.renderAll filter) (documents.map .ofDocument) =
      .ok kept)
    (adds : kept.mapM (Pipeline.addFields (.doc aliases)) = .ok added) :
    ∀ d ∈ added, d.Sound ∧ Fields.has "_id" d.document = true := by
  intro d mem
  obtain ⟨source, among, added⟩ := Except.mem_of_mapM_ok adds d mem
  obtain ⟨_, selected, -, select, rfl⟩ := Pipeline.runStages_filterStages filtered run
  obtain ⟨document, there, rfl⟩ := List.mem_map.1 among
  obtain ⟨-, rfl⟩ := Except.filterM_eq_ok.1 select
  exact ⟨(Draft.sound_ofDocument document).addFields added,
    keeps aliases aliased document (List.mem_filter.1 there).1 d added⟩

theorem results_selecting (internal : identity.internal = "_id") (noJoin : q.join.getD [] = [])
    (noSort : q.sort.getD [] = []) (noSelect : q.select.getD [] = [])
    (plain : ∀ name ∈ names, Path.IsName name)
    (other : ∃ name ∈ names, name ≠ identity.external ∧ name ≠ "_id")
    (keeps : Plan.KeepsKeys identity q.aliases documents)
    (run : results identity foreign documents q = .ok (found, total)) :
    results identity foreign documents (q.selecting names) =
        .ok (found.map (Pipeline.restricted (Plan.selectedPaths identity names)), total) ∧
      ∀ d ∈ found, Fields.has "_id" d = true := by
  have unsorted : Plan.sortKeys identity (q.sort.getD []) = [] := by
    rw [noSort]
    rfl
  obtain ⟨filter, aliases, kept, added, sorted, filtered, aliased, keeping, adds, sorts, rfl,
    rfl⟩ := (results_unselected noJoin noSelect).1 run
  rw [unsorted] at sorts
  obtain rfl := Except.ok.inj sorts
  have drafts := sound_added keeps filtered aliased keeping adds
  have paths := Identity.isName_selectedPaths internal plain
  have ordinary := Identity.exists_other_selectedPath internal other
  obtain ⟨projected, projects, restricts⟩ := Except.exists_mapM fun d mem =>
    Pipeline.project_names paths (Fields.nodup_eraseDups _) ordinary (drafts d mem).1
  constructor
  · refine (results_unjoined (q := q.selecting names) noJoin rfl).2 ⟨filter, aliases, kept, added,
      projected, projected, filtered, aliased, keeping, adds, projects, ?_, ?_, rfl⟩
    · show Pipeline.runStages foreign (Stage.renderAll (Plan.unlessEmpty .sort
        (Plan.sortKeys identity (q.sort.getD [])))) projected = _
      rw [unsorted]
      rfl
    · show _ = (Pipeline.cut q.skip q.limit projected).map Draft.document
      simp only [← Pipeline.cut_map, restricts, List.map_map, Function.comp_def]
  · intro d mem
    obtain ⟨draft, there, rfl⟩ := List.mem_map.1 mem
    exact (drafts draft (Pipeline.mem_of_mem_cut there)).2

variable {store : String} {r : Repository World SessionId} {caller : Option SessionId} {w : World}
  {input selecting : QueryInput}

theorem findMany_related {p : Query} {R : List Document → List Document → Prop}
    (caller : Option SessionId)
    (stored : r.backend = Memory.backend store) (read : input.read = .ok (some q))
    (selects : selecting.read = .ok (some p))
    (finds : ∀ found total, results r.identity (fun other => (w.contents store).documents other)
        ((w.contents store).documents r.name) q = .ok (found, total) →
      ∃ found', results r.identity (fun other => (w.contents store).documents other)
        ((w.contents store).documents r.name) p = .ok (found', total) ∧ R found found')
    (back : ∀ found' total, results r.identity (fun other => (w.contents store).documents other)
        ((w.contents store).documents r.name) p = .ok (found', total) →
      ∃ found, results r.identity (fun other => (w.contents store).documents other)
        ((w.contents store).documents r.name) q = .ok (found, total)) :
    ((∃ page, (r.findMany input caller w).1 = .ok page) ↔
        ∃ page, (r.findMany selecting caller w).1 = .ok page) ∧
      ∀ page selected, (r.findMany input caller w).1 = .ok page →
        (r.findMany selecting caller w).1 = .ok selected →
          selected.total = page.total ∧ ∃ found found', R found found' ∧
            page.documents = found.map r.identity.toExternal ∧
            selected.documents = found'.map r.identity.toExternal := by
  refine ⟨⟨?_, ?_⟩, ?_⟩
  · intro ⟨page, found⟩
    obtain ⟨accepted, documents, total, run, -⟩ := (findMany_eq_ok stored read).1 found
    obtain ⟨documents', run', -⟩ := finds documents total run
    exact ⟨_, (findMany_eq_ok stored selects).2 ⟨accepted, _, _, run', rfl⟩⟩
  · intro ⟨page, found⟩
    obtain ⟨accepted, documents', total, run', -⟩ := (findMany_eq_ok stored selects).1 found
    obtain ⟨documents, run⟩ := back documents' total run'
    exact ⟨_, (findMany_eq_ok stored read).2 ⟨accepted, _, _, run, rfl⟩⟩
  · intro page selected found found'
    obtain ⟨-, documents, total, run, rfl⟩ := (findMany_eq_ok stored read).1 found
    obtain ⟨-, documents', total', run', rfl⟩ := (findMany_eq_ok stored selects).1 found'
    obtain ⟨other, same, related⟩ := finds documents total run
    obtain ⟨rfl, rfl⟩ := Prod.mk.inj (Except.ok.inj (same.symm.trans run'))
    exact ⟨rfl, documents, other, related, rfl, rfl⟩

/-- A selection restricts each document to the identifier and the names that are selected. -/
theorem selection_restricts (stored : r.backend = Memory.backend store)
    (internal : r.identity.internal = "_id") (read : input.read = .ok (some q))
    (selects : selecting.read = .ok (some (q.selecting names))) (noJoin : q.join.getD [] = [])
    (noSort : q.sort.getD [] = []) (noSelect : q.select.getD [] = [])
    (plain : ∀ name ∈ names, Path.IsName name)
    (other : ∃ name ∈ names, name ≠ r.identity.external ∧ name ≠ "_id")
    (keeps : Plan.KeepsKeys r.identity q.aliases ((w.contents store).documents r.name)) :
    ((∃ page, (r.findMany input caller w).1 = .ok page) ↔
        ∃ page, (r.findMany selecting caller w).1 = .ok page) ∧
      ∀ page selected, (r.findMany input caller w).1 = .ok page →
        (r.findMany selecting caller w).1 = .ok selected →
          selected.total = page.total ∧
            List.Forall₂ (fun d s => ∀ name, Value.field name s =
              if name = r.identity.external ∨ name ∈ names then Value.field name d else .missing)
              page.documents selected.documents := by
  have finds (found : List Document) (total : Nat)
      (run : results r.identity (fun other => (w.contents store).documents other)
        ((w.contents store).documents r.name) q = .ok (found, total)) :
      ∃ found', results r.identity (fun other => (w.contents store).documents other)
          ((w.contents store).documents r.name) (q.selecting names) = .ok (found', total) ∧
        found' = found.map (Pipeline.restricted (Plan.selectedPaths r.identity names)) ∧
        ∀ d ∈ found, Fields.has "_id" d = true := by
    obtain ⟨restricts, identified⟩ :=
      results_selecting internal noJoin noSort noSelect plain other keeps run
    exact ⟨_, restricts, rfl, identified⟩
  obtain ⟨both, related⟩ := findMany_related caller stored read selects finds
    fun found total run => exists_results_of_selecting noJoin noSort noSelect run
  refine ⟨both, fun page selected found found' => ?_⟩
  obtain ⟨total, documents, _, ⟨rfl, identified⟩, shown, shown'⟩ :=
    related page selected found found'
  refine ⟨total, ?_⟩
  rw [shown, shown', List.map_map, List.forall₂_map_left_iff, List.forall₂_map_right_iff,
    List.forall₂_same]
  intro d mem name
  obtain ⟨key, keyed⟩ := Option.isSome_iff_exists.1 (identified d mem)
  exact Identity.field_toExternal_restricted internal keyed names name

def placed : Query where
  aliases := .doc [("place", .str "rank")]

theorem selection_restricts_placed :
    ∃ page selected, (notes.findMany (.built placed) none notebook).1 = .ok page ∧
      (notes.findMany (.built (placed.selecting ["place", "id"])) none notebook).1 =
        .ok selected ∧
      selected.documents.map Fields.keys = [["place", "id"], ["id"], ["place", "id"]] ∧
      List.Forall₂ (fun d s => ∀ name, Value.field name s =
        if name = "id" ∨ name ∈ ["place", "id"] then Value.field name d else .missing)
        page.documents selected.documents := by
  have keeps : Plan.KeepsKeys notes.identity placed.aliases
      ((notebook.contents "main").documents notes.name) := by
    apply Plan.keepsKeys_of_spares (by decide)
    intro names same
    obtain rfl := Value.doc.inj same
    decide
  have read : (QueryInput.built placed).read = .ok (some placed) := rfl
  have selects : (QueryInput.built (placed.selecting ["place", "id"])).read =
      .ok (some (placed.selecting ["place", "id"])) := rfl
  have stored : notes.backend = Memory.backend "main" := rfl
  obtain ⟨both, restricts⟩ :
      ((∃ page, (notes.findMany (.built placed) none notebook).1 = .ok page) ↔ _) ∧ _ :=
    selection_restricts stored rfl read selects rfl rfl rfl (by decide)
      ⟨"place", by decide, by decide, by decide⟩ keeps
  have returns : ((notes.findMany (.built (placed.selecting ["place", "id"])) none
      notebook).1.toOption.map fun page => page.documents.map Fields.keys) =
        some [["place", "id"], ["id"], ["place", "id"]] := by
    decide +kernel
  obtain ⟨selected, found', keys⟩ := Except.exists_ok_of_map returns
  obtain ⟨page, found⟩ := both.2 ⟨selected, found'⟩
  exact ⟨page, selected, found, found', keys, (restricts page selected found found').2⟩

/-- A selection of the identifier alone leaves the documents as they are. -/
theorem identifier_selects_all :
    ∃ page, (notes.findMany (.built (({} : Query).selecting ["id"])) none notebook).1 = .ok page ∧
      page.documents.map Fields.keys =
        [["by", "rank", "id"], ["by", "id"], ["by", "rank", "id"]] := by
  have returns : ((notes.findMany (.built (({} : Query).selecting ["id"])) none
      notebook).1.toOption.map fun page => page.documents.map Fields.keys) =
        some [["by", "rank", "id"], ["by", "id"], ["by", "rank", "id"]] := by
    decide +kernel
  exact Except.exists_ok_of_map returns

end Repository
end Docbase
