import Docbase.Proofs.Pipeline.Spared
import Docbase.Proofs.Query.Join

/-!
# Joined fields

A lookup may be of a field at any path, and its projection may select any paths: what is found at
that path afterwards is the list of the documents that were looked up, and each of them has its
identifier, provided that nothing is selected from behind that.
-/

namespace Docbase

open Node (AreInnerFields KeyedFields follow)

namespace Draft

variable {d : Document} {names : List (List String)} {draft : Draft} {path : String}

theorem Written.get_set (h : Written d names [] draft) (path : String) (content : Node) :
    (draft.set path content).get path = .ok content := by
  have unshared := Node.unshared_ofDocument d
  obtain ⟨w, before, rest, run, puts⟩ :=
    Write.exists_puts_placing content (Path.parts_ne_nil path) draft.fields draft.next
  have free : Node.Free [] before := fun _ mem => absurd mem List.not_mem_nil
  have there := h.grown.follow_put unshared puts free
  rw [Write.carryOut_root] at there
  unfold Draft.set Draft.get
  change follow _ (.doc 0
    ((Write.placing content 0 (Path.parts path) draft.fields draft.next).1.carryOutRoot
      draft.fields)) = _
  rw [run]
  exact there

/-- Drafts that are placed in a stored document are found where they were placed. -/
theorem get_setDrafts (d : Document) (path : String) (items : List Draft) :
    (Value.doc ((ofDocument d).setDrafts path items).document).get path =
      .ok (.list (items.map value)) := by
  have before : Written d [Path.parts path] [] (ofDocument d) := written_ofDocument _ _ _
  have frees : ∀ b, b <+: Path.parts path → b ≠ Path.parts path →
      Node.Free [Path.parts path] b := by
    intro b le ne n mem le'
    rw [List.mem_singleton.1 mem] at le'
    exact ne (le.eq_of_length_le le'.length_le)
  have read := (before.setDrafts List.mem_cons_self items).grown.value_follow frees
  -- The list is written into a draft that differs from the stored document in its next mark only.
  obtain ⟨nodes, next, le, -, values, set⟩ := (ofDocument d).exists_setDrafts path items
  rw [set] at read ⊢
  have later : Written d [Path.parts path] [] { ofDocument d with next } :=
    ⟨before.grown.later le, before.same⟩
  have placed := later.get_set path (.list nodes)
  rw [Draft.get] at placed
  change Value.follow _ (.doc (Node.fieldValues _)) = _
  rw [← read, placed]
  exact congrArg (fun items => Except.ok (Value.list items)) values

end Draft

namespace Pipeline

variable {name key external : String}

theorem project_identifies (plain : Path.IsName external) (other : external ≠ "_id")
    {paths : List String} (hidden : "_id" ∉ paths)
    (apart : ∀ path ∈ paths, Path.first path ≠ external) {d result : Draft} (sound : d.Sound)
    (found : d.fields.lookup "_id" = some (.leaf (.str key)))
    (run : project (.doc (joinProjection external paths)) d = .ok result) :
    result.document.lookup external = some (.str key) := by
  rw [project_joinProjection other hidden] at run
  obtain ⟨⟨fields, next⟩, gathered, h⟩ := Except.bind_eq_ok.1 run
  obtain rfl := Except.pure_eq_ok.1 h
  change gather _ _ _ _ = _ at gathered
  rw [gather_identifier plain sound.inner found] at gathered
  have into : KeyedFields external key [(external, .leaf (.str key))] :=
    ⟨⟨trivial, trivial⟩, List.lookup_cons_self⟩
  have includes : ∀ field ∈ paths.map fun path => (path, Value.int 1),
      field.2 = .int 1 ∧ Path.first field.1 ≠ external :=
    List.forall_mem_map.2 fun path mem => ⟨rfl, apart path mem⟩
  obtain ⟨keyed, -⟩ := gives_gather_apart includes sound.inner into d.next sound.next_ne _ _ gathered
  rw [Draft.document, Node.lookup_fieldValues, keyed.found]
  rfl

theorem exists_project_joinProjection (external : String) {paths : List String}
    (readable : ∀ path ∈ paths, Path.IsReadable path) (d : Draft) :
    ∃ result, project (.doc (joinProjection external paths)) d = .ok result := by
  have identifier : Path.IsReadable "_id" := by decide
  have flagged : ∀ field ∈ joinProjection external paths, Flagged (fun _ => False) field := by
    refine List.forall_mem_cons.2 ⟨.text identifier.covered, List.forall_mem_cons.2 ⟨?_, ?_⟩⟩
    · exact .excluded fun other => other rfl
    · exact List.forall_mem_map.2 fun path mem => .included (readable path mem).covered
  exact (failsBy_project flagged d).exists_ok

end Pipeline

/-! ## The stage of a join -/

namespace Join

open Pipeline (joinProjection targets)

variable {identity : Identity} {filter : Document} {documents : List Document} {j : Join}

/-- The documents that a value refers to and that meet the condition of a join. -/
def meeting (filter : Document) (documents : List Document) (v : Value) : List Document :=
  (targets documents v).filter fun g => Except.accepts (Filter.holds (.doc g) (.doc filter))

def carryOut (identity : Identity) (filter : Document) (documents : List Document) (j : Join)
    (d : Document) : Except Failure Draft := do
  let v ← (Value.doc d).get j.field
  let found ← (meeting filter documents v).mapM fun g =>
    Pipeline.project (.doc (joinProjection identity.external (j.names identity))) (.ofDocument g)
  return (Draft.ofDocument d).setDrafts j.field found

theorem carryOut_of_read {d : Document} {v : Value} (read : (Value.doc d).get j.field = .ok v) :
    j.carryOut identity filter documents d = (do
      let found ← (meeting filter documents v).mapM fun g => Pipeline.project
        (.doc (joinProjection identity.external (j.names identity))) (.ofDocument g)
      return (Draft.ofDocument d).setDrafts j.field found) := by
  rw [carryOut, read]
  rfl

/-- The documents in a joined field have the identifiers of those that were looked up. -/
theorem carryOut_identifies (internal : identity.internal = "_id")
    (external : Path.IsName identity.external)
    (apart : ∀ name ∈ j.select.getD [], name = identity.external ∨
      Path.first name ≠ identity.external)
    (keyed : ∀ g ∈ documents, ∃ key, g.lookup "_id" = some (.str key))
    {d : Document} {draft : Draft} {v : Value} (read : (Value.doc d).get j.field = .ok v)
    (run : j.carryOut identity filter documents d = .ok draft) :
    ∃ joined : List Document,
      (Value.doc draft.document).get j.field = .ok (.list (joined.map .doc)) ∧
      joined.map (Value.field identity.external) =
        (meeting filter documents v).map (Value.field "_id") := by
  have hidden : "_id" ∉ j.names identity := fun mem =>
    (Join.mem_names.1 mem).2.2 internal.symm
  have apart : ∀ name ∈ j.names identity, Path.first name ≠ identity.external := by
    intro name mem
    obtain ⟨selected, different, -⟩ := Join.mem_names.1 mem
    exact (apart name selected).resolve_left different
  rw [carryOut_of_read read] at run
  obtain ⟨found, projected, h⟩ := Except.bind_eq_ok.1 run
  obtain rfl := Except.pure_eq_ok.1 h
  refine ⟨found.map Draft.document, ?_, ?_⟩
  · rw [Draft.get_setDrafts, List.map_map]
    rfl
  · rw [List.map_map, ← List.forall₂_eq_eq_eq, List.forall₂_map_left_iff,
      List.forall₂_map_right_iff]
    have there (g) (mem : g ∈ meeting filter documents v) : ∃ key, g.lookup "_id" = some (.str key) :=
      keyed g (List.mem_filter.1 (List.mem_filter.1 mem).1).1
    refine List.Forall₂.flip
      (((List.forall₂_and_left _ _).2 ⟨there, Except.mapM_eq_ok.1 projected⟩).imp ?_)
    rintro g result ⟨⟨key, stored⟩, projected⟩
    have identified := Pipeline.project_identifies external (internal ▸ identity.distinct) hidden
      apart (Draft.sound_ofDocument g) (Node.lookup_ofFields_str stored 1) projected
    change Value.field identity.external result.document = Value.field "_id" g
    rw [Value.field, identified, Value.field, stored]

theorem exists_carryOut (identity : Identity) (filter : Document) (documents : List Document)
    (readable : ∀ name ∈ j.select.getD [], Path.IsReadable name)
    {d : Document} {v : Value} (read : (Value.doc d).get j.field = .ok v) :
    ∃ draft, j.carryOut identity filter documents d = .ok draft := by
  have names : ∀ name ∈ j.names identity, Path.IsReadable name := fun name mem =>
    readable name (Join.mem_names.1 mem).1
  have projected : ∀ g ∈ meeting filter documents v, ∃ result, Pipeline.project
      (.doc (joinProjection identity.external (j.names identity))) (.ofDocument g) = .ok result :=
    fun g _ => Pipeline.exists_project_joinProjection identity.external names (.ofDocument g)
  obtain ⟨found, run⟩ := Except.exists_mapM_eq_ok projected
  rw [carryOut_of_read read, run]
  exact ⟨_, rfl⟩

end Join

namespace Pipeline

variable {identity : Identity} {contents : Memory.Contents} {filter : Document} {j : Join}

theorem runStage_carryOut {conditions : Value} (internal : identity.internal = "_id")
    (keyed : ∀ g ∈ contents.documents j.source, ∃ key, g.lookup "_id" = some (.str key))
    (condition : Plan.targetFilter identity conditions j.field = .ok filter)
    (tested : ∀ g ∈ contents.documents j.source, ∃ answer,
      Filter.holds (.doc g) (.doc filter) = .ok answer) :
    ∃ stage, Plan.lookupStage identity conditions j.field j.entry.2 = .ok stage ∧
      ∀ documents : List Document,
        runStage (fun other => contents.documents other) stage.render
            (documents.map .ofDocument) =
          documents.mapM (j.carryOut identity filter (contents.documents j.source)) := by
  obtain ⟨keep, planned, kept⟩ := Plan.lookupStage_entry condition
  refine ⟨_, planned, fun documents => ?_⟩
  have text : Plan.identifierText identity = .doc [("$toString", .str "$_id")] := by
    rw [Plan.identifierText, internal]
    rfl
  rw [internal, text, runStage_lookup_keyed keyed, List.mapM_map]
  refine congrArg (documents.mapM ·) (funext fun d => ?_)
  have value := Node.value_follow_ofFields (Path.parts j.field) d 1
  have read : ((Draft.ofDocument d).get j.field).map Node.value = (Value.doc d).get j.field := value
  rw [Function.comp_apply, Join.carryOut, ← read]
  cases (Draft.ofDocument d).get j.field with
  | error misuse => rfl
  | ok node =>
    change (do
      let found ← runStages _ (Stage.renderAll (keep ++ [.project (joinProjection _ _)])) _
      return (Draft.ofDocument d).setDrafts j.field found : Except Failure Draft) = _
    rw [runStages_targets _ kept tested]
    rfl

end Pipeline
end Docbase
