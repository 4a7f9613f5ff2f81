import Docbase.Proofs.Pipeline.Keyed
import Docbase.Proofs.Pipeline.Run

namespace Docbase

open Node (AreInnerFields)

theorem Node.value_lookup (fields : List (String × Node)) (key : String) :
    ((fields.lookup key).getD .absent).value = Value.field key (fieldValues fields) := by
  rw [Value.field, lookup_fieldValues]
  cases fields.lookup key with
  | none => rfl
  | some node => rfl

namespace Draft

structure Sound (d : Draft) : Prop where
  next_ne : d.next ≠ 0
  inner : AreInnerFields d.fields

variable {d : Draft} {path : String}

theorem sound_ofDocument (document : Document) : (ofDocument document).Sound := by
  obtain ⟨inner, next⟩ := Node.gives_ofFields document 1 Nat.one_ne_zero
  exact ⟨next, inner⟩

theorem get_name (name : Path.IsName path) (d : Draft) :
    ∃ node, d.get path = .ok node ∧ node.value = Value.field path d.document := by
  refine ⟨(d.fields.lookup path).getD .absent, ?_, Node.value_lookup d.fields path⟩
  rw [get, name.parts]
  rfl

theorem set_name (inner : AreInnerFields d.fields) (name : Path.IsName path) (content : Node) :
    d.set path content = { d with fields := Fields.set path content d.fields } := by
  have placed : d.set path content = { d with
      fields := ({ owner := 0, key := path, content := some content } : Write).carryOutRoot
        d.fields } := by
    rw [set, name.parts]
    rfl
  rw [placed, Write.carryOutRoot_of_root rfl inner]
  rfl

theorem value_graft (offset : Nat) (d : Draft) : (d.graft offset).value = d.value :=
  congrArg Value.doc (Node.fieldValues_shift offset d.fields)

theorem values_grafts (items : List Draft) (nodes : List Node) (next : Nat) :
    Node.values (items.foldl
      (fun (nodes, next) item => (nodes ++ [item.graft next], next + item.next)) (nodes, next)).1 =
        Node.values nodes ++ items.map value := by
  induction items generalizing nodes next with
  | nil => simp
  | cons item rest ih =>
    rw [List.foldl_cons, ih]
    simp [Node.values_eq_map, value_graft]

theorem le_grafts (items : List Draft) (nodes : List Node) (next : Nat) :
    next ≤ (items.foldl
      (fun (nodes, next) item => (nodes ++ [item.graft next], next + item.next)) (nodes, next)).2 := by
  induction items generalizing nodes next with
  | nil => exact Nat.le_refl next
  | cons item rest ih => exact Nat.le_trans (Nat.le_add_right next item.next) (ih _ _)

theorem exists_setDrafts (d : Draft) (path : String) (items : List Draft) :
    ∃ nodes next, d.next ≤ next ∧ (d.next ≠ 0 → Node.AreInner nodes ∧ next ≠ 0) ∧
      Node.values nodes = items.map value ∧
      d.setDrafts path items = { d with next }.set path (.list nodes) := by
  have nothing : Node.AreInner [] := trivial
  have inner (positive : d.next ≠ 0) := grafts_inner items nothing positive
  have values := values_grafts items [] d.next
  have le := le_grafts items [] d.next
  rw [Draft.setDrafts]
  generalize items.foldl (fun (nodes, next) item =>
    (nodes ++ [item.graft next], next + item.next)) ([], d.next) = grafted at *
  exact ⟨grafted.1, grafted.2, le, inner, values, rfl⟩

theorem setDrafts_name (sound : d.Sound) (name : Path.IsName path) (items : List Draft) :
    ∃ nodes next, next ≠ 0 ∧ Node.AreInner nodes ∧ Node.values nodes = items.map value ∧
      d.setDrafts path items = { next, fields := Fields.set path (.list nodes) d.fields } := by
  obtain ⟨nodes, next, -, known, values, placed⟩ := d.exists_setDrafts path items
  obtain ⟨inner, positive⟩ := known sound.next_ne
  refine ⟨nodes, next, positive, inner, values, placed.trans ?_⟩
  exact set_name (d := { d with next }) sound.inner name _

theorem document_setDrafts (sound : d.Sound) (name : Path.IsName path) (items : List Draft) :
    (d.setDrafts path items).document =
      Fields.set path (.list (items.map value)) d.document := by
  obtain ⟨nodes, next, -, -, values, placed⟩ := setDrafts_name sound name items
  rw [placed, document, Node.fieldValues_set, Node.value, values]
  rfl

theorem Sound.setDrafts (sound : d.Sound) (name : Path.IsName path) (items : List Draft) :
    (d.setDrafts path items).Sound := by
  obtain ⟨nodes, next, positive, inner, -, placed⟩ := setDrafts_name sound name items
  have content : (Node.list nodes).IsInner := inner
  rw [placed]
  exact ⟨positive, sound.inner.set content path⟩

end Draft

namespace Pipeline

open Plan (identifierText)

/-! ## References -/

def isKey (key : String) : Value → Bool
  | .str s => s == key
  | _ => false

/-- Whether a value refers to a document by its key, alone or among the items of a list. -/
def refersTo (key : String) : Value → Bool
  | .list items => items.any (isKey key)
  | v => isKey key v

theorem isEqual_str (key : String) (v : Value) : Filter.isEqual (.str key) v = isKey key v := by
  cases v with
  | str s =>
    have plain : Filter.isEqual (.str key) (.str s) = (Ord.compare key s == .eq) := by
      simp [Filter.isEqual, Filter.candidates, Value.compare, Value.compareFlat, Value.rank,
        Value.order?, Value.orderScalar?]
    rw [plain, isKey, Bool.eq_iff_iff, beq_iff_eq, beq_iff_eq, Std.compare_eq_iff_eq]
    exact eq_comm
  | _ => rfl

theorem isReferred_str (key : String) (v : Value) : isReferred v (.str key) = refersTo key v := by
  cases v with
  | list items => simp only [isReferred, refersTo, isEqual_str]
  | missing => rfl
  | _ => simp only [isReferred, refersTo, isEqual_str]

/-! ## Projections -/

def pick (names : List String) (d : Document) : Document :=
  (names.filter fun name => !(Value.field name d).isMissing).map fun name => (name, Value.field name d)

theorem isAbsent_eq (node : Node) : node.isAbsent = node.value.isMissing := by
  cases node with
  | leaf v => cases v <;> rfl
  | list items => rfl
  | doc mark fields => rfl

theorem read_name {name : String} (plain : Path.IsName name) (fields : List (String × Node)) :
    Expression.read (.doc 0 fields) name = pure ((fields.lookup name).getD .absent) := by
  rw [Expression.read, plain.parts]
  rfl

theorem placed_new {name : String} (plain : Path.IsName name) (node : Node)
    {source result : List (String × Node)} (inner : AreInnerFields source)
    (resultInner : AreInnerFields result) (absent : name ∉ Fields.keys result) (next : Nat) :
    ∃ w, Write.placing node 0 (Path.parts name) result next = (w, next) ∧
      w.carryOutFields source = source ∧ w.carryOutRoot result = result ++ [(name, node)] := by
  refine ⟨{ owner := 0, key := name, content := some node }, ?_, ?_, ?_⟩
  · rw [plain.parts]
    rfl
  · exact Write.carryOutFields_of_root rfl inner
  · rw [Write.carryOutRoot_of_root rfl resultInner]
    exact Fields.set_of_notMem absent node

theorem gather_names {names : List String} (plain : ∀ name ∈ names, Path.IsName name)
    {source result : List (String × Node)} (inner : AreInnerFields source)
    (resultInner : AreInnerFields result) (nodup : names.Nodup)
    (new : ∀ name ∈ names, name ∉ Fields.keys result) (next : Nat) :
    ∃ fields, gather (names.map fun name => (name, .int 1)) source result next =
        .ok (fields, next) ∧
      Node.fieldValues fields =
        Node.fieldValues result ++ pick names (Node.fieldValues source) := by
  induction names generalizing result with
  | nil => exact ⟨result, rfl, by simp [pick]⟩
  | cons name rest ih =>
    obtain ⟨here, there⟩ := List.forall_mem_cons.1 plain
    obtain ⟨first, distinct⟩ := List.nodup_cons.1 nodup
    obtain ⟨newHere, newThere⟩ := List.forall_mem_cons.1 new
    have node_inner : ((source.lookup name).getD .absent).IsInner := by
      cases found : source.lookup name with
      | none => trivial
      | some node => exact inner.lookup found
    have value := Node.value_lookup source name
    rw [List.map_cons, gather_one, read_name here, pure_bind, pick, List.filter_cons]
    generalize (source.lookup name).getD .absent = node at node_inner value ⊢
    rw [← value, ← isAbsent_eq]
    cases absent : node.isAbsent with
    | true => exact ih there resultInner distinct newThere
    | false =>
      obtain ⟨w, run, kept, placed⟩ := placed_new here node inner resultInner newHere next
      have longer : AreInnerFields (result ++ [(name, node)]) := by
        rw [← Fields.set_of_notMem newHere]
        exact resultInner.set node_inner name
      have others : ∀ other ∈ rest, other ∉ Fields.keys (result ++ [(name, node)]) := by
        intro other mem
        have ne : other ≠ name := fun same => first (same ▸ mem)
        simpa [Fields.keys, ne] using newThere other mem
      obtain ⟨fields, gathered, values⟩ := ih there longer distinct others
      refine ⟨fields, ?_, ?_⟩
      · change gather _ _ _ _ = _
        simp only [run, kept, placed, gathered]
      · rw [values, Node.fieldValues_append]
        simp [pick, Node.fieldValues, value]

theorem isExclusion_doc (fields : Document) : Value.isExclusion (.doc fields) = false := by
  simp [Value.isExclusion, Value.equals, Value.same, Value.sameScalar, Value.numeral?]

theorem isExclusion_zero : Value.isExclusion (.int 0) = true := by decide +kernel

theorem gather_identifier {external key : String} (plain : Path.IsName external)
    {source : List (String × Node)} (inner : AreInnerFields source)
    (found : source.lookup "_id" = some (.leaf (.str key))) (rest : Document) (next : Nat) :
    gather ((external, .doc [("$toString", .str "$_id")]) :: rest) source [] next =
      gather rest source [(external, .leaf (.str key))] next := by
  have evaluated : included source external (.doc [("$toString", .str "$_id")]) =
      pure (.leaf (.str key)) := by
    have computed : isInclusion (.doc [("$toString", .str "$_id")]) = false := rfl
    have path : Expression.path? "$_id" = some "_id" := by decide
    have name : Path.IsName "_id" := by decide
    have read := read_name name source
    rw [included, computed]
    simp [Expression.evaluate, path, read, found, Expression.textOf, Node.value, Value.text]
  have nothing : AreInnerFields [] := trivial
  obtain ⟨w, run, kept, placed⟩ :=
    placed_new plain (.leaf (.str key)) inner nothing List.not_mem_nil next
  rw [gather, isExclusion_doc, evaluated]
  change gather _ _ _ _ = _
  simp only [run, kept, placed, List.nil_append]

/-- The projection of a join, which computes the identifier and hides the key. -/
def joinProjection (external : String) (paths : List String) : Document :=
  (external, .doc [("$toString", .str "$_id")]) :: ("_id", .int 0) ::
    paths.map fun path => (path, .int 1)

theorem project_joinProjection {external : String} (other : external ≠ "_id") {paths : List String}
    (hidden : "_id" ∉ paths) (d : Draft) :
    project (.doc (joinProjection external paths)) d = (do
      let (fields, next) ← (gather ((external, .doc [("$toString", .str "$_id")]) ::
        paths.map fun path => (path, .int 1)) d.fields []).run d.next
      return { next, fields }) := by
  have flags : (joinProjection external paths).filter (fun field => field.1 != "_id") =
      (external, .doc [("$toString", .str "$_id")]) :: paths.map fun path => (path, .int 1) := by
    have kept : (paths.map fun path => (path, Value.int 1)).filter
        (fun field => field.1 != "_id") = paths.map fun path => (path, .int 1) := by
      rw [List.filter_eq_self, List.forall_mem_map]
      exact fun path mem => bne_iff_ne.2 fun same => hidden (same ▸ mem)
    rw [joinProjection, List.filter_cons, List.filter_cons, kept]
    simp [other]
  have excluded : (joinProjection external paths).lookup "_id" = some (.int 0) := by
    rw [joinProjection, List.lookup_cons, beq_false_of_ne other.symm]
    rfl
  rw [project, flags, excluded]
  simp only [Option.getD_some, isExclusion_zero, isExclusion_doc, List.all_cons, Bool.false_and,
    Bool.not_true, Bool.false_eq_true, if_false]

theorem project_target {external key : String} {names : List String}
    (plain : ∀ name ∈ external :: names, Path.IsName name ∧ name ≠ "_id")
    (nodup : (external :: names).Nodup) {d : Draft} (inner : AreInnerFields d.fields)
    (found : d.fields.lookup "_id" = some (.leaf (.str key))) :
    ∃ result, project (.doc ((external, .doc [("$toString", .str "$_id")]) :: ("_id", .int 0) ::
        names.map fun name => (name, .int 1))) d = .ok result ∧
      result.document = (external, .str key) :: pick names d.document := by
  obtain ⟨⟨name, other⟩, others⟩ := List.forall_mem_cons.1 plain
  have first : AreInnerFields [(external, .leaf (.str key))] := ⟨trivial, trivial⟩
  obtain ⟨externalNew, distinct⟩ := List.nodup_cons.1 nodup
  have new : ∀ name ∈ names, name ∉ Fields.keys [(external, Node.leaf (.str key))] := by
    intro name mem
    have ne : name ≠ external := fun same => externalNew (same ▸ mem)
    simpa [Fields.keys] using ne
  obtain ⟨fields, gathered, values⟩ :=
    gather_names (fun name mem => (others name mem).1) inner first distinct new d.next
  refine ⟨{ next := d.next, fields }, ?_, values⟩
  have run : gather ((external, .doc [("$toString", .str "$_id")]) ::
      names.map fun name => (name, .int 1)) d.fields [] d.next = .ok (fields, d.next) := by
    rw [gather_identifier name inner found, gathered]
  have hidden : "_id" ∉ names := fun mem => (others "_id" mem).2 rfl
  refine (project_joinProjection other hidden d).trans ?_
  rw [StateT.run, run]
  rfl

/-! ## The stage -/

theorem runInner_rendered (foreign : String → List Document) (source : Value)
    (localField foreignField target : String) (pipeline : List Stage) (drafts : List Draft) :
    runInner foreign [("from", source), ("localField", .str localField),
      ("foreignField", .str foreignField), ("as", .str target),
      ("pipeline", .list (Stage.renderAll pipeline))] drafts =
        runStages foreign (Stage.renderAll pipeline) drafts := by
  simp [runInner]

def targets (documents : List Document) (v : Value) : List Document :=
  documents.filter fun g => refersTo (Value.field "_id" g).text v

theorem test_eq_ok {g : Document} (keyed : ∃ key, g.lookup "_id" = some (.str key)) (v : Value) :
    (do
      let foreignValue ← (Value.doc g).get "_id"
      return isReferred v foreignValue : Except Failure Bool) =
      .ok (refersTo (Value.field "_id" g).text v) := by
  obtain ⟨key, found⟩ := keyed
  have name : Path.IsName "_id" := by decide
  have field : Value.field "_id" g = .str key := by rw [Value.field, found, Option.getD_some]
  have read : (Value.doc g).get "_id" = .ok (.str key) := by
    rw [Value.get, name.parts, ← field]
    rfl
  rw [read, field, Value.text, ← isReferred_str]
  rfl

theorem referred_keyed {foreign : String → List Document} {source : String}
    (keyed : ∀ g ∈ foreign source, ∃ key, g.lookup "_id" = some (.str key))
    (path : String) (pipeline : Value) (d : Draft) :
    referred foreign [("from", .str source), ("localField", .str path),
      ("foreignField", .str "_id"), ("as", .str path), ("pipeline", pipeline)] d = (do
        let node ← d.get path
        return (targets (foreign source) node.value).map .ofDocument) := by
  have opened : referred foreign [("from", .str source), ("localField", .str path),
      ("foreignField", .str "_id"), ("as", .str path), ("pipeline", pipeline)] d = (do
        let localValue ← d.get path
        let found ← (foreign source).filterM fun g => do
          let foreignValue ← (Value.doc g).get "_id"
          return isReferred localValue.value foreignValue
        return found.map .ofDocument : Except Failure (List Draft)) := rfl
  rw [opened]
  refine bind_congr fun node => ?_
  refine Except.bind_eq_ok.2 ⟨_, Except.filterM_eq_ok.2 ⟨fun g mem => ?_, rfl⟩, ?_⟩
  · exact ⟨_, test_eq_ok (keyed g mem) node.value⟩
  · rw [Except.pure_eq_ok, targets]
    congr 1
    refine List.filter_congr fun g mem => ?_
    rw [test_eq_ok (keyed g mem)]
    rfl

/-- A lookup by the keys of the documents in a collection. -/
theorem runStage_lookup_keyed {foreign : String → List Document} {source : String}
    (keyed : ∀ g ∈ foreign source, ∃ key, g.lookup "_id" = some (.str key))
    (path : String) (pipeline : List Stage) (drafts : List Draft) :
    runStage foreign (Stage.render (.lookup (.str source) path "_id" path pipeline)) drafts =
      drafts.mapM fun d => do
        let node ← d.get path
        let found ← runStages foreign (Stage.renderAll pipeline)
          ((targets (foreign source) node.value).map .ofDocument)
        return d.setDrafts path found := by
  refine congrArg (drafts.mapM ·) (funext fun d => ?_)
  rw [referred_keyed keyed, bind_assoc]
  refine bind_congr fun node => ?_
  rw [pure_bind, runInner_rendered]
  rfl

theorem runStage_lookup_eq_ok {foreign : String → List Document} {source field : String}
    (keyed : ∀ g ∈ foreign source, ∃ key, g.lookup "_id" = some (.str key))
    (name : Path.IsName field) {pipeline : List Stage} {found : Draft → List Draft}
    {drafts : List Draft}
    (run : ∀ d ∈ drafts, runStages foreign (Stage.renderAll pipeline)
      ((targets (foreign source) (Value.field field d.document)).map .ofDocument) =
        .ok (found d)) :
    runStage foreign (Stage.render (.lookup (.str source) field "_id" field pipeline)) drafts =
      .ok (drafts.map fun d => d.setDrafts field (found d)) := by
  rw [runStage_lookup_keyed keyed]
  refine Except.mapM_eq_ok.2 (List.forall₂_map_right_iff.2 (List.forall₂_same.2 fun d mem => ?_))
  obtain ⟨node, read, value⟩ := d.get_name name
  rw [read]
  refine Except.bind_eq_ok.2 ⟨node, rfl, Except.bind_eq_ok.2 ⟨found d, ?_, rfl⟩⟩
  rw [value]
  exact run d mem

end Pipeline
end Docbase
