import Docbase.Pipeline.Run
import Docbase.Proofs.Pipeline.Draft

/-!
# Drafts that keep a name

A text that a draft has under a name stays there, whatever is computed from other names and written
to them.
-/

namespace Docbase

open Node (IsInner AreInnerFields)

variable {name key : String}

/-! ## Fields -/

structure Node.KeyedFields (name key : String) (fields : List (String × Node)) : Prop where
  inner : AreInnerFields fields
  found : fields.lookup name = some (.leaf (.str key))

namespace Node.KeyedFields

variable {fields : List (String × Node)} {w : Write}

theorem write (keyed : KeyedFields name key fields) {first : String}
    (under : w.Under 0 first) (other : first ≠ name) :
    KeyedFields name key (w.carryOutRoot fields) :=
  ⟨Write.carryOutRoot_inner under.brings keyed.inner,
    under.lookup_carryOutRoot other keyed.found⟩

theorem pass (keyed : KeyedFields name key fields) (brings : w.BringsInner) :
    KeyedFields name key (w.carryOutFields fields) :=
  ⟨Write.carryOutFields_inner brings keyed.inner, Write.lookup_carryOutFields keyed.found⟩

theorem filter_name (keyed : KeyedFields name key fields) :
    KeyedFields name key (fields.filter fun field => field.1 == name) :=
  ⟨keyed.inner.filter _, by rw [Fields.lookup_filter_self, keyed.found]⟩

end Node.KeyedFields

/-! ## Expressions -/

namespace Expression

variable {α β : Type} {P : α → Prop} {Q : β → Prop} {fields : List (String × Node)}

def Gives (P : α → Prop) (c : Computation α) : Prop :=
  ∀ n, n ≠ 0 → ∀ a next, c n = .ok (a, next) → P a ∧ next ≠ 0

theorem gives_pure {a : α} (h : P a) : Gives P (pure a : Computation α) := by
  intro n hn _ _ run
  obtain ⟨rfl, rfl⟩ := Prod.mk.inj (Except.ok.inj run)
  exact ⟨h, hn⟩

theorem gives_throw (failure : Failure) : Gives P (throw failure : Computation α) :=
  fun _ _ _ _ run => nomatch run

theorem Gives.bind {c : Computation α} {f : α → Computation β} (hc : Gives P c)
    (hf : ∀ a, P a → Gives Q (f a)) : Gives Q (c >>= f) := by
  intro n hn b next run
  obtain ⟨⟨a, between⟩, first, last⟩ := Except.bind_eq_ok.1 run
  obtain ⟨ha, hbetween⟩ := hc n hn a between first
  exact hf a ha between hbetween b next last

theorem gives_of_marking {m : Marking α} (h : Marking.Gives P m) :
    Gives P (fun next => .ok (m.run next) : Computation α) := by
  intro n hn a next run
  have given := h n hn
  have result : m n = (a, next) := Except.ok.inj run
  rwa [result] at given

theorem gives_fresh : Gives (· ≠ 0) (modifyGet fun next => (next, next + 1) : Computation Nat) :=
  gives_of_marking Marking.gives_fresh

theorem gives_literal (v : Value) : Gives IsInner (literal v) :=
  gives_of_marking (Node.gives_ofValue v)

theorem gives_read (inner : AreInnerFields fields) (path : String) :
    Gives IsInner (read (.doc 0 fields) path) := by
  obtain ⟨rest, parts⟩ := Path.exists_parts path
  rw [read, parts]
  split
  · rename_i node followed
    exact gives_pure (inner.follow followed)
  · exact gives_throw _

theorem gives_textOf (node : Node) : IsInner (textOf node) := by
  rw [textOf]
  split
  · trivial
  · trivial
  · trivial

mutual

theorem gives_evaluate (inner : AreInnerFields fields) :
    ∀ v : Value, Gives IsInner (evaluate (.doc 0 fields) v)
  | .str s => by
    rw [evaluate]
    split
    · exact gives_read inner _
    · exact gives_pure trivial
  | .doc [(k, operand)] => by
    rw [evaluate]
    split
    · exact (gives_evaluate inner operand).bind fun node _ => gives_pure (gives_textOf node)
    · split
      · exact gives_literal operand
      · split
        · exact gives_throw _
        · refine gives_fresh.bind fun mark positive => ?_
          exact (gives_evaluate inner operand).bind fun node given =>
            gives_pure ⟨positive, given, trivial⟩
  | .doc [] => gives_fresh.bind fun mark positive => gives_pure ⟨positive, trivial⟩
  | .doc (first :: second :: rest) => by
    rw [evaluate]
    · refine gives_fresh.bind fun mark positive => ?_
      exact (gives_evaluateFields inner (first :: second :: rest)).bind fun fields given =>
        gives_pure ⟨positive, given⟩
    · simp
  | .null | .missing | .bool _ | .int _ | .double _ | .bytes _ | .timestamp _ | .objectId _
  | .pattern _ | .tuple _ | .list _ | .flat _ | .anyOf _ | .allOf _ | .joinTo _ _ =>
    gives_literal _

theorem gives_evaluateFields (inner : AreInnerFields fields) :
    ∀ expressions : List (String × Value),
      Gives AreInnerFields (evaluateFields (.doc 0 fields) expressions)
  | [] => gives_pure trivial
  | (_, expression) :: rest =>
    (gives_evaluate inner expression).bind fun _ here =>
      (gives_evaluateFields inner rest).bind fun _ there => gives_pure ⟨here, there⟩

end

theorem keys_evaluateFields {root : Node} {expressions : List (String × Value)}
    {parts : List (String × Node)} {n next : Nat}
    (h : evaluateFields root expressions n = .ok (parts, next)) :
    Fields.keys parts = Fields.keys expressions := by
  induction expressions generalizing parts n next with
  | nil =>
    obtain ⟨rfl, -⟩ := Prod.mk.inj (Except.ok.inj h)
    rfl
  | cons field rest ih =>
    obtain ⟨k, expression⟩ := field
    obtain ⟨⟨node, between⟩, -, h⟩ := Except.bind_eq_ok.1 h
    obtain ⟨⟨others, last⟩, there, h⟩ := Except.bind_eq_ok.1 h
    obtain ⟨rfl, -⟩ := Prod.mk.inj (Except.ok.inj h)
    exact congrArg (k :: ·) (ih there)

theorem read_behind_text {fields : List (String × Node)}
    (found : fields.lookup name = some (.leaf (.str key))) {path : String}
    (starts : Path.first path = name) (other : path ≠ name) :
    read (.doc 0 fields) path = pure Node.absent := by
  have nowhere (parts : List String) : Node.follow parts .absent = .ok .absent := by
    induction parts with
    | nil => rfl
    | cons part rest ih => exact ih
  obtain ⟨next, rest, parts⟩ := Path.exists_parts_of_ne starts other
  have followed : Node.follow (Path.parts path) (.doc 0 fields) = .ok .absent := by
    rw [parts, Node.follow, Node.step, found]
    exact nowhere rest
  rw [read, followed]

end Expression

/-! ## Steps of a plan -/

namespace Pipeline

open Node (KeyedFields)

variable {fields : List (String × Node)}

theorem carryOut_all_inner {earlier : List Write} (brings : ∀ w ∈ earlier, w.BringsInner)
    {node : Node} (inner : node.IsInner) :
    (earlier.foldl (fun node w => w.carryOut node) node).IsInner := by
  induction earlier generalizing node with
  | nil => exact inner
  | cons w rest ih =>
    obtain ⟨here, there⟩ := List.forall_mem_cons.1 brings
    exact ih there (Write.carryOut_inner here inner)

theorem gives_assign {P : List (String × Node) → Prop}
    (sound : ∀ {fields}, P fields → AreInnerFields fields) {parts : List (String × Node)}
    (inner : AreInnerFields parts)
    (written : ∀ path ∈ Fields.keys parts, ∀ {w : Write} {fields}, w.Under 0 (Path.first path) →
      P fields → P (w.carryOutRoot fields))
    {earlier : List Write} (brings : ∀ w ∈ earlier, w.BringsInner) (known : P fields) :
    Marking.Gives P (assign parts earlier fields) := by
  induction parts generalizing earlier fields with
  | nil => exact Marking.gives_pure known
  | cons part rest ih =>
    obtain ⟨path, node⟩ := part
    obtain ⟨here, there⟩ := List.forall_mem_cons.1 written
    have current := carryOut_all_inner brings inner.1
    refine (Write.gives_assigning current (sound known) path).bind fun made under => ?_
    cases made with
    | none => exact ih inner.2 there brings known
    | some w =>
      have last := under w rfl
      refine ih inner.2 there ?_ (here last known)
      intro w' mem
      rcases List.mem_append.1 mem with mem | mem
      · exact brings w' mem
      · rw [List.mem_singleton.1 mem]
        exact last.brings

theorem isExclusion_one : Value.isExclusion (.int 1) = false := by decide +kernel

theorem gather_one (path : String) (rest : Document) (source result : List (String × Node)) :
    gather ((path, .int 1) :: rest) source result = (do
      let node ← Expression.read (.doc 0 source) path
      if node.isAbsent then gather rest source result
      else
        let w ← fun next => .ok ((Write.placing node 0 (Path.parts path) result).run next)
        gather rest (w.carryOutFields source) (w.carryOutRoot result)) := by
  rw [gather, isExclusion_one]
  rfl

theorem gives_gather_beside {path : String} {rest : Document}
    {source result : List (String × Node)} (starts : Path.first path ≠ name)
    (inner : AreInnerFields source) (into : KeyedFields name key result)
    (absent : Expression.Gives (KeyedFields name key) (gather rest source result))
    (present : ∀ {w : Write} {fields}, w.BringsInner → KeyedFields name key fields →
      Expression.Gives (KeyedFields name key) (gather rest (w.carryOutFields source) fields)) :
    Expression.Gives (KeyedFields name key) (gather ((path, .int 1) :: rest) source result) := by
  rw [gather_one]
  refine (Expression.gives_read inner path).bind fun node innerNode => ?_
  split
  · exact absent
  · obtain ⟨parts, path_eq⟩ := Path.exists_parts path
    rw [path_eq]
    refine (Expression.gives_of_marking (Write.gives_placing innerNode into.inner)).bind
      fun w under => ?_
    exact present under.brings (into.write under starts)

theorem gives_gather {projection : Document}
    (includes : ∀ field ∈ projection, field.2 = .int 1 ∧ field.1 ≠ name)
    {source result : List (String × Node)} (kept : KeyedFields name key source)
    (into : KeyedFields name key result) :
    Expression.Gives (KeyedFields name key) (gather projection source result) := by
  induction projection generalizing source result with
  | nil => exact Expression.gives_pure into
  | cons field rest ih =>
    obtain ⟨path, flag⟩ := field
    obtain ⟨⟨rfl, other⟩, others⟩ := List.forall_mem_cons.1 includes
    by_cases starts : Path.first path = name
    · rw [gather_one, Expression.read_behind_text kept.found starts other]
      exact ih others kept into
    · exact gives_gather_beside starts kept.inner into (ih others kept into)
        fun brings into => ih others (kept.pass brings) into

theorem gives_gather_apart {projection : Document}
    (includes : ∀ field ∈ projection, field.2 = .int 1 ∧ Path.first field.1 ≠ name)
    {source result : List (String × Node)} (inner : AreInnerFields source)
    (into : KeyedFields name key result) :
    Expression.Gives (KeyedFields name key) (gather projection source result) := by
  induction projection generalizing source result with
  | nil => exact Expression.gives_pure into
  | cons field rest ih =>
    obtain ⟨path, flag⟩ := field
    obtain ⟨⟨rfl, starts⟩, others⟩ := List.forall_mem_cons.1 includes
    exact gives_gather_beside starts inner into (ih others inner into)
      fun brings into => ih others (Write.carryOutFields_inner brings inner) into

end Pipeline

/-! ## Drafts -/

namespace Draft

structure Keyed (name key : String) (d : Draft) : Prop where
  next_ne : d.next ≠ 0
  fields : Node.KeyedFields name key d.fields

variable {d result : Draft}

theorem keyed_ofDocument {document : Document} (found : document.lookup name = some (.str key)) :
    Keyed name key (ofDocument document) := by
  obtain ⟨inner, next⟩ := Node.gives_ofFields document 1 Nat.one_ne_zero
  exact ⟨next, inner, Node.lookup_ofFields_str found 1⟩

theorem Keyed.lookup_document (keyed : Keyed name key d) :
    d.document.lookup name = some (.str key) := by
  rw [document, Node.lookup_fieldValues, keyed.fields.found]
  rfl

theorem Keyed.set (keyed : Keyed name key d) {path : String} (other : Path.first path ≠ name)
    {content : Node} (inner : content.IsInner) : Keyed name key (d.set path content) := by
  obtain ⟨rest, parts⟩ := Path.exists_parts path
  have placing : Marking.Gives (Write.Under 0 (Path.first path))
      (Write.placing content 0 (Path.first path :: rest) d.fields) :=
    Write.gives_placing inner keyed.fields.inner
  obtain ⟨under, next⟩ := placing d.next keyed.next_ne
  rw [Draft.set, parts]
  exact ⟨next, keyed.fields.write under other⟩

theorem grafts_inner (items : List Draft) {nodes : List Node} {next : Nat}
    (inner : Node.AreInner nodes) (positive : next ≠ 0) :
    let grafted := items.foldl
      (fun (nodes, next) item => (nodes ++ [item.graft next], next + item.next)) (nodes, next)
    Node.AreInner grafted.1 ∧ grafted.2 ≠ 0 := by
  induction items generalizing nodes next with
  | nil => exact ⟨inner, positive⟩
  | cons item rest ih =>
    have graft : IsInner (item.graft next) :=
      ⟨positive, Node.areInnerFields_shift positive item.fields⟩
    have longer : Node.AreInner (nodes ++ [item.graft next]) := by
      rw [Node.areInner_iff] at inner ⊢
      intro node mem
      rcases List.mem_append.1 mem with mem | mem
      · exact inner node mem
      · rwa [List.mem_singleton.1 mem]
    exact ih longer fun zero => positive (Nat.eq_zero_of_add_eq_zero_right zero)

theorem Keyed.setDrafts (keyed : Keyed name key d) {path : String}
    (other : Path.first path ≠ name) (items : List Draft) :
    Keyed name key (d.setDrafts path items) := by
  have nothing : Node.AreInner [] := trivial
  obtain ⟨inner, next⟩ := grafts_inner items nothing keyed.next_ne
  have moved : Keyed name key { d with next := _ } := ⟨next, keyed.fields⟩
  exact moved.set other inner

theorem Keyed.addFields (keyed : Keyed name key d) {expressions : Document}
    (others : ∀ path ∈ Fields.keys expressions, Path.first path ≠ name)
    (run : Pipeline.addFields (.doc expressions) d = .ok result) : Keyed name key result := by
  obtain ⟨⟨parts, between⟩, evaluated, h⟩ := Except.bind_eq_ok.1 run
  obtain rfl := Except.pure_eq_ok.1 h
  have inner := Expression.gives_evaluateFields keyed.fields.inner expressions d.next
    keyed.next_ne parts between evaluated
  rw [← Expression.keys_evaluateFields evaluated] at others
  have nothing : ∀ w ∈ ([] : List Write), w.BringsInner := fun w mem => nomatch mem
  obtain ⟨fields, next⟩ := Pipeline.gives_assign Node.KeyedFields.inner inner.1
    (fun path mem _ _ under keyed => keyed.write under (others path mem)) nothing keyed.fields
    between inner.2
  exact ⟨next, fields⟩

theorem Keyed.project (keyed : Keyed "_id" key d) {projection : Document}
    (ones : ∀ field ∈ projection, field.2 = .int 1)
    (run : Pipeline.project (.doc projection) d = .ok result) : Keyed "_id" key result := by
  have flag_ne (field) (mem : field ∈ projection.filter fun field => field.1 != "_id") :
      field.2 = .int 1 ∧ field.1 ≠ "_id" := by
    obtain ⟨mem, other⟩ := List.mem_filter.1 mem
    exact ⟨ones field mem, by simpa using other⟩
  have keeps : (((projection.lookup "_id").getD (.int 1)).isExclusion) = false := by
    cases flagged : projection.lookup "_id" with
    | none => exact Pipeline.isExclusion_one
    | some flag =>
      have one : flag = .int 1 := ones _ (Fields.mem_of_lookup flagged)
      rw [one]
      exact Pipeline.isExclusion_one
  simp only [Pipeline.project, keeps, Bool.not_false, if_true] at run
  split at run
  · rename_i excluded
    cases flags : projection.filter fun field => field.1 != "_id" with
    | nil =>
      rw [flags] at run
      obtain rfl := Except.pure_eq_ok.1 run
      exact keyed
    | cons field rest =>
      rw [flags] at excluded flag_ne
      have one := (flag_ne field List.mem_cons_self).1
      rw [List.all_cons, one, Pipeline.isExclusion_one] at excluded
      cases excluded
  · obtain ⟨⟨fields, next⟩, gathered, h⟩ := Except.bind_eq_ok.1 run
    obtain rfl := Except.pure_eq_ok.1 h
    obtain ⟨kept, positive⟩ := Pipeline.gives_gather flag_ne keyed.fields
      keyed.fields.filter_name d.next keyed.next_ne fields next gathered
    exact ⟨positive, kept⟩

end Draft
end Docbase
