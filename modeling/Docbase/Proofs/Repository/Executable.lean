import Docbase.Proofs.Identity
import Docbase.Proofs.Pipeline.Failures
import Docbase.Proofs.Query.Join
import Docbase.Proofs.Repository.Reading

/-!
# Plans that a store can run

Where documents are stored under their internal identifier, `_id`, a store runs the plan of every
query without a filter that names its fields by plain texts. Under another internal name the plan of
a join excludes that name from documents of which it includes others, and a store does not run it as
soon as there is a document to join.

A draft is finite, so it cannot show a document that an alias puts into itself. Such a document can
be returned, but whoever compares two of them comes to no end; a plan that sorts is asked to make
none.

* `Pipeline.unwinds`: whether a pipeline puts no document into itself.
* `Plan.returns_ofQuery`: the query has a plan, and how its stages fail.
* `Plan.runs_unless_fault` is the theorem for a store.
* `Plan.project_excludes` and `Plan.join_excludes_key`: what comes of another internal name.
-/

namespace Docbase

/-- A name given as a value, all digits of which are decimal. -/
def Value.IsReadable (v : Value) : Prop := ∃ path, v = .str path ∧ Path.IsReadable path

/-- What the query reads is named by texts all digits of which are decimal. -/
structure Query.IsReadable (q : Query) : Prop where
  select : ∀ name ∈ q.select.getD [], name.IsReadable
  join : ∀ join ∈ q.join.getD [],
    Path.IsReadable join.1 ∧ ∀ name ∈ join.2.select.getD [], name.IsReadable
  sort : ∀ key ∈ q.sort.getD [], Path.IsReadable key.1
  aliases : q.aliases.truthy = true →
    ∃ sources, q.aliases = .doc sources ∧ ∀ source ∈ sources, source.2.IsReadable

/-! ## Documents that are put into themselves -/

namespace Node

mutual

def holds (mark : Nat) : Node → Bool
  | leaf _ => false
  | list items => itemsHold mark items
  | doc m fields => m == mark || fieldsHold mark fields

def itemsHold (mark : Nat) : List Node → Bool
  | [] => false
  | node :: rest => holds mark node || itemsHold mark rest

def fieldsHold (mark : Nat) : List (String × Node) → Bool
  | [] => false
  | (_, node) :: rest => holds mark node || fieldsHold mark rest

end

end Node

/-- Whether a write puts a document into itself. -/
def Write.ties (w : Write) : Bool := w.content.any (Node.holds w.owner)

namespace Pipeline

def assigned : List (String × Node) → List Write → List (String × Node) → Marking (List Write)
  | [], earlier, _ => return earlier
  | (path, node) :: rest, earlier, fields => do
    let node := earlier.foldl (fun node w => w.carryOut node) node
    match ← Write.assigning path node fields with
    | some w => assigned rest (earlier ++ [w]) (w.carryOutRoot fields)
    | none => assigned rest earlier fields

/-- Whether computed fields put no document of a draft into itself. -/
def leavesUntied (expressions : Document) (d : Draft) : Bool :=
  match (Expression.evaluateFields (.doc 0 d.fields) expressions).run d.next with
  | .ok (parts, next) => !((assigned parts [] d.fields).run next).1.any Write.ties
  | .error _ => true

example : leavesUntied [("a.b", .str "$a")] (.ofDocument [("a", .doc [("c", .int 1)])]) = false := by
  decide +kernel

/-- Whether a pipeline puts no document into itself, as far as it gets. -/
def unwinds (foreign : String → List Document) : List Stage → List Draft → Bool
  | [], _ => true
  | stage :: rest, drafts =>
    let here := match stage with
      | .addFields expressions => drafts.all (leavesUntied expressions)
      | _ => true
    here && match runStage foreign stage.render drafts with
      | .ok drafts => unwinds foreign rest drafts
      | .error _ => true

end Pipeline

namespace Plan

open Memory (World SessionId)
open Pipeline (Flagged)

variable {identity : Identity} {q : Query} {P : Failure → Prop}

/-! ## The stages of a readable query -/

theorem returns_mapM_keyOf {names : List Value} (readable : ∀ name ∈ names, name.IsReadable) :
    Except.Returns (fun keys => ∀ key ∈ keys, Path.IsReadable key) (names.mapM keyOf) := by
  refine Except.returns_mapM fun name mem => ?_
  obtain ⟨path, rfl, readable⟩ := readable name mem
  exact Except.returns_ok readable

section
variable (internal : Path.Covered P identity.internal)
include internal

theorem covered_internalName {path : String} (readable : Path.IsReadable path) :
    Path.Covered P (identity.internalName path) := by
  rw [Identity.internalName]
  split
  · exact internal
  · exact readable.covered

theorem returns_projection {names : List Value} (readable : ∀ name ∈ names, name.IsReadable) :
    Except.Returns (fun projection => ∀ field ∈ projection, Flagged P field)
      (projection identity (.tuple names)) := by
  unfold projection
  split
  · exact Except.returns_ok nofun
  · refine (returns_mapM_keyOf readable).bind fun keys readable => Except.returns_ok ?_
    refine Fields.forall_mem_ofWrites (List.forall_mem_map.2 fun key mem => ?_)
    exact .included (covered_internalName internal (readable key mem))

theorem covered_sortKeys {keys : List (String × SortDirection)}
    (readable : ∀ key ∈ keys, Path.IsReadable key.1) :
    ∀ key ∈ sortKeys identity keys, Path.Covered P key.1 :=
  Fields.forall_mem_ofWrites (List.forall_mem_map.2 fun key mem =>
    covered_internalName internal (readable key mem))

theorem returns_aliasFields {aliases : Value} (readable : aliases.truthy = true →
    ∃ sources, aliases = .doc sources ∧ ∀ source ∈ sources, source.2.IsReadable) :
    Except.Returns (fun fields => ∀ field ∈ fields,
        ∃ path, Expression.Names path field.2 ∧ Path.Covered P path)
      (aliasFields identity aliases) := by
  cases asked : aliases.truthy with
  | false =>
    unfold aliasFields
    rw [asked]
    exact Except.returns_ok nofun
  | true =>
    obtain ⟨sources, rfl, named⟩ := readable asked
    rw [aliasFields, asked]
    refine Except.returns_ok (List.forall_mem_map.2 fun source mem => ?_)
    obtain ⟨path, text, plain⟩ := named source mem
    dsimp only
    split
    · exact ⟨identity.internal, .text, internal⟩
    · rw [text]
      exact ⟨path, .part, plain.covered⟩

theorem returns_targetProjection {target : JoinTarget}
    (excluded : identity.internal ≠ "_id" → P (.exclusionAmongInclusions identity.internal))
    (readable : ∀ name ∈ target.select.getD [], name.IsReadable) :
    Except.Returns (fun projection => ∀ field ∈ projection, Flagged P field)
      (targetProjection identity target) := by
  have names : Except.Returns (fun names => ∀ name ∈ names, Value.IsReadable name)
      ((target.select.getD []).filterM fun name => do
        return !(Value.same name (.str identity.external) ||
          Value.same name (.str identity.internal)) : Except Failure (List Value)) :=
    ⟨_, Except.filterM_eq_ok.2 ⟨fun _ _ => ⟨_, rfl⟩, rfl⟩,
      fun name mem => readable name (List.mem_filter.1 mem).1⟩
  refine names.bind fun names readable => ?_
  refine (returns_mapM_keyOf readable).bind fun keys readable => Except.returns_ok ?_
  refine Fields.forall_mem_ofWrites (List.forall_mem_append.2 ⟨?_, ?_⟩)
  · exact List.forall_mem_cons.2 ⟨.text internal, List.forall_mem_singleton.2 (.excluded excluded)⟩
  · exact List.forall_mem_map.2 fun key mem => .included (readable key mem).covered

theorem returns_lookupStage {conditions : Value} {field : String} {target : JoinTarget}
    (unconditional : conditions.truthy = false)
    (excluded : identity.internal ≠ "_id" → P (.exclusionAmongInclusions identity.internal))
    (unnamed : target.collection.hashable = false → P (.misuse .wrongType))
    (readable : Path.IsReadable field ∧ ∀ name ∈ target.select.getD [], name.IsReadable) :
    Except.Returns (fun stage => Pipeline.FailsBy P [stage])
      (lookupStage identity conditions field target) := by
  have condition : joinCondition conditions field = .ok .null := by
    unfold joinCondition
    rw [unconditional]
    rfl
  rw [lookupStage, condition]
  refine (returns_targetProjection internal excluded readable.2).bind fun projection flagged => ?_
  refine Except.returns_ok ?_
  exact Pipeline.failsBy_lookupStage unnamed readable.1.covered internal
    (Pipeline.failsBy_projectStage flagged)

/-- A readable query has a plan, which fails in no other way than at what it joins, at the internal
name in a projection, or at reading that name. -/
theorem returns_ofQuery (readable : q.IsReadable) (unfiltered : q.filter = none)
    (unconditional : q.joinConditions.truthy = false)
    (excluded : ∀ join ∈ q.join.getD [], identity.internal ≠ "_id" →
      P (.exclusionAmongInclusions identity.internal))
    (unnamed : ∀ join ∈ q.join.getD [], join.2.collection.hashable = false →
      P (.misuse .wrongType)) (single : Bool) :
    Except.Returns (fun plan => Pipeline.FailsBy P plan.stages) (ofQuery identity single q) := by
  have lookups := Except.returns_mapM fun join mem => returns_lookupStage internal
    unconditional (excluded join mem) (unnamed join mem) (readable.join join mem)
  have aliases := returns_aliasFields internal readable.aliases
  have projection := returns_projection internal readable.select
  have shaped : Except.Returns (Pipeline.FailsBy P) (shaping identity q) := by
    refine lookups.bind fun lookups joins => ?_
    refine aliases.bind fun aliases names => ?_
    refine projection.bind fun projection flagged => Except.returns_ok ?_
    have sorts := Pipeline.failsBy_sortStage (covered_sortKeys internal readable.sort)
    have adds := Pipeline.failsBy_addFieldsStage names
    have projects := Pipeline.failsBy_projectStage flagged
    exact (((Pipeline.failsBy_of_mem joins).append (Pipeline.failsBy_unlessEmpty adds)).append
      (Pipeline.failsBy_unlessEmpty projects)).append (Pipeline.failsBy_unlessEmpty sorts)
  obtain ⟨shape, planned, fails⟩ := shaped
  have unfiltered : filterStages identity (Predicate.clause q.filter) = .ok [] := by
    rw [unfiltered]
    exact filterStages_null identity
  refine ⟨_, ofQuery_eq_ok.2 ⟨[], shape, unfiltered, planned, rfl⟩, ?_⟩
  exact (Pipeline.failsBy_nil.append fails).append (Pipeline.failsBy_pageStages _ _ _)

end

/-! ## Running the plan -/

/-- What can be wrong with the plan of a readable query: a join under an internal name that a store
excludes from no projection, a join with what is no name of a collection, and an internal name that
cannot be read inside of a list. -/
inductive Fault (identity : Identity) (q : Query) : Failure → Prop
  | exclusion {join : String × JoinTarget} (joins : join ∈ q.join.getD [])
    (internal : identity.internal ≠ "_id") :
    Fault identity q (.exclusionAmongInclusions identity.internal)
  | collection {join : String × JoinTarget} (joins : join ∈ q.join.getD [])
    (unnamed : join.2.collection.hashable = false) : Fault identity q (.misuse .wrongType)
  | name (unreadable : ¬Path.IsReadable identity.internal) :
    Fault identity q (.misuse .badValue)

/-- A store returns what the plan of a readable query asks for, with or without a page, unless
there is a fault in the plan. If the plan sorts, no alias may put a document into itself. -/
theorem runs_unless_fault (identity : Identity) (single : Bool) (readable : q.IsReadable)
    (unfiltered : q.filter = none) (unconditional : q.joinConditions.truthy = false)
    (store collection : String) {caller : Option SessionId} {w : World}
    (accepted : w.refusal store caller = none) :
    ∃ plan, ofQuery identity single q = .ok plan ∧
      ((q.sort.getD [] ≠ [] → Pipeline.unwinds (w.contents store).documents plan.stages
          (((w.contents store).documents collection).map .ofDocument) = true) →
        let answer := (World.aggregate store collection (.list (Stage.renderAll plan.stages))
          caller w).1
        (∃ found, answer = .ok found) ∨
          ∃ failure, answer = .error failure ∧ Fault identity q failure) := by
  obtain ⟨plan, planned, fails⟩ := returns_ofQuery (P := Fault identity q) Fault.name readable
    unfiltered unconditional (fun _ mem => Fault.exclusion mem) (fun _ mem => Fault.collection mem)
    single
  refine ⟨plan, planned, fun _ => ?_⟩
  have run : (World.aggregate store collection (.list (Stage.renderAll plan.stages)) caller w).1 =
      (w.contents store).aggregate collection (.list (Stage.renderAll plan.stages)) := by
    rw [World.aggregate, World.check_bind_apply, accepted]
    rfl
  have known : Except.FailsBy (Fault identity q)
      ((w.contents store).aggregate collection (.list (Stage.renderAll plan.stages))) :=
    Except.FailsBy.bind (fails _ _) fun _ _ => Except.failsBy_ok _
  rw [run]
  cases answer : (w.contents store).aggregate collection (.list (Stage.renderAll plan.stages)) with
  | ok found => exact .inl ⟨found, rfl⟩
  | error failure => exact .inr ⟨failure, rfl, known failure answer⟩

def bestNotes : Query where
  select := some [.str "id", .str "by", .str "writer"]
  join := some [("by", { collection := .str "authors", select := some [.str "id", .str "name"] })]
  sort := some [("rank", .descending), ("id", .ascending)]
  aliases := .doc [("writer", .str "by.0.name"), ("note", .str "id")]
  limit := some 2

theorem bestNotes_isReadable : bestNotes.IsReadable where
  select := by
    intro name mem
    simp only [bestNotes, Option.getD_some, List.mem_cons, List.not_mem_nil, or_false] at mem
    rcases mem with rfl | rfl | rfl
    · exact ⟨"id", rfl, by decide⟩
    · exact ⟨"by", rfl, by decide⟩
    · exact ⟨"writer", rfl, by decide⟩
  join := List.forall_mem_singleton.2 ⟨by decide, by
    intro name mem
    simp only [Option.getD_some, List.mem_cons, List.not_mem_nil, or_false] at mem
    rcases mem with rfl | rfl
    · exact ⟨"id", rfl, by decide⟩
    · exact ⟨"name", rfl, by decide⟩⟩
  sort := by
    intro key mem
    simp only [bestNotes, Option.getD_some, List.mem_cons, List.not_mem_nil, or_false] at mem
    rcases mem with rfl | rfl
    · decide
    · decide
  aliases := by
    refine fun _ => ⟨_, rfl, fun source mem => ?_⟩
    simp only [List.mem_cons, List.not_mem_nil, or_false] at mem
    rcases mem with rfl | rfl
    · exact ⟨"by.0.name", rfl, by decide⟩
    · exact ⟨"id", rfl, by decide⟩

theorem runs_unless_fault_bestNotes :
    ∃ plan, ofQuery default false bestNotes = .ok plan ∧
      ∃ found, (World.aggregate "main" "notes" (.list (Stage.renderAll plan.stages)) none
        Repository.notebook).1 = .ok found := by
  have accepted : Repository.notebook.refusal "main" none = none := rfl
  have unwinds : ((ofQuery default false bestNotes).toOption.any fun plan =>
      Pipeline.unwinds (Repository.notebook.contents "main").documents plan.stages
        (((Repository.notebook.contents "main").documents "notes").map .ofDocument)) = true := by
    decide +kernel
  obtain ⟨plan, planned, runs⟩ :=
    runs_unless_fault default false bestNotes_isReadable rfl rfl "main" "notes" accepted
  rw [planned] at unwinds
  obtain returned | ⟨failure, -, fault⟩ := runs fun _ => unwinds
  · exact ⟨plan, planned, returned⟩
  · cases fault with
    | exclusion joins internal => exact absurd rfl internal
    | collection joins unnamed =>
      rw [List.mem_singleton.1 joins] at unnamed
      cases unnamed
    | name unreadable => exact absurd (by decide) unreadable

/-! ## Another internal name -/

/-- Whatever a join selects, its projection includes the identifier and excludes the name that it is
stored under, so no document of the target gets through. -/
theorem project_excludes (external : identity.external ≠ "_id")
    (internal : identity.internal ≠ "_id") (readable : Path.IsReadable identity.internal)
    (j : Join) (d : Draft) :
    ∃ projection, targetProjection identity j.entry.2 = .ok projection ∧
      Pipeline.project (.doc projection) d =
        .error (.exclusionAmongInclusions identity.internal) := by
  refine ⟨_, targetProjection_entry identity j, ?_⟩
  let rest := ((j.names identity).map fun name => (name, Value.int 1)).filter fun field =>
    field.1 != "_id"
  have flags : (((identity.external, identifierText identity) :: (identity.internal, .int 0) ::
      (j.names identity).map fun name => (name, .int 1)) : Document).filter
        (fun field => field.1 != "_id") =
          (identity.external, identifierText identity) :: (identity.internal, .int 0) :: rest := by
    simp [rest, external, internal]
  have refused (source result : List (String × Node)) :
      Pipeline.gather ((identity.internal, .int 0) :: rest) source result =
        fun _ => .error (.exclusionAmongInclusions identity.internal) := by
    rw [Pipeline.gather, Pipeline.isExclusion_zero]
    rfl
  have gathered (source result : List (String × Node)) (next : Nat) :
      Pipeline.gather ((identity.external, identifierText identity) ::
        (identity.internal, .int 0) :: rest) source result next =
          .error (.exclusionAmongInclusions identity.internal) := by
    -- The identifier comes first and is computed, so that the fault shows at the second field.
    have evaluates : Except.FailsBy (fun _ => False)
        (Expression.evaluate (.doc 0 source) (identifierText identity) next) :=
      Expression.failsBy_evaluate .text readable.covered next
    rw [identifierText, Pipeline.gather, Pipeline.isExclusion_doc]
    simp only [refused]
    change (Expression.evaluate (.doc 0 source) (identifierText identity) next >>=
      fun made => _) = _
    cases run : Expression.evaluate (.doc 0 source) (identifierText identity) next with
    | error failure => exact (evaluates failure run).elim
    | ok made =>
      change (if made.1.isAbsent then _ else _ : Expression.Computation _) made.2 = _
      split
      · rfl
      · rfl
  rw [Pipeline.project, flags]
  have computed : (identifierText identity).isExclusion = false := Pipeline.isExclusion_doc _
  simp only [computed, List.all_cons, Bool.false_and, Bool.false_eq_true, if_false, StateT.run,
    gathered]
  rfl

def owned : Query := { join := some [("owner", { collection := .str "users" })] }

def postedByAnn : World :=
  (World.empty true).setContents "main" { collections := [
    ("users", { records := Repository.records [[("_id", .str "u1"), ("key", .str "ann")]] }),
    ("posts", { records := Repository.records [[("_id", .str "p1"), ("owner", .str "ann")]] })] }

def ownedPlan : Plan where
  stages := [.lookup (.str "users") "owner" "key" "owner"
    [.project [("id", identifierText .keyed), ("key", .int 0)]]]
  total := [.count totalField]

theorem owned_isReadable : owned.IsReadable where
  select := nofun
  join := List.forall_mem_singleton.2 ⟨by decide, nofun⟩
  sort := nofun
  aliases := nofun

/-- The post is joined with its user, whose `key` the plan excludes beside the `id` that it
computes. -/
theorem join_excludes_key :
    owned.IsReadable ∧
      Query.ofData (.doc [("join", .doc [("owner", .doc [("collection_name", .str "users")])])]) =
        .ok owned ∧
      ofQuery .keyed false owned = .ok ownedPlan ∧
      (World.aggregate "main" "posts" (.list (Stage.renderAll ownedPlan.stages)) none
        postedByAnn).1 = .error (.exclusionAmongInclusions "key") ∧
      (Failure.exclusionAmongInclusions "key").kind = .store := by
  have refused : (match (World.aggregate "main" "posts"
      (.list (Stage.renderAll ownedPlan.stages)) none postedByAnn).1 with
      | .error (.exclusionAmongInclusions path) => path == "key"
      | _ => false) = true := by decide +kernel
  refine ⟨owned_isReadable, by with_unfolding_all rfl, by with_unfolding_all rfl, ?_, rfl⟩
  split at refused
  · rename_i path failed
    rw [failed, beq_iff_eq.1 refused]
  · cases refused

end Plan
end Docbase
